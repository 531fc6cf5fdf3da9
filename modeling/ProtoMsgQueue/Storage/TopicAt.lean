import ProtoMsgQueue.Storage.FirstDelivery
import ProtoMsgQueue.Storage.MemoryMessageStore

/-!
# A topic of the store, made or not

`topicAt` is the topic that a publish under a name works on: the one of that name, or a new
one. As long as a topic is not deleted, every operation on the store is a step of `topic` there
or changes nothing there. So every topic of a reachable store is one that a run of `topic`
reaches from a new topic, and the invariants of those runs hold of it.
-/

namespace ProtoMsgQueue

open UnorderedMap

/-- Does the operation publish? -/
def StoreOp.isPublish : StoreOp → Bool
  | .onTopic _ op => op.isPublish
  | _ => false

/-- The message an event of the store accepts, if any: topic, identifier and payload. -/
def StoreEvent.published? (e : StoreEvent) : Option (TopicName × MessageId × Payload) :=
  match e.input, e.output with
  | .onTopic topic (.publish payload _ _ _), .onTopic (.published msgId true) =>
    some (topic, msgId, payload)
  | _, _ => none

/-- A publish accepts its message if it returns true. -/
theorem published?_publish (store : MemoryMessageStore) (topic : TopicName) (payload : Payload)
    (ttlMs : UInt32) (expiryNowMs nowMs : UInt64) :
    let out := store.publish topic payload ttlMs expiryNowMs nowMs
    StoreEvent.published?
        (messageStore.event store (.onTopic topic (.publish payload ttlMs expiryNowMs nowMs))) =
      if out.2.2 then some (topic, out.2.1, payload) else none := by
  intro out
  have hout : (messageStore.event store
      (.onTopic topic (.publish payload ttlMs expiryNowMs nowMs))).output =
        .onTopic (.published out.2.1 out.2.2) := rfl
  rw [StoreEvent.published?, hout]
  cases out.2.2 <;> rfl

/-- What a single operation accepts. -/
theorem published?_trace_singleton (store : MemoryMessageStore) (op : StoreOp) :
    (messageStore.trace store [op]).filterMap StoreEvent.published? =
      (StoreEvent.published? (messageStore.event store op)).toList := by
  rw [StepMachine.trace_cons, StepMachine.trace_nil, List.filterMap_cons]
  cases StoreEvent.published? (messageStore.event store op) <;> rfl

namespace MemoryMessageStore

variable (store : MemoryMessageStore)

/-- The topic a publish works on. -/
def topicAt (t : TopicName) : TopicData := (store.topics.lookup t).getD (store.newTopic t)

theorem topicAt_of_lookup {t : TopicName} {td : TopicData} (h : store.topics.lookup t = some td) :
    store.topicAt t = td := by
  rw [topicAt, h, Option.getD_some]

theorem newTopic_step (op : StoreOp) (t : TopicName) :
    (messageStore.step store op).1.newTopic t = store.newTopic t := by
  rw [newTopic, newTopic, config_step]

/-- An operation on the topic is a step of it, if there is the topic or the operation makes it. -/
theorem topicAt_step_onTopic {t : TopicName} {top : TopicOp}
    (h : t ∈ store.topics ∨ top.isPublish = true) :
    (messageStore.step store (.onTopic t top)).1.topicAt t =
        ((topic store.config).step (store.topicAt t) top).1 ∧
      (messageStore.step store (.onTopic t top)).2 =
        .onTopic ((topic store.config).step (store.topicAt t) top).2 := by
  rcases hlookup : store.topics.lookup t with - | td
  · have hpub : top.isPublish = true := h.resolve_left (AList.lookup_eq_none.mp hlookup)
    cases top with
    | publish payload ttlMs expiryNowMs nowMs =>
      obtain ⟨htopics, hout⟩ := step_publish_new hlookup payload ttlMs expiryNowMs nowMs
      have hnew : store.topicAt t = store.newTopic t := by rw [topicAt, hlookup, Option.getD_none]
      rw [hnew]
      exact ⟨topicAt_of_lookup _ (by rw [htopics, AList.lookup_insert]), hout⟩
    | _ => cases hpub
  · obtain ⟨htopics, hout⟩ := step_onTopic hlookup top
    rw [store.topicAt_of_lookup hlookup]
    exact ⟨topicAt_of_lookup _ (by rw [htopics, AList.lookup_insert]), hout⟩

/-- What an operation on the topic accepts is what the topic accepts. -/
theorem published?_onTopic {t : TopicName} {top : TopicOp}
    (hout : (messageStore.step store (.onTopic t top)).2 =
      .onTopic ((topic store.config).step (store.topicAt t) top).2) :
    StoreEvent.published? (messageStore.event store (.onTopic t top)) =
      (acceptedMessage ((topic store.config).event (store.topicAt t) top)).map
        fun m => (t, m.id, m.payload) := by
  cases top with
  | publish payload ttlMs expiryNowMs nowMs =>
    rw [StoreEvent.published?, StepMachine.event_input, StepMachine.event_output, hout,
      acceptedMessage, StepMachine.event_input, StepMachine.event_output]
    simp only [topic]
    cases ((store.topicAt t).publish payload ttlMs expiryNowMs nowMs).2.2 <;> rfl
  | _ => rfl

/-- An operation on a missing topic that does not make it does nothing. -/
theorem step_onTopic_unmade {store : MemoryMessageStore} {t : TopicName} {top : TopicOp}
    (h : ¬(t ∈ store.topics ∨ top.isPublish = true)) :
    (messageStore.step store (.onTopic t top)).1 = store := by
  rw [not_or] at h
  refine step_onTopic_missing (AList.lookup_eq_none.mpr h.1) ?_
  rintro payload ttlMs expiryNowMs nowMs rfl
  exact h.2 rfl

/-- No other operation than a deletion changes the topic. -/
theorem topicAt_step_other {t : TopicName} {op : StoreOp} (hop : op.onTopic? t = none)
    (hdelete : op ≠ .deleteTopic t) :
    (messageStore.step store op).1.topicAt t = store.topicAt t := by
  by_cases hcreate : op = .createTopic t
  · rw [hcreate]
    by_cases hmem : t ∈ store.topics
    · obtain ⟨td, htd⟩ := mem_iff_exists_lookup.mp hmem
      rw [step_createTopic_of_lookup htd]
    · have hlookup : (messageStore.step store (.createTopic t)).1.topics.lookup t =
          some (store.newTopic t) := by
        simp only [messageStore, createTopic, if_neg hmem, AList.lookup_insert]
      rw [topicAt_of_lookup _ hlookup, topicAt, AList.lookup_eq_none.mpr hmem, Option.getD_none]
  · rw [topicAt, topicAt, newTopic_step, lookup_step_of_onTopic?_eq_none hop hcreate hdelete]

/-- A deleted topic is a new one. -/
theorem topicAt_step_deleteTopic (t : TopicName) :
    (messageStore.step store (.deleteTopic t)).1.topicAt t = store.newTopic t := by
  have hlookup : (messageStore.step store (.deleteTopic t)).1.topics.lookup t = none := by
    simp only [messageStore, deleteTopic]
    split
    · exact AList.lookup_erase _ _
    · rename_i hmem
      exact AList.lookup_eq_none.mpr hmem
  rw [topicAt, hlookup, Option.getD_none, newTopic_step]

/-- Every topic of the store is reached from a new one by a run with at most `n` publishes. -/
def TopicsReached (n : ℕ) : Prop :=
  ∀ t, ∃ ops, store.topicAt t = (topic store.config).run (store.newTopic t) ops ∧
    publishes ops ≤ n

variable {store} {n : ℕ}

theorem TopicsReached.step (h : store.TopicsReached n) (op : StoreOp) :
    (messageStore.step store op).1.TopicsReached (n + if op.isPublish then 1 else 0) := by
  intro t
  rw [newTopic_step, config_step]
  obtain ⟨ops, hrun, hcount⟩ := h t
  by_cases hdelete : op = .deleteTopic t
  · exact ⟨[], by rw [hdelete, topicAt_step_deleteTopic]; rfl, Nat.zero_le _⟩
  rcases hon : op.onTopic? t with - | top
  · exact ⟨ops, by rw [topicAt_step_other store hon hdelete, hrun],
      hcount.trans (Nat.le_add_right _ _)⟩
  obtain rfl := StoreOp.onTopic?_eq_some.mp hon
  by_cases hmade : t ∈ store.topics ∨ top.isPublish = true
  · refine ⟨ops ++ [top], ?_, ?_⟩
    · rw [(topicAt_step_onTopic store hmade).1, hrun, StepMachine.run_concat]
    · have hone : publishes (ops ++ [top]) = publishes ops + if top.isPublish then 1 else 0 := by
        rw [publishes, List.countP_append, List.countP_singleton]
        rfl
      rw [hone]
      exact Nat.add_le_add_right hcount _
  · exact ⟨ops, by rw [step_onTopic_unmade hmade, hrun], hcount.trans (Nat.le_add_right _ _)⟩

/-- **Reachable topics.** After every run of a store its topics are reached by runs of topics. -/
theorem topicsReached_run (h : store.TopicsReached n) (ops : List StoreOp) :
    (messageStore.run store ops).TopicsReached (n + ops.countP StoreOp.isPublish) := by
  induction ops generalizing store n with
  | nil => exact h
  | cons op ops ih =>
    have hrest := ih (h.step op)
    rw [List.countP_cons, Nat.add_comm (ops.countP _), ← Nat.add_assoc]
    exact hrest

/-- No run changes the configuration. -/
theorem config_run (store : MemoryMessageStore) (ops : List StoreOp) :
    (messageStore.run store ops).config = store.config := by
  induction ops generalizing store with
  | nil => rfl
  | cons op ops ih => exact (ih _).trans (config_step store op)

theorem topicsReached_ofConfig (config : StoreConfig) : (ofConfig config).TopicsReached 0 :=
  fun _ => ⟨[], rfl, le_rfl⟩

/-- The invariant of a topic, for the topics of a store. -/
theorem TopicsReached.consistent (h : store.TopicsReached n)
    (hbuffer : store.config.defaultBufferSize ≤ kMaxPayloadSize) (hn : n < 2 ^ 64 - 2)
    (t : TopicName) : ∃ hist drained waiting,
      TopicData.Consistent hist (store.topicAt t) drained waiting ∧ Bounded hist := by
  obtain ⟨ops, hrun, hcount⟩ := h t
  have hb : Bounded ((topic store.config).trace (store.newTopic t) ops) :=
    TopicData.bounded_of_publishes hbuffer t (hcount.trans_lt hn)
  obtain ⟨drained, waiting, hc⟩ := TopicData.consistent_run store.config t
    store.config.defaultBufferSize ops hb
  exact ⟨_, drained, waiting, hrun ▸ hc, hb⟩

end MemoryMessageStore

end ProtoMsgQueue
