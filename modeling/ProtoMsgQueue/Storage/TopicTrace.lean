import ProtoMsgQueue.Storage.TopicAt

/-!
# The history of a topic

As long as a topic is not deleted, it is a machine of its own inside the store: `topicTrace` picks
its steps out of a history of the store, and `topicTrace_run` says that they are a run of `topic`
from a new topic, at the end of which the topic is as it is in the store. What the store accepts
for the topic and what it returns to its consumers is what happens in that run.
-/

namespace ProtoMsgQueue

open UnorderedMap

/-- The messages that an operation on the store returned to a consumer of the topic `t`. -/
def StoreEvent.pulled (t : TopicName) (c : Consumer) (e : StoreEvent) : List StoredMessage :=
  match e.input, e.output with
  | .onTopic topic (.pull c' _ _ _), .onTopic (.pulled msgs) =>
    if topic = t ∧ c' = c then msgs else []
  | _, _ => []

/-- What an event of the store accepts for the topic `t`. -/
def StoreEvent.publishedOn (t : TopicName) (e : StoreEvent) :
    List (TopicName × MessageId × Payload) :=
  (StoreEvent.published? e).toList.filter fun p => p.1 = t

namespace MemoryMessageStore

variable (t : TopicName) (store : MemoryMessageStore)

/-- The step of the topic `t` that an operation is: there is none if the operation names another
topic, or one that does not exist and that it does not make. -/
def topicSteps (op : StoreOp) : List TopicOp :=
  match op.onTopic? t with
  | none => []
  | some top => if t ∈ store.topics ∨ top.isPublish = true then [top] else []

/-- The steps of the topic `t` in a history of the store. -/
def topicTrace (h : List StoreEvent) : List TopicEvent :=
  h.flatMap fun e => (topic e.pre.config).trace (e.pre.topicAt t) (e.pre.topicSteps t e.input)

variable {t store}

/-- An operation on the store makes these steps of the topic. -/
theorem topicAt_step {op : StoreOp} (hdelete : op ≠ .deleteTopic t) :
    (messageStore.step store op).1.topicAt t =
      (topic store.config).run (store.topicAt t) (store.topicSteps t op) := by
  rw [topicSteps]
  rcases hon : op.onTopic? t with - | top
  · exact topicAt_step_other store hon hdelete
  · obtain rfl := StoreOp.onTopic?_eq_some.mp hon
    dsimp only
    split
    · next hmade => exact (topicAt_step_onTopic store hmade).1
    · next hmade =>
      rw [step_onTopic_unmade hmade]
      rfl

/-- What an operation accepts and returns, from the steps of the topic. -/
theorem published_pulled_event (store : MemoryMessageStore) (op : StoreOp) (c : Consumer) :
    let h := (topic store.config).trace (store.topicAt t) (store.topicSteps t op)
    StoreEvent.publishedOn t (messageStore.event store op) =
        (accepted h).map (fun m => (t, m.id, m.payload)) ∧
      StoreEvent.pulled t c (messageStore.event store op) = h.flatMap (deliveredBy c) := by
  intro h
  rcases hon : op.onTopic? t with - | top
  · have hnone : h = [] := by
      simp only [h, topicSteps, hon, StepMachine.trace_nil]
    rw [hnone]
    cases op with
    | onTopic topic top =>
      have hne : topic ≠ t := by
        rintro rfl
        rw [StoreOp.onTopic?, if_pos rfl] at hon
        cases hon
      constructor
      · rw [StoreEvent.publishedOn, StoreEvent.published?]
        split
        · next hin _ =>
          cases hin
          simp [accepted, hne]
        · rfl
      · rw [StoreEvent.pulled]
        split
        · next hin _ =>
          cases hin
          exact if_neg fun h => hne h.1
        · rfl
    | _ => exact ⟨rfl, rfl⟩
  obtain rfl := StoreOp.onTopic?_eq_some.mp hon
  by_cases hmade : t ∈ store.topics ∨ top.isPublish = true
  · have hone : h = [(topic store.config).event (store.topicAt t) top] := by
      simp only [h, topicSteps, hon, if_pos hmade, StepMachine.trace_cons, StepMachine.trace_nil]
    obtain ⟨-, hout⟩ := topicAt_step_onTopic store hmade
    rw [hone, StoreEvent.publishedOn, published?_onTopic store hout]
    constructor
    · rw [accepted, List.filterMap_cons, List.filterMap_nil]
      cases acceptedMessage ((topic store.config).event (store.topicAt t) top) <;> simp
    · rw [List.flatMap_singleton, StoreEvent.pulled, StepMachine.event_input,
        StepMachine.event_output, hout]
      cases top with
      | pull c' maxMessages nowMs steadyNow => simp only [topic, deliveredBy, true_and]; rfl
      | _ => rfl
  · -- the topic does not exist, so there is nothing to return
    have hnone : h = [] := by
      simp only [h, topicSteps, hon, if_neg hmade, StepMachine.trace_nil]
    obtain ⟨hmissing, hpublish⟩ := not_or.mp hmade
    have hlook := AList.lookup_eq_none.mpr hmissing
    rw [hnone]
    cases top with
    | publish => exact absurd rfl hpublish
    | pull c' maxMessages nowMs steadyNow =>
      refine ⟨rfl, ?_⟩
      simp only [StoreEvent.pulled, StepMachine.event, messageStore, pull, hlook, List.flatMap_nil,
        ite_self]
    | _ => exact ⟨rfl, rfl⟩

/-- What a history accepts for the topic. -/
theorem flatMap_publishedOn {ops : List StoreOp} (store : MemoryMessageStore) :
    (messageStore.trace store ops).flatMap (StoreEvent.publishedOn t) =
      (accepted (topicTrace t (messageStore.trace store ops))).map
        fun m => (t, m.id, m.payload) := by
  rw [topicTrace, accepted, List.filterMap_flatMap, List.map_flatMap]
  refine List.flatMap_congr fun e he => ?_
  obtain ⟨before, -, -, hevent⟩ := messageStore.mem_trace he
  rw [hevent]
  exact (published_pulled_event _ _ ⟨true, ""⟩).1

/-- What a history returns to a consumer. -/
theorem flatMap_pulled {ops : List StoreOp} (store : MemoryMessageStore) (c : Consumer) :
    (messageStore.trace store ops).flatMap (StoreEvent.pulled t c) =
      (topicTrace t (messageStore.trace store ops)).flatMap (deliveredBy c) := by
  rw [topicTrace, List.flatMap_assoc]
  refine List.flatMap_congr fun e he => ?_
  obtain ⟨before, -, -, hevent⟩ := messageStore.mem_trace he
  rw [hevent]
  exact (published_pulled_event _ _ c).2

/-- **The history of a topic.** As long as the topic is not deleted, its steps are a run of
`topic`, which takes it to where it is in the store. -/
theorem topicTrace_run {config : StoreConfig} (hconfig : store.config = config)
    {ops : List StoreOp} (hdelete : .deleteTopic t ∉ ops) :
    ∃ tops, topicTrace t (messageStore.trace store ops) =
        (topic config).trace (store.topicAt t) tops ∧
      (messageStore.run store ops).topicAt t = (topic config).run (store.topicAt t) tops ∧
      publishes tops ≤ ops.countP StoreOp.isPublish := by
  have hcomponent := messageStore.component_of_inv (N := topic config)
    (π := fun store => store.topicAt t) (f := fun store op => store.topicSteps t op)
    (I := fun store => store.config = config) (A := fun op => op ≠ .deleteTopic t)
    (fun store op h _ => (config_step store op).trans h)
    (fun store op h hop => h ▸ topicAt_step hop) hconfig fun op hop => by
      rintro rfl
      exact hdelete hop
  refine ⟨_, ?_, hcomponent.1, ?_⟩
  · rw [hcomponent.2, topicTrace]
    refine List.flatMap_congr fun e he => ?_
    obtain ⟨before, -, -, hevent⟩ := messageStore.mem_trace he
    have hpre : e.pre.config = config := by
      rw [hevent, StepMachine.event_pre, config_run, hconfig]
    rw [hpre]
  · -- every publish of the topic is one of the store
    have hone : ∀ (store : MemoryMessageStore) (op : StoreOp),
        publishes (store.topicSteps t op) ≤ if op.isPublish then 1 else 0 := by
      intro store op
      rw [topicSteps]
      rcases hon : op.onTopic? t with - | top
      · exact Nat.zero_le _
      · obtain rfl := StoreOp.onTopic?_eq_some.mp hon
        dsimp only
        split
        · rw [publishes, List.countP_singleton, StoreOp.isPublish]
        · exact Nat.zero_le _
    clear hcomponent hdelete hconfig
    induction ops generalizing store with
    | nil => exact le_rfl
    | cons op ops ih =>
      rw [StepMachine.trace_cons, List.flatMap_cons, publishes, List.countP_append,
        List.countP_cons, Nat.add_comm]
      exact Nat.add_le_add ih (hone store op)

end MemoryMessageStore

end ProtoMsgQueue
