import ProtoMsgQueue.Storage.MemoryMessageStore

/-!
# Topics do not meet

`Alike` relates two stores that cannot be told apart by operations on one topic: the topic and
its dead-letter queue are the same in both. An operation on the topic keeps the relation and
returns the same in both stores; an operation on another topic keeps it when only one of the
stores makes it. So nothing that is done with other topics is ever seen on this one
(`separate_topics`).
-/

namespace ProtoMsgQueue

open UnorderedMap

/-- The topic that an operation names. -/
def StoreOp.topic : StoreOp → TopicName
  | .onTopic topic _ => topic
  | .createTopic topic => topic
  | .deleteTopic topic => topic
  | .pullDlq topic _ => topic

/-- Is the operation one on the topic `t`? -/
def StoreOp.names (t : TopicName) (op : StoreOp) : Bool := op.topic = t

/-- What an operation on the topic `t` returned. -/
def StoreEvent.seen (t : TopicName) (e : StoreEvent) : Option StoreResult :=
  if e.input.names t then some e.output else none

namespace MemoryMessageStore

/-- Two stores that are the same on the topic `t`. -/
structure Alike (t : TopicName) (store store' : MemoryMessageStore) : Prop where
  config_eq : store.config = store'.config
  named : store.Named
  named' : store'.Named
  topic_eq : store.topics.lookup t = store'.topics.lookup t
  dlq_eq : store.dlqStorage.lookup (makeDlqName t) = store'.dlqStorage.lookup (makeDlqName t)

namespace Alike

variable {t : TopicName} {store store' : MemoryMessageStore}

theorem refl (h : store.Named) (t : TopicName) : Alike t store store :=
  ⟨rfl, h, h, rfl, rfl⟩

/-- An operation on another topic, in one of the stores. -/
theorem step_other (h : Alike t store store') {op : StoreOp} (hop : op.topic ≠ t) :
    Alike t (messageStore.step store op).1 store' where
  config_eq := (config_step store op).trans h.config_eq
  named := h.named.step op
  named' := h.named'
  topic_eq := by
    rw [lookup_step_of_onTopic?_eq_none ?_ ?_ ?_, h.topic_eq]
    · rw [Option.eq_none_iff_forall_ne_some]
      intro top htop
      rw [StoreOp.onTopic?_eq_some.mp htop] at hop
      exact hop rfl
    · rintro rfl
      exact hop rfl
    · rintro rfl
      exact hop rfl
  dlq_eq := by
    rw [lookup_dlqStorage_step h.named ?_ ?_ ?_, h.dlq_eq]
    · rintro clock order rfl
      exact hop rfl
    · rintro rfl
      exact hop rfl
    · rintro maxMessages rfl
      exact hop rfl

/-- What an operation on the topic returns, and what it makes of the topic and its dead-letter
queue, is the same in both stores. -/
theorem step_eq (h : Alike t store store') {op : StoreOp} (hop : op.topic = t) :
    (messageStore.step store op).2 = (messageStore.step store' op).2 ∧
    (messageStore.step store op).1.topics.lookup t =
      (messageStore.step store' op).1.topics.lookup t ∧
    (messageStore.step store op).1.dlqStorage.lookup (makeDlqName t) =
      (messageStore.step store' op).1.dlqStorage.lookup (makeDlqName t) := by
  have htopic := h.topic_eq
  have hdlq := h.dlq_eq
  have hnew : store.newTopic t = store'.newTopic t := by rw [newTopic, newTopic, h.config_eq]
  have hmem : t ∈ store.topics ↔ t ∈ store'.topics := by
    rw [← AList.lookup_isSome, ← AList.lookup_isSome, htopic]
  cases op with
  | onTopic topic op =>
    obtain rfl : topic = t := hop
    cases op with
    | publish payload ttlMs expiryNowMs nowMs =>
      simp only [messageStore, publish, htopic, hnew, AList.lookup_insert, hdlq, and_self]
    | pull c maxMessages nowMs steadyNow =>
      simp only [messageStore, pull, htopic]
      split <;> simp only [AList.lookup_insert, htopic, hdlq, and_self]
    | ack c msgId =>
      simp only [messageStore, ack, htopic]
      split <;> simp only [AList.lookup_insert, htopic, hdlq, and_self]
    | retryPass clock order =>
      simp only [messageStore, processPendingRetries, htopic]
      split
      · exact ⟨rfl, htopic, hdlq⟩
      · next td hlook =>
        rw [h.config_eq, h.named' topic td hlook]
        refine ⟨rfl, ?_, lookup_foldl_pushDlq_congr _ hdlq⟩
        rw [AList.lookup_insert, AList.lookup_insert]
    | expirePass nowMs =>
      simp only [messageStore, expireTopicMessages, htopic]
      split <;> simp only [AList.lookup_insert, htopic, hdlq, and_self]
  | createTopic topic =>
    obtain rfl : topic = t := hop
    simp only [messageStore, createTopic, hmem]
    split <;> simp only [AList.lookup_insert, htopic, hdlq, hnew, and_self]
  | deleteTopic topic =>
    obtain rfl : topic = t := hop
    simp only [messageStore, deleteTopic, hmem]
    split <;> simp only [AList.lookup_erase, htopic, hdlq, and_self]
  | pullDlq topic maxMessages =>
    obtain rfl : topic = t := hop
    simp only [messageStore, pullDlq, hdlq]
    split <;> simp only [AList.lookup_insert, htopic, hdlq, and_self]

/-- An operation on the topic, in both stores. -/
theorem step_same (h : Alike t store store') {op : StoreOp} (hop : op.topic = t) :
    Alike t (messageStore.step store op).1 (messageStore.step store' op).1 where
  config_eq := by rw [config_step, config_step, h.config_eq]
  named := h.named.step op
  named' := h.named'.step op
  topic_eq := (h.step_eq hop).2.1
  dlq_eq := (h.step_eq hop).2.2

end Alike

/-- A store without topics files them under their names. -/
theorem named_ofConfig (config : StoreConfig) : (ofConfig config).Named := by
  intro t td hlook
  cases hlook

/-- **Separate topics.** Whatever is done with other topics, creating, deleting, publishing,
pulling, background passes and dead-letter queues included, the operations on a topic return what
they return when they are done alone, and leave the topic and its dead-letter queue as they do
then. -/
theorem separate_topics (config : StoreConfig) (t : TopicName) (ops : List StoreOp) :
    (messageStore.trace (ofConfig config) ops).filterMap (StoreEvent.seen t) =
      (messageStore.trace (ofConfig config) (ops.filter (StoreOp.names t))).map
        StepMachine.Event.output ∧
    Alike t (messageStore.run (ofConfig config) ops)
      (messageStore.run (ofConfig config) (ops.filter (StoreOp.names t))) := by
  have hsim : Alike t (messageStore.run (ofConfig config) ops)
        (messageStore.run (ofConfig config) (ops.filter (StoreOp.names t))) ∧
      (messageStore.trace (ofConfig config) ops).filterMap (StoreEvent.seen t) =
        (messageStore.trace (ofConfig config) (ops.filter (StoreOp.names t))).filterMap
          (StoreEvent.seen t) := by
    refine StepMachine.filter_simulation messageStore (C := fun _ _ => True) (D := fun _ _ => True)
      (R := fun _ store _ store' => Alike t store store') (Alike.refl (named_ofConfig config) t)
      ?_ ?_ (fun _ _ _ _ => trivial) (fun _ _ _ _ => trivial)
    · intro _ store _ store' op h _ _ hop
      have htopic : op.topic = t := of_decide_eq_true hop
      refine ⟨h.step_same htopic, ?_⟩
      rw [StoreEvent.seen, StoreEvent.seen, StepMachine.event_input, StepMachine.event_input,
        if_pos hop, if_pos hop]
      exact congrArg some (h.step_eq htopic).1
    · intro _ store _ store' op h _ hop
      refine ⟨h.step_other (of_decide_eq_false hop), ?_⟩
      rw [StoreEvent.seen, StepMachine.event_input, hop, if_neg Bool.false_ne_true]
  refine ⟨hsim.2.trans ?_, hsim.1⟩
  -- every operation that is left names the topic
  rw [← List.filterMap_eq_map]
  refine List.filterMap_congr fun e he => ?_
  obtain ⟨before, after, hops, -⟩ := messageStore.mem_trace he
  have hmem : e.input ∈ ops.filter (StoreOp.names t) :=
    hops ▸ List.mem_append_right _ List.mem_cons_self
  rw [StoreEvent.seen, if_pos (List.mem_filter.mp hmem).2]
  rfl

end MemoryMessageStore

end ProtoMsgQueue
