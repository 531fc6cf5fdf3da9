import Mathlib.Data.List.DropRight
import ProtoMsgQueue.Storage.SeparateTopics

/-!
# Dead-letter queues

Retry passes put messages into the dead-letter queue of their topic, `PullDlq` takes them out,
and `DeleteTopic` throws the queue away. `dlq_fifo` says that nothing else happens to it: since
the topic was last deleted, the messages put in are those taken out, one by one and in their
order, followed by those that are still there.
-/

namespace ProtoMsgQueue

open UnorderedMap

/-- Does the operation delete the topic `t`? -/
def StoreOp.deletes (t : TopicName) : StoreOp → Bool
  | .deleteTopic topic => topic = t
  | _ => false

theorem StoreOp.deletes_eq_true {t : TopicName} {op : StoreOp} :
    op.deletes t = true ↔ op = .deleteTopic t := by
  cases op with
  | deleteTopic topic => simp [StoreOp.deletes]
  | _ => simp [StoreOp.deletes]

theorem StoreOp.deletes_eq_false {t : TopicName} {op : StoreOp} :
    op.deletes t = false ↔ op ≠ .deleteTopic t := by
  rw [← Bool.not_eq_true, StoreOp.deletes_eq_true]

/-- The messages that an operation puts into the dead-letter queue of `t`. -/
def StoreEvent.deadLettered (t : TopicName) (e : StoreEvent) : List StoredMessage :=
  match e.input, e.output with
  | .onTopic topic (.retryPass _ _), .onTopic (.retried dlq) => if topic = t then dlq else []
  | _, _ => []

/-- The messages that an operation takes out of the dead-letter queue of `t`. -/
def StoreEvent.takenDead (t : TopicName) (e : StoreEvent) : List StoredMessage :=
  match e.input, e.output with
  | .pullDlq topic _, .pulledDlq msgs => if topic = t then msgs else []
  | _, _ => []

namespace MemoryMessageStore

/-- The dead-letter queue of a topic. -/
def dlqOf (store : MemoryMessageStore) (t : TopicName) : List StoredMessage :=
  valueAt store.dlqStorage (makeDlqName t) []

/-- The operations since the topic was last deleted. -/
def sinceDeletion (t : TopicName) (h : List StoreEvent) : List StoreEvent :=
  h.rtakeWhile fun e => !e.input.deletes t

/-- The dead-letter queue of a topic after a history, with a reason why a topic that does not
exist has none. -/
structure DlqConsistent (t : TopicName) (h : List StoreEvent) (store : MemoryMessageStore) :
    Prop where
  named : store.Named
  none_of_missing : t ∉ store.topics → store.dlqStorage.lookup (makeDlqName t) = none
  queue_eq : (sinceDeletion t h).flatMap (StoreEvent.deadLettered t) =
    (sinceDeletion t h).flatMap (StoreEvent.takenDead t) ++ store.dlqOf t

variable {t : TopicName} {h : List StoreEvent} {store : MemoryMessageStore}

/-- Messages that are put in come behind those that were there. -/
theorem valueAt_foldl_pushDlq (dlqName : TopicName) (msgs : List StoredMessage)
    (dlqs : UnorderedMap TopicName (List StoredMessage)) :
    valueAt (msgs.foldl (pushDlq dlqName) dlqs) dlqName [] = valueAt dlqs dlqName [] ++ msgs := by
  induction msgs generalizing dlqs with
  | nil => exact (List.append_nil _).symm
  | cons msg msgs ih =>
    rw [List.foldl_cons, ih, pushDlq, valueAt_insert, List.append_assoc]
    rfl

/-- What an operation other than a deletion does to the queue. -/
theorem dlqOf_step (hnamed : store.Named) {op : StoreOp} (hop : op.deletes t = false) :
    store.dlqOf t ++ StoreEvent.deadLettered t (messageStore.event store op) =
      StoreEvent.takenDead t (messageStore.event store op) ++
        (messageStore.step store op).1.dlqOf t := by
  have hframe : (∀ clock order, op ≠ .onTopic t (.retryPass clock order)) →
      (∀ maxMessages, op ≠ .pullDlq t maxMessages) →
      (messageStore.step store op).1.dlqOf t = store.dlqOf t := fun hretry hpull => by
    rw [dlqOf, valueAt, lookup_dlqStorage_step hnamed hretry ?_ hpull]
    · rfl
    · exact StoreOp.deletes_eq_false.mp hop
  have hquiet : (messageStore.step store op).1.dlqOf t = store.dlqOf t →
      StoreEvent.deadLettered t (messageStore.event store op) = [] →
      StoreEvent.takenDead t (messageStore.event store op) = [] →
      store.dlqOf t ++ StoreEvent.deadLettered t (messageStore.event store op) =
        StoreEvent.takenDead t (messageStore.event store op) ++
          (messageStore.step store op).1.dlqOf t := fun hdlq hdead htaken => by
    rw [hdlq, hdead, htaken, List.append_nil, List.nil_append]
  cases op with
  | onTopic topic op =>
    cases op with
    | retryPass clock order =>
      have hdead : StoreEvent.deadLettered t
          (messageStore.event store (.onTopic topic (.retryPass clock order))) =
            if topic = t then (store.processPendingRetries topic clock order).2 else [] := rfl
      by_cases htopic : topic = t
      · subst htopic
        rw [hdead, if_pos rfl]
        change store.dlqOf topic ++ (store.processPendingRetries topic clock order).2 =
          (store.processPendingRetries topic clock order).1.dlqOf topic
        rw [processPendingRetries]
        split
        · exact List.append_nil _
        · next td hlook =>
          rw [hnamed topic td hlook]
          exact (valueAt_foldl_pushDlq _ _ _).symm
      · refine hquiet (hframe ?_ (fun _ heq => by cases heq)) ?_ rfl
        · rintro clock' order' heq
          exact htopic (StoreOp.onTopic.inj heq).1
        · rw [hdead, if_neg htopic]
    | _ => exact hquiet (hframe (fun _ _ heq => by cases heq) (fun _ heq => by cases heq)) rfl rfl
  | pullDlq topic maxMessages =>
    have htaken : StoreEvent.takenDead t (messageStore.event store (.pullDlq topic maxMessages)) =
        if topic = t then (store.pullDlq topic maxMessages).2 else [] := rfl
    by_cases htopic : topic = t
    · subst htopic
      rw [htaken, if_pos rfl]
      change store.dlqOf topic ++ [] = (store.pullDlq topic maxMessages).2 ++
        (store.pullDlq topic maxMessages).1.dlqOf topic
      rw [List.append_nil, pullDlq]
      split
      · rfl
      · next dlq hlook =>
        dsimp only
        rw [dlqOf, dlqOf, valueAt_insert, valueAt, hlook, Option.getD_some, List.take_append_drop]
    · refine hquiet (hframe (fun _ _ heq => by cases heq) ?_) rfl ?_
      · rintro maxMessages' heq
        exact htopic (StoreOp.pullDlq.inj heq).1
      · rw [htaken, if_neg htopic]
  | _ => exact hquiet (hframe (fun _ _ heq => by cases heq) (fun _ heq => by cases heq)) rfl rfl

/-- Only a deletion removes a topic. -/
theorem mem_topics_step {op : StoreOp} (hop : op.deletes t = false) (hmem : t ∈ store.topics) :
    t ∈ (messageStore.step store op).1.topics := by
  obtain ⟨td, hlook⟩ := mem_iff_exists_lookup.mp hmem
  have hdelete : op ≠ .deleteTopic t := StoreOp.deletes_eq_false.mp hop
  by_cases hcreate : op = .createTopic t
  · rw [hcreate, step_createTopic_of_lookup hlook]
    exact hmem
  · rcases hon : op.onTopic? t with - | top
    · refine mem_iff_exists_lookup.mpr ⟨td, ?_⟩
      rw [lookup_step_of_onTopic?_eq_none hon hcreate hdelete, hlook]
    · rw [StoreOp.onTopic?_eq_some.mp hon, (step_onTopic hlook top).1]
      exact (AList.mem_insert _).mpr (Or.inl rfl)

/-- The deletion of a topic leaves no dead-letter queue. -/
theorem lookup_dlq_deleteTopic
    (hmissing : t ∉ store.topics → store.dlqStorage.lookup (makeDlqName t) = none) :
    (store.deleteTopic t).1.dlqStorage.lookup (makeDlqName t) = none := by
  rw [deleteTopic]
  split
  · exact AList.lookup_erase _ _
  · next hmem => exact hmissing hmem

/-- A topic that does not exist has no dead-letter queue, whatever is done. -/
theorem lookup_dlq_eq_none_step (hnamed : store.Named)
    (hmissing : t ∉ store.topics → store.dlqStorage.lookup (makeDlqName t) = none) (op : StoreOp)
    (hafter : t ∉ (messageStore.step store op).1.topics) :
    (messageStore.step store op).1.dlqStorage.lookup (makeDlqName t) = none := by
  cases hop : op.deletes t with
  | true =>
    obtain rfl := StoreOp.deletes_eq_true.mp hop
    exact lookup_dlq_deleteTopic hmissing
  | false =>
    have hbefore : t ∉ store.topics := fun hmem => hafter (mem_topics_step hop hmem)
    have hnone := hmissing hbefore
    by_cases hretry : ∃ clock order, op = .onTopic t (.retryPass clock order)
    · obtain ⟨clock, order, rfl⟩ := hretry
      rw [step_onTopic_missing (AList.lookup_eq_none.mpr hbefore) fun _ _ _ _ heq => by cases heq]
      exact hnone
    · by_cases hpull : ∃ maxMessages, op = .pullDlq t maxMessages
      · obtain ⟨maxMessages, rfl⟩ := hpull
        simp only [messageStore, pullDlq, hnone]
      · rw [lookup_dlqStorage_step hnamed (fun clock order heq => hretry ⟨clock, order, heq⟩) ?_
          fun maxMessages heq => hpull ⟨maxMessages, heq⟩, hnone]
        exact StoreOp.deletes_eq_false.mp hop

/-- Every operation keeps the invariant. -/
theorem DlqConsistent.step (hs : DlqConsistent t h store) (op : StoreOp) :
    DlqConsistent t (h ++ [messageStore.event store op]) (messageStore.step store op).1 where
  named := hs.named.step op
  none_of_missing := lookup_dlq_eq_none_step hs.named hs.none_of_missing op
  queue_eq := by
    rw [sinceDeletion, List.rtakeWhile_concat, StepMachine.event_input]
    cases hop : op.deletes t with
    | false =>
      rw [Bool.not_false, if_pos rfl, List.flatMap_append, List.flatMap_append,
        List.flatMap_singleton, List.flatMap_singleton, ← sinceDeletion, hs.queue_eq,
        List.append_assoc, dlqOf_step hs.named hop, List.append_assoc]
    | true =>
      -- nothing was done since the deletion, and the queue is gone
      obtain rfl := StoreOp.deletes_eq_true.mp hop
      rw [Bool.not_true, if_neg Bool.false_ne_true, dlqOf, valueAt]
      exact congrArg (Option.getD · []) (lookup_dlq_deleteTopic hs.none_of_missing).symm

/-- **Dead-letter queues.** Over every run, since a topic was last deleted, the messages that
retry passes put into its dead-letter queue are those that were taken out, in their order,
followed by those that are in it. -/
theorem dlq_fifo (config : StoreConfig) (t : TopicName) (ops : List StoreOp) :
    let h := messageStore.trace (ofConfig config) ops
    (sinceDeletion t h).flatMap (StoreEvent.deadLettered t) =
      (sinceDeletion t h).flatMap (StoreEvent.takenDead t) ++
        (messageStore.run (ofConfig config) ops).dlqOf t := by
  intro h
  have hinit : DlqConsistent t [] (ofConfig config) :=
    ⟨named_ofConfig config, fun _ => rfl, rfl⟩
  exact (messageStore.history_induction (P := DlqConsistent t) hinit
    (fun _ _ op hs => hs.step op) ops).queue_eq

end MemoryMessageStore

end ProtoMsgQueue
