import Mathlib.Data.String.Basic
import ProtoMsgQueue.Storage.Expiration
import ProtoMsgQueue.Storage.MemoryMessageStore

/-!
# Expiration passes are invisible

The store seen from one topic: `Unswept` relates a run of the store with the run without
its expiration passes, also when the topic is deleted and made again. The main result is
`expiration_invisible`: the results of publishes, pulls and dead-letter pulls do not depend
on where expiration passes stand.
-/

namespace ProtoMsgQueue

open UnorderedMap

/-- Visit consumers by key and entries by message identifier. -/
def PassOrder.sorted : PassOrder := ⟨.sorted _ _, .sorted _ _⟩

theorem PassOrder.fixed_sorted : PassOrder.sorted.Fixed :=
  ⟨VisitOrder.fixed_sorted _ _, VisitOrder.fixed_sorted _ _⟩

/-- Is the operation an expiration pass? -/
def StoreOp.isExpirePass : StoreOp → Bool
  | .onTopic _ op => op.isExpirePass
  | _ => false

/-- The result of a publish to the topic `t`, a pull from it or a pull from its dead-letter
queue. -/
def StoreEvent.visible (t : TopicName) (e : StoreEvent) : Option StoreResult :=
  match e.input with
  | .onTopic topic (.publish _ _ _ _) => if topic = t then some e.output else none
  | .onTopic topic (.pull _ _ _ _) => if topic = t then some e.output else none
  | .pullDlq topic _ => if topic = t then some e.output else none
  | _ => none

namespace MemoryMessageStore

/-- The operations on the topic `t` in a history. -/
def topicOps (t : TopicName) (h : List StoreEvent) : List TopicOp :=
  (h.map StepMachine.Event.input).filterMap (StoreOp.onTopic? t)

theorem topicOps_concat (t : TopicName) (h : List StoreEvent) (e : StoreEvent) :
    topicOps t (h ++ [e]) = topicOps t h ++ (e.input.onTopic? t).toList := by
  cases he : e.input.onTopic? t <;> simp [topicOps, he]

theorem topicOps_concat_onTopic (t : TopicName) (h : List StoreEvent) (store : MemoryMessageStore)
    (op : TopicOp) : topicOps t (h ++ [messageStore.event store (.onTopic t op)]) =
      topicOps t h ++ [op] := by
  rw [topicOps_concat]
  simp [StoreOp.onTopic?]

/-- Two stores, one of a run and one of the run without expiration passes, seen from the
topic `t`: its dead-letter queue is the same, and the topic is missing in both or comes from
a run since it was created, and from that run without its expiration passes. -/
structure Unswept (cfg : StoreConfig) (t : TopicName) (h : List StoreEvent)
    (store store' : MemoryMessageStore) : Prop where
  config_eq : store.config = cfg
  config_eq' : store'.config = cfg
  named : store.Named
  named' : store'.Named
  dlq_eq : store.dlqStorage.lookup (makeDlqName t) = store'.dlqStorage.lookup (makeDlqName t)
  topic : (store.topics.lookup t = none ∧ store'.topics.lookup t = none) ∨
    ∃ ops, ops.Sublist (topicOps t h) ∧
      store.topics.lookup t = some ((topic cfg).run
        (TopicData.ofName t cfg.defaultBufferSize) ops) ∧
      store'.topics.lookup t = some ((ProtoMsgQueue.topic cfg).run
        (TopicData.ofName t cfg.defaultBufferSize) (ops.filter fun op => !op.isExpirePass))

namespace Unswept

variable {cfg : StoreConfig} {t : TopicName} {h : List StoreEvent}
  {store store' : MemoryMessageStore}

theorem init (cfg : StoreConfig) (t : TopicName) :
    Unswept cfg t [] (ofConfig cfg) (ofConfig cfg) where
  config_eq := rfl
  config_eq' := rfl
  named _ _ hlook := by cases hlook
  named' _ _ hlook := by cases hlook
  dlq_eq := rfl
  topic := .inl ⟨rfl, rfl⟩

/-- Steps of either store that leave the topic and its dead-letter queue alone. -/
private theorem of_lookup (hu : Unswept cfg t h store store') {e : StoreEvent}
    {s s' : MemoryMessageStore} (hconfig : s.config = cfg) (hconfig' : s'.config = cfg)
    (hnamed : s.Named) (hnamed' : s'.Named)
    (hlook : s.topics.lookup t = store.topics.lookup t)
    (hlook' : s'.topics.lookup t = store'.topics.lookup t)
    (hdlq : s.dlqStorage.lookup (makeDlqName t) = s'.dlqStorage.lookup (makeDlqName t)) :
    Unswept cfg t (h ++ [e]) s s' where
  config_eq := hconfig
  config_eq' := hconfig'
  named := hnamed
  named' := hnamed'
  dlq_eq := hdlq
  topic := by
    rw [hlook, hlook', topicOps_concat]
    refine hu.topic.imp_right ?_
    rintro ⟨ops, hsub, hrun, hrun'⟩
    exact ⟨ops, hsub.trans (List.sublist_append_left _ _), hrun, hrun'⟩

/-- An operation that is not about the topic `t`, done in both runs. -/
private theorem frame (hu : Unswept cfg t h store store') {op : StoreOp}
    (hop : op.onTopic? t = none) (hcreate : op ≠ .createTopic t) (hdelete : op ≠ .deleteTopic t)
    (hpull : ∀ maxMessages, op ≠ .pullDlq t maxMessages) :
    Unswept cfg t (h ++ [messageStore.event store op]) (messageStore.step store op).1
      (messageStore.step store' op).1 := by
  have hretry : ∀ clock order, op ≠ .onTopic t (.retryPass clock order) := by
    rintro clock order rfl
    simp [StoreOp.onTopic?] at hop
  refine hu.of_lookup ((config_step _ _).trans hu.config_eq)
    ((config_step _ _).trans hu.config_eq') (hu.named.step op) (hu.named'.step op)
    (lookup_step_of_onTopic?_eq_none hop hcreate hdelete)
    (lookup_step_of_onTopic?_eq_none hop hcreate hdelete) ?_
  rw [lookup_dlqStorage_step hu.named hretry hdelete hpull,
    lookup_dlqStorage_step hu.named' hretry hdelete hpull, hu.dlq_eq]

/-- An expiration pass, over whatever topic, done in the full run only. -/
theorem expirePass (hu : Unswept cfg t h store store') {op : StoreOp}
    (hop : op.isExpirePass = true) :
    Unswept cfg t (h ++ [messageStore.event store op]) (messageStore.step store op).1 store' := by
  obtain ⟨topic, nowMs, rfl⟩ : ∃ topic nowMs, op = .onTopic topic (.expirePass nowMs) := by
    cases op with
    | onTopic topic op =>
      cases op with
      | expirePass nowMs => exact ⟨topic, nowMs, rfl⟩
      | _ => cases hop
    | _ => cases hop
  have hdlq : (messageStore.step store (.onTopic topic (.expirePass nowMs))).1.dlqStorage.lookup
      (makeDlqName t) = store'.dlqStorage.lookup (makeDlqName t) := by
    rw [lookup_dlqStorage_step hu.named (by simp) (by simp) (by simp), hu.dlq_eq]
  rcases eq_or_ne topic t with rfl | hne
  · rcases hu.topic with ⟨hnone, hnone'⟩ | ⟨ops, hsub, hrun, hrun'⟩
    · -- no topic: the pass does nothing
      have hstep : (messageStore.step store (.onTopic topic (.expirePass nowMs))).1 = store :=
        step_onTopic_missing hnone (by simp)
      rw [hstep]
      exact hu.of_lookup hu.config_eq hu.config_eq' hu.named hu.named' rfl rfl hu.dlq_eq
    · have htopics := (step_onTopic hrun (.expirePass nowMs)).1
      rw [hu.config_eq] at htopics
      exact
        { config_eq := (config_step _ _).trans hu.config_eq
          config_eq' := hu.config_eq'
          named := hu.named.step _
          named' := hu.named'
          dlq_eq := hdlq
          topic := .inr ⟨ops ++ [.expirePass nowMs], by
            rw [topicOps_concat]
            exact hsub.append (by simp [StoreOp.onTopic?]), by
            rw [htopics, AList.lookup_insert, StepMachine.run_concat], by
            rw [List.filter_append, hrun']
            simp [TopicOp.isExpirePass]⟩ }
  · refine hu.of_lookup ((config_step _ _).trans hu.config_eq) hu.config_eq' (hu.named.step _)
      hu.named' ?_ rfl hdlq
    exact lookup_step_of_onTopic?_eq_none (by simp [StoreOp.onTopic?, hne]) (by simp) (by simp)

/-- An operation on the topic where it is missing in both runs. -/
private theorem onTopic_missing (hu : Unswept cfg t h store store') {op : TopicOp}
    (hnone : store.topics.lookup t = none) (hnone' : store'.topics.lookup t = none) :
    Unswept cfg t (h ++ [messageStore.event store (.onTopic t op)])
        (messageStore.step store (.onTopic t op)).1 (messageStore.step store' (.onTopic t op)).1 ∧
      StoreEvent.visible t (messageStore.event store (.onTopic t op)) =
        StoreEvent.visible t (messageStore.event store' (.onTopic t op)) := by
  have hconfig := (config_step store (.onTopic t op)).trans hu.config_eq
  have hconfig' := (config_step store' (.onTopic t op)).trans hu.config_eq'
  by_cases hpub : ∃ payload ttlMs expiryNowMs nowMs, op = .publish payload ttlMs expiryNowMs nowMs
  · -- the first publish makes the topic, the same in both stores
    obtain ⟨payload, ttlMs, expiryNowMs, nowMs, rfl⟩ := hpub
    obtain ⟨htopics, hout⟩ := step_publish_new hnone payload ttlMs expiryNowMs nowMs
    obtain ⟨htopics', hout'⟩ := step_publish_new hnone' payload ttlMs expiryNowMs nowMs
    have hnew : store.newTopic t = TopicData.ofName t cfg.defaultBufferSize := by
      rw [newTopic, hu.config_eq]
    have hnew' : store'.newTopic t = TopicData.ofName t cfg.defaultBufferSize := by
      rw [newTopic, hu.config_eq']
    rw [hu.config_eq, hnew] at htopics hout
    rw [hu.config_eq', hnew'] at htopics' hout'
    refine ⟨{ config_eq := hconfig, config_eq' := hconfig', named := hu.named.step _,
              named' := hu.named'.step _, dlq_eq := hu.dlq_eq, topic := .inr ?_ }, ?_⟩
    · refine ⟨[.publish payload ttlMs expiryNowMs nowMs], ?_, ?_, ?_⟩
      · rw [topicOps_concat_onTopic]
        exact List.sublist_append_right _ _
      · rw [htopics, AList.lookup_insert]
        rfl
      · rw [htopics', AList.lookup_insert]
        rfl
    · simp only [StoreEvent.visible, StepMachine.event_input, StepMachine.event_output, hout, hout']
  · -- no topic: nothing happens
    have hmissing : ∀ p t e n, op ≠ .publish p t e n := fun p t e n heq => hpub ⟨p, t, e, n, heq⟩
    rw [step_onTopic_missing hnone hmissing, step_onTopic_missing hnone' hmissing]
    refine ⟨hu.of_lookup hu.config_eq hu.config_eq' hu.named hu.named' rfl rfl hu.dlq_eq, ?_⟩
    cases op with
    | publish payload ttlMs expiryNowMs nowMs => exact absurd rfl (hmissing _ _ _ _)
    | pull c maxMessages nowMs steadyNow =>
      simp only [StoreEvent.visible, StepMachine.event_input, StepMachine.event_output,
        messageStore, pull, hnone, hnone']
    | _ => rfl

/-- An operation on the topic, no expiration pass, where it comes from a run in both. -/
private theorem onTopic_run (hu : Unswept cfg t h store store')
    (hbuffer : cfg.defaultBufferSize ≤ kMaxPayloadSize) {op : TopicOp}
    (hop : op.isExpirePass = false) (hadm : Admissible (topicOps t h ++ [op]))
    {ops : List TopicOp} (hsub : ops.Sublist (topicOps t h))
    (hrun : store.topics.lookup t = some ((ProtoMsgQueue.topic cfg).run
      (TopicData.ofName t cfg.defaultBufferSize) ops))
    (hrun' : store'.topics.lookup t = some ((ProtoMsgQueue.topic cfg).run
      (TopicData.ofName t cfg.defaultBufferSize) (ops.filter fun op => !op.isExpirePass))) :
    Unswept cfg t (h ++ [messageStore.event store (.onTopic t op)])
        (messageStore.step store (.onTopic t op)).1 (messageStore.step store' (.onTopic t op)).1 ∧
      StoreEvent.visible t (messageStore.event store (.onTopic t op)) =
        StoreEvent.visible t (messageStore.event store' (.onTopic t op)) := by
  have hconfig := (config_step store (.onTopic t op)).trans hu.config_eq
  have hconfig' := (config_step store' (.onTopic t op)).trans hu.config_eq'
  -- the topic takes the step of its run, with or without the passes before it
  obtain ⟨htopics, hout⟩ := step_onTopic hrun op
  obtain ⟨htopics', hout'⟩ := step_onTopic hrun' op
  rw [hu.config_eq] at htopics hout
  rw [hu.config_eq'] at htopics' hout'
  have hadm' : Admissible (ops ++ [op]) := hadm.sublist (hsub.append (List.Sublist.refl _))
  have hvisible := TopicData.visible_run t hbuffer hadm' hop
  set td := (ProtoMsgQueue.topic cfg).run (TopicData.ofName t cfg.defaultBufferSize) ops with htd
  set td' := (ProtoMsgQueue.topic cfg).run (TopicData.ofName t cfg.defaultBufferSize)
    (ops.filter fun op => !op.isExpirePass) with htd'
  have hsame : op.isAck = false → ((ProtoMsgQueue.topic cfg).step td op).2 =
      ((ProtoMsgQueue.topic cfg).step td' op).2 := by
    intro hack
    cases op with
    | ack c msgId => cases hack
    | expirePass nowMs => cases hop
    | _ => exact Option.some_inj.mp hvisible
  refine ⟨{ config_eq := hconfig, config_eq' := hconfig', named := hu.named.step _,
            named' := hu.named'.step _, dlq_eq := ?_, topic := .inr ?_ }, ?_⟩
  · cases op with
    | retryPass clock order =>
      have hdlq : (td.processPendingRetries cfg clock order).2 =
          (td'.processPendingRetries cfg clock order).2 := TopicResult.retried.inj (hsame rfl)
      simp only [messageStore, processPendingRetries, hrun, hrun', hu.config_eq, hu.config_eq']
      rw [hu.named t _ hrun, hu.named' t _ hrun', hdlq]
      exact lookup_foldl_pushDlq_congr _ hu.dlq_eq
    | _ =>
      rw [lookup_dlqStorage_step hu.named (by simp) (by simp) (by simp),
        lookup_dlqStorage_step hu.named' (by simp) (by simp) (by simp), hu.dlq_eq]
  · refine ⟨ops ++ [op], ?_, ?_, ?_⟩
    · rw [topicOps_concat_onTopic]
      exact hsub.append (List.Sublist.refl _)
    · rw [htopics, AList.lookup_insert, StepMachine.run_concat]
    · have hfilter : (ops ++ [op]).filter (fun op => !op.isExpirePass) =
          (ops.filter fun op => !op.isExpirePass) ++ [op] := by
        rw [List.filter_append]
        simp [hop]
      rw [htopics', AList.lookup_insert, hfilter, StepMachine.run_concat]
  · cases op with
    | publish payload ttlMs expiryNowMs nowMs =>
      simp only [StoreEvent.visible, StepMachine.event_input, StepMachine.event_output, hout,
        hout', hsame rfl]
    | pull c maxMessages nowMs steadyNow =>
      simp only [StoreEvent.visible, StepMachine.event_input, StepMachine.event_output, hout,
        hout', hsame rfl]
    | _ => rfl

/-- An operation on the topic, no expiration pass, done in both runs. -/
private theorem onTopic (hu : Unswept cfg t h store store')
    (hbuffer : cfg.defaultBufferSize ≤ kMaxPayloadSize) {op : TopicOp}
    (hop : op.isExpirePass = false) (hadm : Admissible (topicOps t h ++ [op])) :
    Unswept cfg t (h ++ [messageStore.event store (.onTopic t op)])
        (messageStore.step store (.onTopic t op)).1 (messageStore.step store' (.onTopic t op)).1 ∧
      StoreEvent.visible t (messageStore.event store (.onTopic t op)) =
        StoreEvent.visible t (messageStore.event store' (.onTopic t op)) := by
  rcases hu.topic with ⟨hnone, hnone'⟩ | ⟨ops, hsub, hrun, hrun'⟩
  · exact hu.onTopic_missing hnone hnone'
  · exact hu.onTopic_run hbuffer hop hadm hsub hrun hrun'

/-- **One operation in both runs.** -/
theorem step (hu : Unswept cfg t h store store')
    (hbuffer : cfg.defaultBufferSize ≤ kMaxPayloadSize) {op : StoreOp}
    (hop : op.isExpirePass = false)
    (hadm : Admissible (topicOps t (h ++ [messageStore.event store op]))) :
    Unswept cfg t (h ++ [messageStore.event store op]) (messageStore.step store op).1
        (messageStore.step store' op).1 ∧
      StoreEvent.visible t (messageStore.event store op) =
        StoreEvent.visible t (messageStore.event store' op) := by
  cases op with
  | onTopic topic op =>
    rcases eq_or_ne topic t with rfl | hne
    · refine hu.onTopic hbuffer hop ?_
      rw [topicOps_concat] at hadm
      simpa [StoreOp.onTopic?] using hadm
    · refine ⟨hu.frame (by simp [StoreOp.onTopic?, hne]) (by simp) (by simp) (by simp), ?_⟩
      cases op <;> simp [StoreEvent.visible, hne]
  | createTopic topic =>
    refine ⟨?_, rfl⟩
    rcases eq_or_ne topic t with rfl | hne
    · rcases hu.topic with ⟨hnone, hnone'⟩ | ⟨ops, hsub, hrun, hrun'⟩
      · have hnot : topic ∉ store.topics := AList.lookup_eq_none.mp hnone
        have hnot' : topic ∉ store'.topics := AList.lookup_eq_none.mp hnone'
        refine { config_eq := (config_step _ _).trans hu.config_eq,
                 config_eq' := (config_step _ _).trans hu.config_eq', named := hu.named.step _,
                 named' := hu.named'.step _, dlq_eq := ?_,
                 topic := .inr ⟨[], List.nil_sublist _, ?_, ?_⟩ }
        · rw [lookup_dlqStorage_step hu.named (by simp) (by simp) (by simp),
            lookup_dlqStorage_step hu.named' (by simp) (by simp) (by simp), hu.dlq_eq]
        · simp only [messageStore, createTopic, if_neg hnot, AList.lookup_insert, newTopic,
            hu.config_eq]
          rfl
        · simp only [messageStore, createTopic, if_neg hnot', AList.lookup_insert, newTopic,
            hu.config_eq']
          rfl
      · rw [step_createTopic_of_lookup hrun, step_createTopic_of_lookup hrun']
        exact hu.of_lookup hu.config_eq hu.config_eq' hu.named hu.named' rfl rfl hu.dlq_eq
    · exact hu.frame rfl (by simp [hne]) (by simp) (by simp)
  | deleteTopic topic =>
    refine ⟨?_, rfl⟩
    rcases eq_or_ne topic t with rfl | hne
    · rcases hu.topic with ⟨hnone, hnone'⟩ | ⟨ops, hsub, hrun, hrun'⟩
      · have hnot : topic ∉ store.topics := AList.lookup_eq_none.mp hnone
        have hnot' : topic ∉ store'.topics := AList.lookup_eq_none.mp hnone'
        simp only [messageStore, deleteTopic, if_neg hnot, if_neg hnot']
        exact hu.of_lookup hu.config_eq hu.config_eq' hu.named hu.named' rfl rfl hu.dlq_eq
      · -- both runs drop the topic and its dead letters
        have hmem : topic ∈ store.topics := mem_iff_exists_lookup.mpr ⟨_, hrun⟩
        have hmem' : topic ∈ store'.topics := mem_iff_exists_lookup.mpr ⟨_, hrun'⟩
        refine { config_eq := (config_step _ _).trans hu.config_eq,
                 config_eq' := (config_step _ _).trans hu.config_eq', named := hu.named.step _,
                 named' := hu.named'.step _, dlq_eq := ?_, topic := .inl ⟨?_, ?_⟩ }
        · simp only [messageStore, deleteTopic, if_pos hmem, if_pos hmem', AList.lookup_erase]
        · simp only [messageStore, deleteTopic, if_pos hmem, AList.lookup_erase]
        · simp only [messageStore, deleteTopic, if_pos hmem', AList.lookup_erase]
    · exact hu.frame rfl (by simp) (by simp [hne]) (by simp)
  | pullDlq topic maxMessages =>
    rcases eq_or_ne topic t with rfl | hne
    · have hdlq := hu.dlq_eq
      simp only [StoreEvent.visible, StepMachine.event_input, StepMachine.event_output,
        messageStore, pullDlq, ← hdlq, if_true]
      split
      · exact ⟨hu.of_lookup hu.config_eq hu.config_eq' hu.named hu.named' rfl rfl hu.dlq_eq, rfl⟩
      · refine ⟨hu.of_lookup hu.config_eq hu.config_eq' hu.named hu.named' rfl rfl ?_, rfl⟩
        rw [AList.lookup_insert, AList.lookup_insert]
    · refine ⟨hu.frame rfl (by simp) (by simp) (by simp [hne]), ?_⟩
      simp [StoreEvent.visible, hne]

end Unswept

/-- After every run the store is, seen from an admissible topic, as without the expiration
passes, and the clients' operations returned the same. -/
private theorem unswept_run (cfg : StoreConfig)
    (hbuffer : cfg.defaultBufferSize ≤ kMaxPayloadSize) (t : TopicName) {ops : List StoreOp}
    (hadm : Admissible (ops.filterMap (StoreOp.onTopic? t))) :
    Unswept cfg t (messageStore.trace (ofConfig cfg) ops) (messageStore.run (ofConfig cfg) ops)
        (messageStore.run (ofConfig cfg) (ops.filter fun op => !op.isExpirePass)) ∧
      (messageStore.trace (ofConfig cfg) ops).filterMap (StoreEvent.visible t) =
        (messageStore.trace (ofConfig cfg)
          (ops.filter fun op => !op.isExpirePass)).filterMap (StoreEvent.visible t) := by
  have hC : messageStore.Along (fun h e => Admissible (topicOps t (h ++ [e]))) (ofConfig cfg)
      ops := by
    intro before e after hsplit
    refine hadm.sublist ?_
    have hinputs := congrArg (List.map StepMachine.Event.input) hsplit
    rw [StepMachine.trace_map_input] at hinputs
    rw [topicOps, hinputs]
    refine List.Sublist.filterMap _ (List.Sublist.map _ ?_)
    rw [List.append_cons before e after]
    exact List.sublist_append_left _ _
  refine StepMachine.filter_simulation messageStore (D := fun _ _ => True)
    (R := fun h s _ s' => Unswept cfg t h s s') (Unswept.init cfg t) ?_ ?_ hC
    fun _ _ _ _ => trivial
  · rintro h s h' s' op hu hadm - hkeep
    exact hu.step hbuffer (by simpa using hkeep) hadm
  · rintro h s h' s' op hu - hdrop
    refine ⟨hu.expirePass (by simpa using hdrop), ?_⟩
    cases op with
    | onTopic topic op =>
      cases op with
      | expirePass nowMs => rfl
      | _ => cases hdrop
    | _ => cases hdrop

/-- A pending entry of a consumer of the topic `t`. -/
def PendingIn (store : MemoryMessageStore) (t : TopicName) (c : Consumer) (msgId : MessageId)
    (p : PendingMessage) : Prop :=
  ∃ td, store.topics.lookup t = some td ∧ (td.pendingOf c.key).lookup msgId = some p

/-- An acknowledgement succeeds exactly if the message is pending. -/
theorem ack_iff (store : MemoryMessageStore) (t : TopicName) (c : Consumer) (msgId : MessageId) :
    (store.ack t c msgId).2 = true ↔ ∃ p, store.PendingIn t c msgId p := by
  rw [ack]
  rcases hlook : store.topics.lookup t with - | td
  · simp [PendingIn, hlook]
  · change (td.ack c msgId).2 = true ↔ _
    rw [TopicData.ack_result, decide_eq_true_iff, mem_iff_exists_lookup]
    simp [PendingIn, hlook]

/-- Stores of a run and of the run without expiration passes have the same live entries. -/
private theorem Unswept.pendingIn_iff {cfg : StoreConfig} {t : TopicName} {h : List StoreEvent}
    {store store' : MemoryMessageStore} (hu : Unswept cfg t h store store')
    (hbuffer : cfg.defaultBufferSize ≤ kMaxPayloadSize) (hadm : Admissible (topicOps t h))
    {nowMs : UInt64} (hnow : ∀ u ∈ (topicOps t h).filterMap TopicOp.clock?, u ≤ nowMs)
    {c : Consumer} {msgId : MessageId} {p : PendingMessage}
    (hlive : p.msg.isExpired nowMs = false) :
    store.PendingIn t c msgId p ↔ store'.PendingIn t c msgId p := by
  rcases hu.topic with ⟨hnone, hnone'⟩ | ⟨ops, hsub, hrun, hrun'⟩
  · simp [PendingIn, hnone, hnone']
  · have hn : TopicData.NotBefore ((ProtoMsgQueue.topic cfg).trace
        (TopicData.ofName t cfg.defaultBufferSize) ops) nowMs := by
      intro e he u hclock
      refine hnow u ((hsub.filterMap _).subset (List.mem_filterMap.mpr ⟨e.input, ?_, hclock⟩))
      rw [← (ProtoMsgQueue.topic cfg).trace_map_input (TopicData.ofName t cfg.defaultBufferSize) ops]
      exact List.mem_map_of_mem he
    have ha := (TopicData.unswept_run t hbuffer (hadm.sublist hsub)).1.alike nowMs hn
    have hiff := ha.pending_live c.key msgId p hlive
    simpa [PendingIn, hrun, hrun'] using hiff

/-- **Expiration is invisible.** Take two runs of the store that differ in their expiration
passes only, both admissible for a topic. Every publish, pull and dead-letter pull of the
topic returns the same in both. An acknowledgement after them can succeed in one and fail in
the other only for a message that has already expired. -/
theorem expiration_invisible (cfg : StoreConfig)
    (hbuffer : cfg.defaultBufferSize ≤ kMaxPayloadSize) (t : TopicName) (ops ops' : List StoreOp)
    (hsame : ops.filter (fun op => !op.isExpirePass) = ops'.filter fun op => !op.isExpirePass)
    (hadm : Admissible (ops.filterMap (StoreOp.onTopic? t)))
    (hadm' : Admissible (ops'.filterMap (StoreOp.onTopic? t))) :
    (messageStore.trace (ofConfig cfg) ops).filterMap (StoreEvent.visible t) =
        (messageStore.trace (ofConfig cfg) ops').filterMap (StoreEvent.visible t) ∧
      ∀ c msgId nowMs,
        (∀ u ∈ (ops.filterMap (StoreOp.onTopic? t)).filterMap TopicOp.clock?, u ≤ nowMs) →
        (∀ u ∈ (ops'.filterMap (StoreOp.onTopic? t)).filterMap TopicOp.clock?, u ≤ nowMs) →
        ((messageStore.run (ofConfig cfg) ops).ack t c msgId).2 = true →
        ((messageStore.run (ofConfig cfg) ops').ack t c msgId).2 = false →
        ∃ p, (messageStore.run (ofConfig cfg) ops).PendingIn t c msgId p ∧
          p.msg.isExpired nowMs = true := by
  obtain ⟨hu, hvisible⟩ := unswept_run cfg hbuffer t hadm
  obtain ⟨hu', hvisible'⟩ := unswept_run cfg hbuffer t hadm'
  rw [← hsame] at hu' hvisible'
  refine ⟨hvisible.trans hvisible'.symm, fun c msgId nowMs hnow hnow' hack hack' => ?_⟩
  obtain ⟨p, hp⟩ := (ack_iff _ t c msgId).mp hack
  refine ⟨p, hp, ?_⟩
  by_contra hlive
  have hlive : p.msg.isExpired nowMs = false := by simpa using hlive
  have hops : ∀ ops : List StoreOp, topicOps t (messageStore.trace (ofConfig cfg) ops) =
      ops.filterMap (StoreOp.onTopic? t) := by
    intro ops
    rw [topicOps, StepMachine.trace_map_input]
  -- a live entry is in the run without passes, and so in the other run
  have hthinned := (hu.pendingIn_iff hbuffer (by rwa [hops]) (by rwa [hops]) hlive).mp hp
  have hother := (hu'.pendingIn_iff hbuffer (by rwa [hops]) (by rwa [hops]) hlive).mpr hthinned
  rw [(ack_iff _ t c msgId).mpr ⟨p, hother⟩] at hack'
  cases hack'

/-- A message expires while it is pending; no pass, or a pass before the retry pass and one
after it, and another topic swept as well. -/
theorem expiration_invisible_two_passes :
    let publish : StoreOp := .onTopic "t" (.publish [7] 1 5 5)
    let pull : StoreOp := .onTopic "t" (.pull ⟨false, "a"⟩ 10 6 fun _ => 0)
    let retry : StoreOp := .onTopic "t" (.retryPass ⟨10 ^ 10, 8⟩ .sorted)
    let again : List StoreOp := [.onTopic "t" (.pull ⟨false, "a"⟩ 10 9 fun _ => 0), .pullDlq "t" 10]
    let sweep : TopicName → UInt64 → StoreOp := fun t nowMs => .onTopic t (.expirePass nowMs)
    (messageStore.trace (ofConfig { defaultBufferSize := 128 })
        ([publish, pull, retry] ++ again)).filterMap (StoreEvent.visible "t") =
      (messageStore.trace (ofConfig { defaultBufferSize := 128 })
        ([publish, pull, sweep "t" 7, sweep "u" 7, retry, sweep "t" 8] ++ again)).filterMap
          (StoreEvent.visible "t") := by
  intro publish pull retry again sweep
  have hadm : Admissible (([publish, pull, retry] ++ again).filterMap (StoreOp.onTopic? "t")) := by
    refine ⟨by decide, by decide, fun clock order hmem => ?_⟩
    simp [publish, pull, retry, again, StoreOp.onTopic?] at hmem
    rw [hmem.2]
    exact PassOrder.fixed_sorted
  have hadm' : Admissible (([publish, pull, sweep "t" 7, sweep "u" 7, retry, sweep "t" 8] ++
      again).filterMap (StoreOp.onTopic? "t")) := by
    refine ⟨by decide, by decide, fun clock order hmem => ?_⟩
    simp [publish, pull, retry, again, sweep, StoreOp.onTopic?] at hmem
    rw [hmem.2]
    exact PassOrder.fixed_sorted
  have hsame : ([publish, pull, retry] ++ again).filter (fun op => !op.isExpirePass) =
      ([publish, pull, sweep "t" 7, sweep "u" 7, retry, sweep "t" 8] ++ again).filter
        fun op => !op.isExpirePass := rfl
  exact (expiration_invisible { defaultBufferSize := 128 } (by decide) "t" _ _ hsame hadm hadm').1

end MemoryMessageStore

end ProtoMsgQueue
