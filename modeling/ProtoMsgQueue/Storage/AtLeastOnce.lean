import ProtoMsgQueue.Storage.Consistency
import ProtoMsgQueue.Storage.Deliveries

/-!
# When a delivery is lost

The retry queue is one queue for all consumers of a topic, although `Pull` calls its
messages per-consumer: the timed-out delivery of one consumer can be pulled, and then
acknowledged, by another. `kept_iff` says that this is the only way a delivery is lost: it
stays pending, queued or settled throughout a run exactly when no pull of another consumer
takes the record of a message the consumer still waits for.
-/

namespace ProtoMsgQueue

open UnorderedMap

namespace TopicData

section Definitions

variable (cfg : StoreConfig) (c : Consumer) (m : MessageId)

/-- The consumer acknowledged the message, or its own entry sent it to the dead-letter
queue. -/
def settled (e : TopicEvent) : Bool := acked c m e || deadLettered cfg c m e

/-- A message once returned to the consumer is settled, pending for it or queued. -/
def Kept (h : List TopicEvent) (td : TopicData) : Prop :=
  h.any (delivered c m) = true →
    h.any (settled cfg c m) = true ∨ m ∈ td.pendingOf c.key ∨ ∃ r ∈ td.retryQueue, r.id = m

/-- Whether a delivery is kept can be evaluated. -/
instance (h : List TopicEvent) (td : TopicData) : Decidable (Kept cfg c m h td) :=
  inferInstanceAs (Decidable (_ → _))

/-- No log record of the message carries an expiry. -/
def WithoutTtl (e : TopicEvent) : Prop :=
  ∀ r ∈ ((topic cfg).step e.pre e.input).1.messageLog, r.id = m → r.expiresAt = 0

/-- The operation is a pull by another consumer whose loop over the retry queue takes the
record of a message that was returned to the consumer, is not settled and not pending for
it. -/
def Steals (h : List TopicEvent) (e : TopicEvent) : Prop :=
  ∃ d maxMessages nowMs steadyNow, e.input = .pull d maxMessages nowMs steadyNow ∧ d ≠ c ∧
    h.any (delivered c m) = true ∧ h.any (settled cfg c m) = false ∧
    m ∉ e.pre.pendingOf c.key ∧ e.pre.takesRetry d maxMessages nowMs steadyNow m = true

end Definitions

variable {cfg : StoreConfig} {c : Consumer} {m : MessageId}

/-- No retry record and no pending entry of the message carries an expiry. -/
structure Untimed (m : MessageId) (td : TopicData) : Prop where
  queue : ∀ r ∈ td.retryQueue, r.id = m → r.expiresAt = 0
  pending : ∀ key p, (td.pendingOf key).lookup m = some p → p.msg.expiresAt = 0

/-- If the log has no expiry for the message, nothing else gets one. -/
theorem Untimed.step {td : TopicData} (hu : Untimed m td) (hk : td.Keyed) (op : TopicOp)
    (hlog : ∀ r ∈ ((topic cfg).step td op).1.messageLog, r.id = m → r.expiresAt = 0) :
    Untimed m ((topic cfg).step td op).1 := by
  cases op with
  | publish payload ttlMs expiryNowMs nowMs => exact ⟨hu.queue, hu.pending⟩
  | pull d maxMessages nowMs steadyNow =>
    refine ⟨fun r hr => hu.queue r
      ((td.retryQueue_pull_sublist d maxMessages nowMs steadyNow).subset hr), fun key p hp => ?_⟩
    change ((td.pull d maxMessages nowMs steadyNow).1.pendingOf key).lookup m = some p at hp
    rcases td.pull_lookup d maxMessages nowMs steadyNow hp with hp | ⟨-, hid, -, hin | hin⟩
    · exact hu.pending key p hp
    · -- the pull leaves the drained log as it is
      refine hlog p.msg ?_ hid
      change p.msg ∈ (td.pull d maxMessages nowMs steadyNow).1.messageLog
      rw [pull_messageLog]
      exact hin
    · exact hu.queue p.msg hin hid
  | ack d msgId =>
    obtain ⟨pendingAcks, hframe⟩ := ack_frame td d msgId
    refine ⟨fun r hr => hu.queue r ?_, fun key p hp => ?_⟩
    · change r ∈ (td.ack d msgId).1.retryQueue at hr
      rwa [hframe] at hr
    · exact hu.pending key p ((ack_lookup td d msgId key m p).mp hp).1
  | retryPass clock order =>
    refine ⟨fun r hr hid => ?_, fun key p hp => ?_⟩
    · change r ∈ (td.processPendingRetries cfg clock order).1.retryQueue at hr
      rw [(processPendingRetries_spec cfg clock order td).2.1] at hr
      rcases mem_requeueAll hr with hr | ⟨due, hdue, rfl⟩
      · exact hu.queue r hr hid
      · -- a requeued record is a pending message with one more retry
        have hdue := (List.mem_filter.mp hdue).1
        have hlookup := (mem_duePass.mp hdue).1
        rw [← hk.due_id due hdue, ← StoredMessage.retried_id, hid] at hlookup
        exact hu.pending due.key due.pending hlookup
    · exact hu.pending key p ((processPendingRetries_lookup cfg clock order td key m p).mp hp).1
  | expirePass nowMs =>
    refine ⟨fun r hr => hu.queue r (List.mem_filter.mp hr).1, fun key p hp => ?_⟩
    exact hu.pending key p ((expireTopicMessages_lookup td nowMs key m p).mp hp).1

/-! ### One operation -/

section Step

variable {h : List TopicEvent} {td : TopicData}

/-- An operation that settles nothing more and delivers nothing keeps the delivery if the
message stays pending or queued. -/
private theorem Kept.concat (hkept : Kept cfg c m h td) {e : TopicEvent} {td' : TopicData}
    (hdel : delivered c m e = false)
    (hpending : m ∈ td.pendingOf c.key → settled cfg c m e = true ∨ m ∈ td'.pendingOf c.key ∨
      ∃ r ∈ td'.retryQueue, r.id = m)
    (hqueue : (∃ r ∈ td.retryQueue, r.id = m) → m ∈ td'.pendingOf c.key ∨
      ∃ r ∈ td'.retryQueue, r.id = m) :
    Kept cfg c m (h ++ [e]) td' := by
  intro hany
  rw [List.any_append, List.any_cons, List.any_nil, hdel, Bool.or_false, Bool.or_false] at hany
  rw [List.any_append, List.any_cons, List.any_nil, Bool.or_false, Bool.or_eq_true]
  rcases hkept hany with hsettled | hmem | hmem
  · exact .inl (.inl hsettled)
  · rcases hpending hmem with hnow | hmem
    · exact .inl (.inr hnow)
    · exact .inr hmem
  · exact .inr (hqueue hmem)

/-- The consumer's own pull keeps its deliveries. -/
private theorem Kept.pull (hkept : Kept cfg c m h td) (hu : Untimed m td) (maxMessages : UInt32)
    (nowMs : UInt64) (steadyNow : ℕ → ℤ) :
    Kept cfg c m (h ++ [(topic cfg).event td (.pull c maxMessages nowMs steadyNow)])
      ((topic cfg).step td (.pull c maxMessages nowMs steadyNow)).1 := by
  set e := (topic cfg).event td (.pull c maxMessages nowMs steadyNow) with he
  cases hdel : delivered c m e with
  | false =>
    -- an earlier delivery: the entry stays, and a live record stays or becomes pending
    refine hkept.concat hdel (fun hmem => .inr (.inl ?_)) ?_
    · exact td.mem_pendingOf_pull c maxMessages nowMs steadyNow hmem
    · rintro ⟨r, hr, rfl⟩
      rcases td.retryQueue_pull c maxMessages nowMs steadyNow hr with hr | hexp | hmem
      · exact .inr ⟨r, hr, rfl⟩
      · rw [StoredMessage.isExpired_of_expiresAt_eq_zero (hu.queue r hr rfl)] at hexp
        cases hexp
      · exact .inl hmem
  | true =>
    obtain ⟨r, hr, hid⟩ := List.any_eq_true.mp hdel
    rw [decide_eq_true_eq] at hid
    subst hid
    rw [he, deliveredBy_pull] at hr
    exact fun _ => .inr (.inl (td.mem_pendingOf_of_pulled c maxMessages nowMs steadyNow hr))

/-- Another consumer's pull keeps a delivery exactly when it does not take its record. -/
private theorem kept_pull_ne_iff (hkept : Kept cfg c m h td) (hk : td.Keyed) (hu : Untimed m td)
    {d : Consumer} (hne : d ≠ c) (maxMessages : UInt32) (nowMs : UInt64)
    (steadyNow : ℕ → ℤ) :
    Kept cfg c m (h ++ [(topic cfg).event td (.pull d maxMessages nowMs steadyNow)])
        ((topic cfg).step td (.pull d maxMessages nowMs steadyNow)).1 ↔
      ¬ Steals cfg c m h ((topic cfg).event td (.pull d maxMessages nowMs steadyNow)) := by
  set e := (topic cfg).event td (.pull d maxMessages nowMs steadyNow) with he
  have hkey : c.key ≠ d.key := fun heq => hne (Consumer.key_injective heq).symm
  have hpending := td.pull_pendingOf_ne d maxMessages nowMs steadyNow hkey
  have hdel : delivered c m e = false := by
    rw [delivered, he, deliveredBy_pull_ne td hne]
    rfl
  have hquiet : settled cfg c m e = false := rfl
  have htake := hk.retryQueue_takesRetry d maxMessages nowMs steadyNow m
  constructor
  -- a stolen record was all that was left of the delivery
  · rintro hkept' ⟨d', max', now', steady', hin, -, hany, hunsettled, hnot, htakes⟩
    obtain ⟨rfl, rfl, rfl, rfl⟩ := TopicOp.pull.inj hin
    rw [if_pos (show td.takesRetry d maxMessages nowMs steadyNow m = true from htakes)] at htake
    have hnow := hkept' (by rw [List.any_append, hany, Bool.true_or])
    rw [List.any_append, List.any_cons, List.any_nil, hquiet, hunsettled] at hnow
    rcases hnow with hfalse | hmem | ⟨r, hr, hid⟩
    · cases hfalse
    · exact hnot (hpending ▸ hmem)
    · exact htake r hr hid
  -- of the three ways to be kept only the retry record can be lost to another consumer
  · intro hno hany
    rw [List.any_append, List.any_cons, List.any_nil, hdel, Bool.or_false, Bool.or_false] at hany
    rw [List.any_append, List.any_cons, List.any_nil, hquiet, Bool.or_false, Bool.or_false]
    by_cases hsettled : h.any (settled cfg c m) = true
    · exact .inl hsettled
    by_cases hmem : m ∈ td.pendingOf c.key
    · exact .inr (.inl (hpending.symm ▸ hmem))
    obtain ⟨r, hr, hid⟩ : ∃ r ∈ td.retryQueue, r.id = m := by
      rcases hkept hany with hyes | hyes | hyes
      · exact absurd hyes hsettled
      · exact absurd hyes hmem
      · exact hyes
    have hnotake : ¬ td.takesRetry d maxMessages nowMs steadyNow m = true := fun htakes =>
      hno ⟨d, maxMessages, nowMs, steadyNow, rfl, hne, hany, Bool.eq_false_iff.mpr hsettled, hmem,
        htakes⟩
    rw [if_neg hnotake] at htake
    have hlive := StoredMessage.isExpired_of_expiresAt_eq_zero (hu.queue r hr hid) nowMs
    exact .inr (.inr ⟨r, htake r hr hid hlive, hid⟩)

/-- An acknowledgement keeps deliveries: it settles what it removes. -/
private theorem Kept.ack (hkept : Kept cfg c m h td) (d : Consumer) (msgId : MessageId) :
    Kept cfg c m (h ++ [(topic cfg).event td (.ack d msgId)])
      ((topic cfg).step td (.ack d msgId)).1 := by
  obtain ⟨pendingAcks, hframe⟩ := ack_frame td d msgId
  refine hkept.concat rfl (fun hmem => ?_) (fun ⟨r, hr, hid⟩ => .inr ⟨r, ?_, hid⟩)
  · by_cases hthis : d = c ∧ msgId = m
    · obtain ⟨rfl, rfl⟩ := hthis
      have hres : (td.ack d msgId).2 = true := by rw [ack_result, decide_eq_true_eq]; exact hmem
      have hout : ((topic cfg).event td (.ack d msgId)).output = .acked true :=
        congrArg TopicResult.acked hres
      refine .inl ?_
      rw [settled, acked, hout]
      simp
    · refine .inr (.inl ?_)
      change m ∈ (td.ack d msgId).1.pendingOf c.key
      rcases eq_or_ne d c with rfl | hne
      · rw [ack_pendingOf, AList.mem_erase]
        exact ⟨fun heq => hthis ⟨rfl, heq.symm⟩, hmem⟩
      · rwa [ack_pendingOf_ne td d msgId fun heq => hne (Consumer.key_injective heq).symm]
  · change r ∈ (td.ack d msgId).1.retryQueue
    rwa [hframe]

/-- A retry pass keeps deliveries: an entry that times out is queued or settled, and a
record is only replaced by another one of the same message. -/
private theorem Kept.retryPass (hkept : Kept cfg c m h td) (hk : td.Keyed) (hu : Untimed m td)
    (clock : PassClock) (order : PassOrder) :
    Kept cfg c m (h ++ [(topic cfg).event td (.retryPass clock order)])
      ((topic cfg).step td (.retryPass clock order)).1 := by
  obtain ⟨-, hqueue, hdlq⟩ :=
    processPendingRetries_spec cfg clock order td
  have hids : ∀ due ∈ (duePass cfg clock order td).filter (Due.requeued cfg clock),
      due.pending.msg.id = due.msgId := fun due hdue => hk.due_id due (List.mem_filter.mp hdue).1
  refine hkept.concat rfl (fun hmem => ?_) (fun hmem => .inr ?_)
  · obtain ⟨p, hp⟩ := mem_iff_exists_lookup.mp hmem
    have hlive := StoredMessage.isExpired_of_expiresAt_eq_zero (hu.pending c.key p hp) clock.nowMs
    cases htimed : timedOut cfg clock.steadyNow p with
    | false =>
      have hstay := (processPendingRetries_lookup cfg clock order td c.key m p).mpr ⟨hp, htimed⟩
      exact .inr (.inl (mem_iff_exists_lookup.mpr ⟨p, hstay⟩))
    | true =>
      have hdue : ⟨c.key, m, p⟩ ∈ duePass cfg clock order td := mem_duePass.mpr ⟨hp, htimed⟩
      by_cases hmax : cfg.maxRetryCount.toNat ≤ p.msg.retryCount
      · -- exhausted: the message goes to the dead-letter queue
        have hdead : Due.dead cfg clock ⟨c.key, m, p⟩ = true := by simp [Due.dead, hlive, hmax]
        have hin : p.msg ∈ (td.processPendingRetries cfg clock order).2 := by
          rw [hdlq]
          exact List.mem_map.mpr ⟨_, List.mem_filter.mpr ⟨hdue, hdead⟩, rfl⟩
        have hout : ((topic cfg).event td (.retryPass clock order)).output =
            .retried (td.processPendingRetries cfg clock order).2 := rfl
        refine .inl ?_
        rw [settled, deadLettered, hout]
        simp [hp, htimed, hdead, hin]
      · -- retriable: the message is queued
        refine .inr (.inr ?_)
        change ∃ r ∈ (td.processPendingRetries cfg clock order).1.retryQueue, r.id = m
        rw [hqueue]
        refine exists_mem_requeueAll hids (.inr ⟨⟨c.key, m, p⟩, ?_, rfl⟩)
        refine List.mem_filter.mpr ⟨hdue, ?_⟩
        simp [Due.requeued, hlive, not_le.mp hmax]
  · change ∃ r ∈ (td.processPendingRetries cfg clock order).1.retryQueue, r.id = m
    rw [hqueue]
    exact exists_mem_requeueAll hids (.inl hmem)

/-- An expiration pass keeps deliveries without expiry. -/
private theorem Kept.expirePass (hkept : Kept cfg c m h td) (hu : Untimed m td)
    (nowMs : UInt64) :
    Kept cfg c m (h ++ [(topic cfg).event td (.expirePass nowMs)])
      ((topic cfg).step td (.expirePass nowMs)).1 := by
  refine hkept.concat rfl (fun hmem => .inr (.inl ?_)) (fun ⟨r, hr, hid⟩ => .inr ⟨r, ?_, hid⟩)
  · obtain ⟨p, hp⟩ := mem_iff_exists_lookup.mp hmem
    have hlive := StoredMessage.isExpired_of_expiresAt_eq_zero (hu.pending c.key p hp) nowMs
    have hstay := (expireTopicMessages_lookup td nowMs c.key m p).mpr ⟨hp, hlive⟩
    exact mem_iff_exists_lookup.mpr ⟨p, hstay⟩
  · have hlive := StoredMessage.isExpired_of_expiresAt_eq_zero (hu.queue r hr hid) nowMs
    exact List.mem_filter.mpr ⟨hr, by simp [hlive]⟩

/-- An operation keeps a delivery exactly when it does not steal it. -/
theorem kept_step_iff (hkept : Kept cfg c m h td) (hk : td.Keyed) (hu : Untimed m td)
    (op : TopicOp) :
    Kept cfg c m (h ++ [(topic cfg).event td op]) ((topic cfg).step td op).1 ↔
      ¬ Steals cfg c m h ((topic cfg).event td op) := by
  have honly : (∀ d maxMessages nowMs steadyNow, op ≠ .pull d maxMessages nowMs steadyNow) →
      ¬ Steals cfg c m h ((topic cfg).event td op) := by
    rintro hop ⟨d, maxMessages, nowMs, steadyNow, hin, -⟩
    exact hop d maxMessages nowMs steadyNow hin
  cases op with
  | pull d maxMessages nowMs steadyNow =>
    rcases eq_or_ne d c with rfl | hne
    · refine iff_of_true (hkept.pull hu maxMessages nowMs steadyNow) ?_
      rintro ⟨d', max', now', steady', hin, hne, -⟩
      exact hne (TopicOp.pull.inj hin).1.symm
    · exact kept_pull_ne_iff hkept hk hu hne maxMessages nowMs steadyNow
  | publish payload ttlMs expiryNowMs nowMs =>
    exact iff_of_true (hkept.concat rfl (fun hmem => .inr (.inl hmem)) .inr) (honly nofun)
  | ack d msgId => exact iff_of_true (hkept.ack d msgId) (honly nofun)
  | retryPass clock order => exact iff_of_true (hkept.retryPass hk hu clock order) (honly nofun)
  | expirePass nowMs => exact iff_of_true (hkept.expirePass hu nowMs) (honly nofun)

end Step

/-! ### Whole runs -/

/-- **When deliveries are kept.** Throughout a run in which the message has no expiry, a
delivery to the consumer stays settled, pending or queued exactly when no step of the run
is a pull of another consumer that takes the record the consumer waits for. -/
theorem kept_iff (cfg : StoreConfig) (topicName : TopicName) (c : Consumer) (m : MessageId)
    (ops : List TopicOp)
    (httl : (topic cfg).Along (fun _ e => WithoutTtl cfg m e)
      (ofName topicName cfg.defaultBufferSize) ops) :
    (topic cfg).Always (Kept cfg c m) (ofName topicName cfg.defaultBufferSize) ops ↔
      (topic cfg).Along (fun h e => ¬ Steals cfg c m h e)
        (ofName topicName cfg.defaultBufferSize) ops := by
  refine (topic cfg).always_iff_along (J := fun _ td => td.Keyed ∧ Untimed m td) ?_ ?_ ?_ ?_ httl
  · exact ⟨keyed_ofName _ _, by simp [ofName], fun _ _ hp => nomatch hp⟩
  · exact fun hany => by cases hany
  · exact fun h td op hJ httl => ⟨hJ.1.step op, hJ.2.step hJ.1 op httl⟩
  · exact fun h td op hJ _ hkept => kept_step_iff hkept hJ.1 hJ.2 op

/-- Two consumers are handed a message, both deliveries time out, and the retry record goes
to the one that pulls first. -/
theorem kept_iff_two_consumers :
    let cfg : StoreConfig := { defaultBufferSize := 64 }
    let c : Consumer := ⟨false, "a"⟩
    let d : Consumer := ⟨false, "b"⟩
    let ops : List TopicOp := [
      .publish [7] 0 5 5, .pull c 10 6 fun _ => 0, .pull d 10 6 fun _ => 0,
      .retryPass ⟨10 ^ 10, 7⟩ .canonical, .pull c 10 8 fun _ => 10 ^ 10, .ack c 1,
      .pull d 10 9 fun _ => 10 ^ 10]
    (topic cfg).Along (fun _ e => WithoutTtl cfg 1 e) (ofName "t" 64) ops ∧
      ((topic cfg).Always (Kept cfg c 1) (ofName "t" 64) ops ↔
        (topic cfg).Along (fun h e => ¬ Steals cfg c 1 h e) (ofName "t" 64) ops) := by
  have httl : ∀ e ∈ (topic { defaultBufferSize := 64 }).trace (ofName "t" 64) [
      .publish [7] 0 5 5, .pull ⟨false, "a"⟩ 10 6 fun _ => 0, .pull ⟨false, "b"⟩ 10 6 fun _ => 0,
      .retryPass ⟨10 ^ 10, 7⟩ .canonical, .pull ⟨false, "a"⟩ 10 8 fun _ => 10 ^ 10,
      .ack ⟨false, "a"⟩ 1, .pull ⟨false, "b"⟩ 10 9 fun _ => 10 ^ 10],
      WithoutTtl { defaultBufferSize := 64 } 1 e := by
    unfold WithoutTtl
    decide +kernel
  exact ⟨StepMachine.along_of_forall_mem _ httl,
    kept_iff _ _ _ _ _ (StepMachine.along_of_forall_mem _ httl)⟩

/-- The retry record of a message goes to the other consumer, which acknowledges it: the
first delivery is lost to the consumer that never acknowledged it. -/
theorem not_kept_of_shared_retryQueue :
    let cfg : StoreConfig := { defaultBufferSize := 64 }
    let c : Consumer := ⟨false, "a"⟩
    let d : Consumer := ⟨false, "b"⟩
    let ops : List TopicOp := [
      .publish [7] 0 5 5, .pull c 10 6 fun _ => 0, .pull d 10 6 fun _ => 0,
      .retryPass ⟨10 ^ 10, 7⟩ .canonical, .pull d 10 8 fun _ => 10 ^ 10, .ack d 1]
    (topic cfg).Along (fun _ e => WithoutTtl cfg 1 e) (ofName "t" 64) ops ∧
      ¬ (topic cfg).Always (Kept cfg c 1) (ofName "t" 64) ops := by
  refine ⟨StepMachine.along_of_forall_mem _ ?_, fun hkept => absurd hkept.run ?_⟩
  · unfold WithoutTtl
    decide +kernel
  · decide +kernel

end TopicData

end ProtoMsgQueue
