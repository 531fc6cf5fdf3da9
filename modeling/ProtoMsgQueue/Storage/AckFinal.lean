import ProtoMsgQueue.Storage.Consistency
import ProtoMsgQueue.Storage.Deliveries

/-!
# When an acknowledgement is final

An acknowledgement clears the consumer's own pending entry and nothing else. The log never
hands the message out again, its identifier being below the consumer's offset; the shared
retry queue does, if the delivery of another consumer timed out. `not_redelivered` shows
that an acknowledgement is final in every run in which no other consumer's record of the
message is, or comes, into the queue.
-/

namespace ProtoMsgQueue

open UnorderedMap

namespace TopicData

/-- After an acknowledgement the message is not returned to the consumer. -/
def NotRedelivered (c : Consumer) (m : MessageId) (h : List TopicEvent) (e : TopicEvent) : Prop :=
  h.any (acked c m) = true → delivered c m e = false

/-- Other consumers' time-outs do not interfere with the acknowledgement: an
acknowledgement of the pending message finds no record of it in the retry queue, and no
later retry pass requeues another consumer's entry for it. -/
structure NoForeignRetry (cfg : StoreConfig) (c : Consumer) (m : MessageId)
    (h : List TopicEvent) (e : TopicEvent) : Prop where
  at_ack : e.input = .ack c m → m ∈ e.pre.pendingOf c.key → ∀ r ∈ e.pre.retryQueue, r.id ≠ m
  after_ack : h.any (acked c m) = true → ∀ clock order, e.input = .retryPass clock order →
    ∀ key, key ≠ c.key → ∀ p, (e.pre.pendingOf key).lookup m = some p →
      timedOut cfg clock.steadyNow p = true → Due.requeued cfg clock ⟨key, m, p⟩ = false

/-- Nothing is left of the message that could be returned to the consumer. -/
structure Done (c : Consumer) (m : MessageId) (td : TopicData) : Prop where
  lt_offset : m < td.offset c
  not_pending : m ∉ td.pendingOf c.key
  not_queued : ∀ r ∈ td.retryQueue, r.id ≠ m

variable {cfg : StoreConfig} {c : Consumer} {m : MessageId} {h : List TopicEvent}
  {td : TopicData} {drained waiting : List StoredMessage}

/-- A message that is done for a consumer is not returned to it. -/
theorem Done.not_delivered (hdone : Done c m td) (hc : Consistent h td drained waiting)
    (hb : Bounded h) (op : TopicOp) : delivered c m ((topic cfg).event td op) = false := by
  cases op with
  | pull d maxMessages nowMs steadyNow =>
    rcases eq_or_ne d c with rfl | hne
    · rw [delivered, deliveredBy_pull, List.any_eq_false]
      intro r hr hid
      rw [decide_eq_true_eq] at hid
      obtain ⟨fromLog, fromQueue, hfromLog, hfromQueue, hmsgs⟩ :=
        td.pull_delivers d maxMessages nowMs steadyNow
      have hlog := hc.pulledLog_spec d maxMessages nowMs steadyNow hb
      rw [hmsgs] at hr
      rcases List.mem_append.mp hr with hr | hr
      · -- what comes from the log is not below the offset
        have heq : fromLog = _ := hfromLog.result_eq.symm.trans hlog.result_eq
        rw [heq] at hr
        have hdue := (List.mem_filter.mp (List.mem_of_mem_take hr)).2
        rw [Bool.and_eq_true, decide_eq_true_eq, hid] at hdue
        exact absurd hdone.lt_offset (not_lt.mpr ((hc.startOffset_le d).1.trans hdue.1))
      · exact hdone.not_queued r (hfromQueue.mem_source r hr).1 hid
    · rw [delivered, deliveredBy_pull_ne td hne]
      rfl
  | _ => rfl

/-- A pull does not move an offset back. -/
private theorem offset_le_pull (hc : Consistent h td drained waiting) (hb : Bounded h)
    (d : Consumer) (maxMessages : UInt32) (nowMs : UInt64) (steadyNow : ℕ → ℤ) :
    td.offset c ≤ (td.pull d maxMessages nowMs steadyNow).1.offset c := by
  rcases eq_or_ne c d with rfl | hne
  · rw [pull_offset]
    exact (hc.startOffset_le c).1.trans (hc.pulledLog_spec c maxMessages nowMs steadyNow hb).offset_le
  · rw [pull_offset_ne _ _ _ _ _ hne]

/-- Without interference a message stays done. -/
theorem Done.step (hdone : Done c m td) (hc : Consistent h td drained waiting)
    (hk : td.Keyed) (hb : Bounded h) (op : TopicOp)
    (hpass : ∀ clock order, op = .retryPass clock order →
      ∀ key, key ≠ c.key → ∀ p, (td.pendingOf key).lookup m = some p →
        timedOut cfg clock.steadyNow p = true → Due.requeued cfg clock ⟨key, m, p⟩ = false) :
    Done c m ((topic cfg).step td op).1 := by
  cases op with
  | publish payload ttlMs expiryNowMs nowMs =>
    exact ⟨hdone.lt_offset, hdone.not_pending, hdone.not_queued⟩
  | pull d maxMessages nowMs steadyNow =>
    have hnot : delivered c m ((topic cfg).event td (.pull d maxMessages nowMs steadyNow)) = false :=
      hdone.not_delivered hc hb _
    refine ⟨?_, ?_, ?_⟩
    · exact lt_of_lt_of_le hdone.lt_offset (offset_le_pull hc hb d maxMessages nowMs steadyNow)
    · -- an entry filed by this pull would be a delivery
      intro hmem
      obtain ⟨p, hp⟩ := mem_iff_exists_lookup.mp hmem
      rcases td.pull_lookup d maxMessages nowMs steadyNow hp with hp | ⟨hkey, hid, hreturned, -⟩
      · exact hdone.not_pending (mem_iff_exists_lookup.mpr ⟨p, hp⟩)
      · obtain rfl := Consumer.key_injective hkey
        rw [delivered, deliveredBy_pull, List.any_eq_false] at hnot
        exact hnot p.msg hreturned (decide_eq_true hid)
    · exact fun r hr => hdone.not_queued r
        ((td.retryQueue_pull_sublist d maxMessages nowMs steadyNow).subset hr)
  | ack d msgId =>
    obtain ⟨pendingAcks, hframe⟩ := ack_frame td d msgId
    refine ⟨?_, ?_, ?_⟩
    · change m < (td.ack d msgId).1.offset c
      rw [hframe]
      exact hdone.lt_offset
    · exact fun hmem => hdone.not_pending (mem_pendingOf_of_ack hmem)
    · change ∀ r ∈ (td.ack d msgId).1.retryQueue, r.id ≠ m
      rw [hframe]
      exact hdone.not_queued
  | retryPass clock order =>
    refine ⟨hdone.lt_offset, fun hmem => ?_, fun r hr hid => ?_⟩
    · exact hdone.not_pending (mem_pendingOf_of_processPendingRetries cfg clock order hmem)
    · change r ∈ (td.processPendingRetries cfg clock order).1.retryQueue at hr
      rw [(processPendingRetries_spec cfg clock order td).2.1] at hr
      rcases mem_requeueAll hr with hr | ⟨⟨key, msgId, p⟩, hdue, rfl⟩
      · exact hdone.not_queued r hr hid
      · obtain ⟨hdue, hrequeued⟩ := List.mem_filter.mp hdue
        obtain rfl : msgId = m := (hk.due_id _ hdue).symm.trans hid
        obtain ⟨hlookup, htimed⟩ := mem_duePass.mp hdue
        -- the entry is not the consumer's own, and the others' are not requeued
        rcases eq_or_ne key c.key with rfl | hne
        · exact hdone.not_pending (mem_iff_exists_lookup.mpr ⟨p, hlookup⟩)
        · rw [hpass clock order rfl key hne p hlookup htimed] at hrequeued
          cases hrequeued
  | expirePass nowMs =>
    refine ⟨hdone.lt_offset, fun hmem => ?_, fun r hr => ?_⟩
    · exact hdone.not_pending (mem_pendingOf_of_expireTopicMessages hmem)
    · exact hdone.not_queued r (List.mem_filter.mp hr).1

/-- An acknowledgement that finds no retry record makes the message done. -/
theorem done_of_ack (hc : Consistent h td drained waiting) (hmem : m ∈ td.pendingOf c.key)
    (hqueue : ∀ r ∈ td.retryQueue, r.id ≠ m) : Done c m (td.ack c m).1 := by
  obtain ⟨pendingAcks, hframe⟩ := ack_frame td c m
  refine ⟨?_, ?_, ?_⟩
  · rw [hframe]
    exact hc.pending_lt c m hmem
  · rw [ack_pendingOf, AList.mem_erase]
    exact fun hmem => hmem.1 rfl
  · rw [hframe]
    exact hqueue

/-- What an acknowledgement leaves behind, along a run without interference. -/
private def AckInvariant (c : Consumer) (m : MessageId) (h : List TopicEvent)
    (td : TopicData) : Prop :=
  (∃ drained waiting, Consistent h td drained waiting) ∧ td.Keyed ∧ (Bounded h) ∧
    (h.any (acked c m) = true → Done c m td)

/-- **When an acknowledgement is final.** In every run within the bounds in which other
consumers' time-outs do not interfere, a message is not returned to a consumer that
acknowledged it. -/
theorem not_redelivered (cfg : StoreConfig) (topicName : TopicName) (c : Consumer)
    (m : MessageId) (ops : List TopicOp)
    (hb : Bounded ((topic cfg).trace (ofName topicName cfg.defaultBufferSize) ops))
    (halone : (topic cfg).Along (NoForeignRetry cfg c m)
      (ofName topicName cfg.defaultBufferSize) ops) :
    (topic cfg).Along (NotRedelivered c m) (ofName topicName cfg.defaultBufferSize) ops := by
  have hboth : (topic cfg).Along (fun h e => Bounded (h ++ [e]) ∧ NoForeignRetry cfg c m h e)
      (ofName topicName cfg.defaultBufferSize) ops :=
    fun before e after hsplit => ⟨hb.along before e after hsplit, halone before e after hsplit⟩
  refine StepMachine.Along.of_history _ (P := AckInvariant c m) ?_ ?_ ?_ hboth
  · exact ⟨⟨[], [], consistent_ofName _ _⟩, keyed_ofName _ _, ⟨by decide, by simp [accepted]⟩,
      fun hany => by cases hany⟩
  · rintro h td op ⟨⟨drained, waiting, hc⟩, hk, hbh, hdone⟩ ⟨hb, hclean⟩
    refine ⟨hc.step op hb, hk.step op, hb, fun hany => ?_⟩
    by_cases hbefore : h.any (acked c m) = true
    · exact (hdone hbefore).step hc hk hbh op fun clock order hop =>
        hclean.after_ack hbefore clock order (congrArg id hop)
    · rw [List.any_append, Bool.eq_false_iff.mpr hbefore, Bool.false_or, List.any_cons,
        List.any_nil, Bool.or_false] at hany
      obtain ⟨rfl, hmem⟩ := input_of_acked hany
      exact done_of_ack hc hmem (hclean.at_ack rfl hmem)
  · rintro h td op ⟨⟨drained, waiting, hc⟩, -, hbh, hdone⟩ - hany
    exact (hdone hany).not_delivered hc hbh op

/-- No record of the message waits at an acknowledgement, and a pass finds no other consumer's entry
for it. -/
def aloneWith (c : Consumer) (m : MessageId) (e : TopicEvent) : Bool :=
  match e.input with
  | .ack _ _ => e.pre.retryQueue.all fun r => r.id ≠ m
  | .retryPass _ _ => e.pre.pendingAcks.keys.all fun key =>
      key = c.key || ((e.pre.pendingOf key).lookup m).isNone
  | _ => true

/-- Then no other consumer's time-out interferes. -/
theorem noForeignRetry_of_aloneWith {e : TopicEvent} (halone : aloneWith c m e = true) :
    NoForeignRetry cfg c m h e where
  at_ack hin _ r hr := by
    rw [aloneWith, hin] at halone
    exact of_decide_eq_true (List.all_eq_true.mp halone r hr)
  after_ack _ clock order hin key hne p hp := by
    rw [aloneWith, hin] at halone
    have hmem : key ∈ e.pre.pendingAcks.keys := by
      by_contra hnot
      rw [pendingOf, valueAt, AList.lookup_eq_none.mpr hnot] at hp
      cases hp
    have hfound := List.all_eq_true.mp halone key hmem
    rw [hp] at hfound
    simp [hne] at hfound

/-- Two consumers are handed a message. The entry of the one that has not acknowledged it times out;
it gets the message again and acknowledges it, and the next pass finds nothing. -/
theorem not_redelivered_two_consumers :
    let c : Consumer := ⟨false, "a"⟩
    let d : Consumer := ⟨false, "b"⟩
    let ops : List TopicOp := [
      .publish [7] 0 5 5, .pull c 10 6 fun _ => 0, .pull d 10 6 fun _ => 0, .ack d 1,
      .retryPass ⟨10 ^ 10, 7⟩ .canonical, .pull c 10 8 fun _ => 10 ^ 10, .ack c 1,
      .retryPass ⟨10 ^ 11, 9⟩ .canonical, .expirePass 9, .pull c 10 9 fun _ => 10 ^ 11]
    (topic { defaultBufferSize := 64 }).Along (NotRedelivered c 1) (ofName "t" 64) ops ∧
      ((topic { defaultBufferSize := 64 }).trace (ofName "t" 64) ops).map (delivered c 1) =
        [false, true, false, false, false, true, false, false, false, false] := by
  intro c d ops
  refine ⟨not_redelivered { defaultBufferSize := 64 } "t" c 1 ops
    ⟨by decide, by decide +kernel⟩ fun before e after hsplit => ?_, by decide +kernel⟩
  have halone : ∀ e ∈ (topic { defaultBufferSize := 64 }).trace (ofName "t" 64) ops,
      aloneWith c 1 e = true := by decide +kernel
  exact noForeignRetry_of_aloneWith
    (halone e (hsplit ▸ List.mem_append_right _ List.mem_cons_self))

/-- Another consumer's time-out puts the message into the shared retry queue after the
acknowledgement, and the consumer is handed it again. -/
theorem redelivered_after_ack :
    let c : Consumer := ⟨false, "a"⟩
    let d : Consumer := ⟨false, "b"⟩
    let ops : List TopicOp := [
      .publish [7] 0 5 5, .pull c 10 6 fun _ => 0, .pull d 10 6 fun _ => 0, .ack c 1,
      .retryPass ⟨10 ^ 10, 7⟩ .canonical, .pull c 10 8 fun _ => 10 ^ 10]
    ¬ (topic { defaultBufferSize := 64 }).Along (NotRedelivered c 1) (ofName "t" 64) ops := by
  intro c d ops hfinal
  have hlast : NotRedelivered c 1
      ((topic { defaultBufferSize := 64 }).trace (ofName "t" 64) ops.dropLast)
      ((topic { defaultBufferSize := 64 }).event
        ((topic { defaultBufferSize := 64 }).run (ofName "t" 64) ops.dropLast)
        (.pull c 10 8 fun _ => 10 ^ 10)) :=
    hfinal _ _ [] rfl
  exact absurd (hlast (by decide +kernel)) (by decide +kernel)

end TopicData

end ProtoMsgQueue
