import ProtoMsgQueue.Storage.RetryLineage

/-!
# No premature dead letters

A message goes to the dead-letter queue after `max_retry_count + 1` deliveries timed out one
after the other. Several consumers can send the same message there; the deliveries behind
different dead letters are different ones, and none of them was acknowledged.
-/

namespace ProtoMsgQueue

open UnorderedMap

namespace TopicData

variable {cfg : StoreConfig} {m : MessageId} {h : List TopicEvent} {td : TopicData}

/-- The deliveries behind a dead letter of the `j`-th operation: one for each retry count, in
order, all of them timed out and none acknowledged. -/
structure DeadLine (cfg : StoreConfig) (m : MessageId) (h : List TopicEvent) (j : ℕ)
    (attempts : List ℕ) : Prop where
  length_eq : attempts.length = cfg.maxRetryCount.toNat + 1
  sorted : attempts.Pairwise (· < ·)
  timedOut : ∀ k i, attempts[k]? = some i → ∃ d p, d.msg.retryCount = k ∧ p ≤ j ∧
    TimedOutAt cfg m h i d p ∧ ¬ AckedAt m h i d

/-! ### What timed out was not acknowledged -/

/-- A message that becomes pending is delivered. -/
private theorem delivered_of_pending {c : Consumer} {op : TopicOp} (hnot : m ∉ td.pendingOf c.key)
    (hmem : m ∈ ((topic cfg).step td op).1.pendingOf c.key) :
    delivered c m ((topic cfg).event td op) = true := by
  cases op with
  | publish payload ttlMs expiryNowMs nowMs => exact absurd hmem hnot
  | pull d maxMessages nowMs steadyNow =>
    change m ∈ (td.pull d maxMessages nowMs steadyNow).1.pendingOf c.key at hmem
    obtain ⟨p, hp⟩ := mem_iff_exists_lookup.mp hmem
    rcases td.pull_lookup d maxMessages nowMs steadyNow hp with hp | ⟨hkey, hid, hin, -⟩
    · exact absurd (mem_iff_exists_lookup.mpr ⟨p, hp⟩) hnot
    · obtain rfl := Consumer.key_injective hkey
      rw [delivered, deliveredBy_pull]
      exact List.any_eq_true.mpr ⟨p.msg, hin, decide_eq_true hid⟩
  | ack d msgId => exact absurd (mem_pendingOf_of_ack hmem) hnot
  | retryPass clock order =>
    exact absurd (mem_pendingOf_of_processPendingRetries cfg clock order hmem) hnot
  | expirePass nowMs => exact absurd (mem_pendingOf_of_expireTopicMessages hmem) hnot

/-- A delivery that timed out was not acknowledged, and the message is pending for its
consumer only after another delivery. -/
private def TimedOutFinal (cfg : StoreConfig) (m : MessageId) (h : List TopicEvent)
    (td : TopicData) : Prop :=
  ∀ i d p, TimedOutAt cfg m h i d p → ¬ AckedAt m h i d ∧
    (m ∈ td.pendingOf d.consumer.key →
      ∃ b e, p < b ∧ h[b]? = some e ∧ delivered d.consumer m e = true)

private theorem TimedOutFinal.step (hf : TimedOutFinal cfg m h td) (op : TopicOp) :
    TimedOutFinal cfg m (h ++ [(topic cfg).event td op]) ((topic cfg).step td op).1 := by
  set e := (topic cfg).event td op with he
  intro i d p ht
  rcases lt_or_eq_of_le (Nat.le_of_lt_succ (by simpa using ht.lt_length)) with hp | rfl
  · -- the delivery had timed out before this operation
    have ht := ht.of_concat hp
    obtain ⟨hacked, hpending⟩ := hf i d p ht
    constructor
    · rintro ⟨a, ea, hia, ha, hack, hno⟩
      rcases getElem?_concat.mp ha with ha | ⟨rfl, rfl⟩
      · exact hacked ⟨a, ea, hia, ha, hack, fun b eb hib hba hb =>
          hno b eb hib hba (getElem?_concat.mpr (.inl hb))⟩
      · -- an acknowledgement that succeeds now finds a later delivery
        obtain ⟨b, eb, hpb, hb, hdel⟩ := hpending (input_of_acked hack).2
        have hlt := (List.getElem?_eq_some_iff.mp hb).1
        rw [hno b eb (ht.lt.trans hpb) hlt (getElem?_concat.mpr (.inl hb))] at hdel
        cases hdel
    · intro hmem
      by_cases hold : m ∈ td.pendingOf d.consumer.key
      · obtain ⟨b, eb, hpb, hb, hdel⟩ := hpending hold
        exact ⟨b, eb, hpb, getElem?_concat.mpr (.inl hb), hdel⟩
      · exact ⟨h.length, e, hp, getElem?_concat.mpr (.inr ⟨rfl, rfl⟩),
          delivered_of_pending hold hmem⟩
  · -- the delivery times out now
    obtain ⟨e', clock, order, he', hin, hlookup, htimed⟩ := ht.pass
    have hop : op = .retryPass clock order ∧ td = e'.pre := by
      rcases getElem?_concat.mp he' with he' | ⟨-, rfl⟩
      · exact absurd (List.getElem?_eq_some_iff.mp he').1 (lt_irrefl _)
      · exact ⟨hin, rfl⟩
    obtain ⟨rfl, rfl⟩ := hop
    constructor
    · rintro ⟨a, ea, hia, ha, hack, -⟩
      rcases getElem?_concat.mp ha with hold | ⟨-, rfl⟩
      · have hlt := (List.getElem?_eq_some_iff.mp hold).1
        rw [(ht.unsettled a ea hia hlt ha).1] at hack
        cases hack
      · cases hack
    · intro hmem
      obtain ⟨q, hq⟩ := mem_iff_exists_lookup.mp hmem
      obtain ⟨hold, hnot⟩ := (processPendingRetries_lookup cfg clock order _ _ m q).mp hq
      rw [hlookup, Option.some_inj] at hold
      rw [← hold, htimed] at hnot
      cases hnot

/-- In every run, what timed out was not acknowledged. -/
theorem not_acked_of_timedOutAt (topicName : TopicName) (bufferSize : ℕ) (ops : List TopicOp)
    {i : ℕ} {d : Delivery} {p : ℕ}
    (ht : TimedOutAt cfg m ((topic cfg).trace (ofName topicName bufferSize) ops) i d p) :
    ¬ AckedAt m ((topic cfg).trace (ofName topicName bufferSize) ops) i d := by
  refine ((topic cfg).history_induction (P := TimedOutFinal cfg m) ?_
    (fun h td op hf => hf.step op) ops i d p ht).1
  rintro i d p ht
  obtain ⟨e, clock, order, he, -⟩ := ht.pass
  cases he

/-! ### Whole runs -/

/-- **No premature dead letters.** In every run of a topic, every dead letter of a message
has the largest retry count, and there are pairwise disjoint lists of deliveries of the
message behind its dead letters: each has one delivery for every retry count from zero up,
in this order, each left unacknowledged for the time-out and timed out by a retry pass. -/
theorem deadLetters_not_premature (cfg : StoreConfig) (topicName : TopicName) (m : MessageId)
    (ops : List TopicOp) :
    let h := (topic cfg).trace (ofName topicName cfg.defaultBufferSize) ops
    (∀ j n r, DeadLetterAt m h j n r → r.retryCount = cfg.maxRetryCount.toNat) ∧
    ∃ attempts : ℕ → ℕ → List ℕ,
      (∀ j n r, DeadLetterAt m h j n r → DeadLine cfg m h j (attempts j n)) ∧
      ∀ j n r j' n' r', DeadLetterAt m h j n r → DeadLetterAt m h j' n' r' → (j, n) ≠ (j', n') →
        (attempts j n).Disjoint (attempts j' n') := by
  intro h
  obtain ⟨pred, last, ht⟩ := traced_run cfg m topicName cfg.defaultBufferSize ops
  have hlineage : Lineage {i | ∃ d, deliveryAt m h i = some d} (retryCountAt m h) pred := ht.lineage
  have hdead : ∀ j n r, DeadLetterAt m h j n r →
      r.retryCount = cfg.maxRetryCount.toNat ∧ ∃ d, TimedOutAt cfg m h (last (.dead j n)) d j ∧
        retryCountAt m h (last (.dead j n)) = cfg.maxRetryCount.toNat := by
    intro j n r hr
    obtain ⟨d, htimed, rfl, hcount⟩ := ht.dead j n r hr
    exact ⟨hcount, d, htimed, (retryCountAt_eq htimed.delivery).trans hcount⟩
  refine ⟨fun j n r hr => (hdead j n r hr).1,
    fun j n => Lineage.chain pred cfg.maxRetryCount.toNat (last (.dead j n)), ?_, ?_⟩
  · intro j n r hr
    obtain ⟨-, d, htimed, hcount⟩ := hdead j n r hr
    have hmem : last (.dead j n) ∈ {i | ∃ d, deliveryAt m h i = some d} := ⟨d, htimed.delivery⟩
    -- time-outs along the line, each before the next delivery
    have hall : ∀ i ∈ Lineage.chain pred cfg.maxRetryCount.toNat (last (.dead j n)),
        ∃ d p, p ≤ j ∧ TimedOutAt cfg m h i d p := by
      refine hlineage.forall_mem_chain ?_ hmem hcount ⟨d, j, le_rfl, htimed⟩
      rintro i ⟨d, hd⟩ hpos ⟨d', p, hp, htimed⟩
      rw [retryCountAt_eq hd] at hpos
      obtain ⟨d'', q, hq, htimed', -⟩ := ht.retried i d hd hpos
      exact ⟨d'', q, (hq.trans htimed.lt).le.trans hp, htimed'⟩
    refine ⟨Lineage.length_chain _ _ _, ?_, fun k i hi => ?_⟩
    · refine (hlineage.pairwise_chain (fun a b c (hab : a < b) hbc => hab.trans hbc) ?_
        hmem hcount).1
      rintro i ⟨d, hd⟩ hpos
      rw [retryCountAt_eq hd] at hpos
      obtain ⟨d', q, hq, htimed, -⟩ := ht.retried i d hd hpos
      exact htimed.lt.trans hq
    · obtain ⟨d', p, hp, htimed'⟩ := hall i (List.mem_of_getElem? hi)
      have hk := (hlineage.chain_getElem? hmem hcount hi).2
      rw [retryCountAt_eq htimed'.delivery] at hk
      exact ⟨d', p, hk, hp, htimed', not_acked_of_timedOutAt topicName _ ops htimed'⟩
  · intro j n r j' n' r' hr hr' hne
    obtain ⟨-, d, htimed, hcount⟩ := hdead j n r hr
    obtain ⟨-, d', htimed', hcount'⟩ := hdead j' n' r' hr'
    refine hlineage.disjoint_chain ⟨d, htimed.delivery⟩ ⟨d', htimed'.delivery⟩ hcount hcount' ?_
    intro heq
    have hslot := ht.last_inj (.dead j n) (.dead j' n') ⟨r, hr⟩ ⟨r', hr'⟩ heq
    obtain ⟨rfl, rfl⟩ := Slot.dead.inj hslot
    exact hne rfl

end TopicData

end ProtoMsgQueue
