import ProtoMsgQueue.Storage.FirstDelivery
import ProtoMsgQueue.Storage.RetryLineage

/-!
# Bounded redelivery

A message that is never acknowledged is handed out again and again, to whichever consumer
takes its retry record. Every line of its deliveries has at most `max_retry_count + 1` of
them and starts with a delivery from the log, and every consumer gets one such delivery at
most. So the consumers that pull bound the number of deliveries, over all of them.
-/

namespace ProtoMsgQueue

open UnorderedMap

/-- What a pull returned. -/
def pulledMessages (e : TopicEvent) : List StoredMessage :=
  match e.output with
  | .pulled msgs => msgs
  | _ => []

/-- How often pulls returned the message, over all consumers. -/
def deliveryCount (m : MessageId) (h : List TopicEvent) : ℕ :=
  (h.map fun e => (pulledMessages e).countP fun r => r.id = m).sum

/-- The key of the consumer that pulls. -/
def TopicOp.pullKey? : TopicOp → Option String
  | .pull c _ _ _ => some c.key
  | _ => none

/-- The consumer keys that pull. -/
def pullers (ops : List TopicOp) : Finset String := (ops.filterMap TopicOp.pullKey?).toFinset

namespace TopicData

/-- No counter exceeds the limit, and requeueing increases counters without wrapping. -/
structure CountersBounded (cfg : StoreConfig) (td : TopicData) : Prop where
  log : ∀ r ∈ td.messageLog, r.retryCount ≤ cfg.maxRetryCount.toNat
  queue : ∀ r ∈ td.retryQueue, r.retryCount ≤ cfg.maxRetryCount.toNat
  pending : ∀ key id p, (td.pendingOf key).lookup id = some p →
    p.msg.retryCount ≤ cfg.maxRetryCount.toNat
  requeued : ∀ clock order, ∀ d ∈ duePass cfg clock order td, Due.requeued cfg clock d = true →
    d.pending.msg.retried.retryCount = d.pending.msg.retryCount + 1

variable {cfg : StoreConfig} {m : MessageId} {h : List TopicEvent} {td : TopicData}

/-- The lines of all messages bound the counters. -/
theorem countersBounded_of_traced
    (ht : ∀ m, ∃ pred last, Traced cfg m h td pred last) : CountersBounded cfg td where
  log r hr := by
    obtain ⟨pred, last, ht⟩ := ht r.id
    exact (ht.log_zero r hr).le.trans (Nat.zero_le _)
  queue r hr := by
    obtain ⟨pred, last, ht⟩ := ht r.id
    exact (ht.queued r hr rfl).1
  pending key id p hp := by
    obtain ⟨pred, last, ht⟩ := ht id
    obtain ⟨c, -, hd, -⟩ := ht.pending key p hp
    exact ht.count_le _ _ hd
  requeued clock order d _ hreq := by
    simp only [Due.requeued, Bool.and_eq_true, decide_eq_true_eq] at hreq
    have hmax := cfg.maxRetryCount.toNat_lt
    exact Nat.mod_eq_of_lt (by omega)

/-! ### Counting deliveries -/

/-- An operation returns a message at most once. -/
theorem countP_pulledMessages_le (cfg : StoreConfig) (td : TopicData) (op : TopicOp)
    (m : MessageId) :
    ((pulledMessages ((topic cfg).event td op)).countP fun r => r.id = m) ≤
      if (deliveryOf m ((topic cfg).event td op)).isSome then 1 else 0 := by
  cases op with
  | pull c maxMessages nowMs steadyNow =>
    have hdef : pulledMessages ((topic cfg).event td (.pull c maxMessages nowMs steadyNow)) =
        (td.pull c maxMessages nowMs steadyNow).2 := rfl
    obtain ⟨hnodup, -⟩ := td.pull_ledger c maxMessages nowMs steadyNow
    rw [hdef]
    split
    · -- identifiers are returned once
      have hcount : (td.pull c maxMessages nowMs steadyNow).2.countP (fun r => r.id = m) =
          ((td.pull c maxMessages nowMs steadyNow).2.map StoredMessage.id).count m := by
        rw [List.count, List.countP_map]
        refine List.countP_congr fun r _ => ?_
        simp
      rw [hcount]
      exact List.nodup_iff_count_le_one.mp hnodup m
    · rename_i hnone
      have hnone : deliveryOf m ((topic cfg).event td (.pull c maxMessages nowMs steadyNow)) =
          none := by simpa using hnone
      have hdel := delivered_of_deliveryOf_eq_none hnone c
      rw [delivered, deliveredBy_pull, List.any_eq_false] at hdel
      exact (List.countP_eq_zero.mpr fun r hr => hdel r hr).le
  | _ => exact Nat.zero_le _

/-- The operations that delivered the message. -/
def deliveryIndices (m : MessageId) (h : List TopicEvent) : Finset ℕ :=
  (Finset.range h.length).filter fun i => (deliveryAt m h i).isSome

theorem mem_deliveryIndices {i : ℕ} :
    i ∈ deliveryIndices m h ↔ ∃ d, deliveryAt m h i = some d := by
  rw [deliveryIndices, Finset.mem_filter, Finset.mem_range, Option.isSome_iff_exists,
    and_iff_right_of_imp]
  rintro ⟨d, hd⟩
  exact lt_length_of_deliveryAt hd

theorem card_deliveryIndices_concat (m : MessageId) (h : List TopicEvent) (e : TopicEvent) :
    (deliveryIndices m (h ++ [e])).card =
      (deliveryIndices m h).card + if (deliveryOf m e).isSome then 1 else 0 := by
  have hnot : h.length ∉ deliveryIndices m h := by
    rw [mem_deliveryIndices]
    rintro ⟨d, hd⟩
    exact absurd (lt_length_of_deliveryAt hd) (lt_irrefl _)
  split
  · rename_i hsome
    obtain ⟨d, hd⟩ := Option.isSome_iff_exists.mp hsome
    rw [← Finset.card_insert_of_notMem hnot]
    congr 1
    ext i
    simp only [Finset.mem_insert, mem_deliveryIndices, deliveryAt_concat, hd]
    constructor
    · rintro ⟨d', hd' | ⟨hi, -⟩⟩
      · exact .inr ⟨d', hd'⟩
      · exact .inl hi
    · rintro (hi | ⟨d', hd'⟩)
      · exact ⟨d, .inr ⟨hi, rfl⟩⟩
      · exact ⟨d', .inl hd'⟩
  · rename_i hnone
    rw [Option.not_isSome_iff_eq_none] at hnone
    rw [Nat.add_zero]
    congr 1
    ext i
    simp [mem_deliveryIndices, deliveryAt_concat, hnone]

/-- No message is returned more often than there are operations that deliver it. -/
theorem deliveryCount_le_card (topicName : TopicName) (bufferSize : ℕ) (ops : List TopicOp)
    (m : MessageId) :
    deliveryCount m ((topic cfg).trace (ofName topicName bufferSize) ops) ≤
      (deliveryIndices m ((topic cfg).trace (ofName topicName bufferSize) ops)).card := by
  refine (topic cfg).history_induction
    (P := fun h _ => deliveryCount m h ≤ (deliveryIndices m h).card) (Nat.zero_le _) ?_ ops
  intro h td op hle
  rw [card_deliveryIndices_concat, deliveryCount, List.map_append, List.sum_append]
  have hone := countP_pulledMessages_le cfg td op m
  have hsum : (([(topic cfg).event td op] : List TopicEvent).map fun e =>
      (pulledMessages e).countP fun r => r.id = m).sum =
      (pulledMessages ((topic cfg).event td op)).countP fun r => r.id = m := by simp
  rw [hsum]
  exact Nat.add_le_add hle hone

/-! ### First deliveries -/

/-- A delivery with retry count zero is a first delivery to its consumer. -/
private theorem mem_deliveredBy {e : TopicEvent} {d : Delivery} (hd : deliveryOf m e = some d) :
    d.msg ∈ deliveredBy d.consumer e := by
  rw [deliveryOf] at hd
  split at hd
  · rename_i c maxMessages nowMs steadyNow msgs hin hout
    obtain ⟨r, hr, rfl⟩ := Option.map_eq_some_iff.mp hd
    simp only [deliveredBy, hin, hout, if_true]
    exact List.fst_mem_of_mem_zipIdx (List.mem_of_find?_eq_some hr)
  · cases hd

/-- Two operations do not both deliver a message to a consumer with retry count zero. -/
private theorem not_delivered_twice {c : Consumer}
    (hfirst : ((firstDeliveries c h).map StoredMessage.id).Nodup) {i j : ℕ} {d d' : Delivery}
    (hlt : i < j) (hd : deliveryAt m h i = some d) (hd' : deliveryAt m h j = some d')
    (hc : d.consumer = c) (hc' : d'.consumer = c) (hzero : d.msg.retryCount = 0)
    (hzero' : d'.msg.retryCount = 0) : False := by
  -- the first deliveries of two operations have no identifier in common
  rw [firstDeliveries, List.filter_flatMap, List.map_flatMap, List.nodup_flatMap] at hfirst
  have hmem : ∀ {k : ℕ} {d : Delivery} (hd : deliveryAt m h k = some d), d.consumer = c →
      d.msg.retryCount = 0 → m ∈ ((deliveredBy c (h.get ⟨k, lt_length_of_deliveryAt hd⟩)).filter
        fun r => r.retryCount = 0).map StoredMessage.id := by
    rintro k d hd rfl hzero
    obtain ⟨e, he, hdel⟩ := Option.bind_eq_some_iff.mp hd
    obtain ⟨hk, rfl⟩ := List.getElem?_eq_some_iff.mp he
    refine List.mem_map.mpr ⟨d.msg, ?_, (delivered_of_deliveryOf hdel).2⟩
    exact List.mem_filter.mpr ⟨mem_deliveredBy hdel, decide_eq_true hzero⟩
  exact List.pairwise_iff_get.mp hfirst.2 _ _ (Fin.mk_lt_mk.mpr hlt) (hmem hd hc hzero)
    (hmem hd' hc' hzero')

/-- There are no more deliveries with retry count zero than consumers that pull. -/
theorem card_first_le {topicName : TopicName} {bufferSize : ℕ} {ops : List TopicOp}
    (hfirst : ∀ c, ((firstDeliveries c ((topic cfg).trace (ofName topicName bufferSize) ops)).map
      StoredMessage.id).Nodup) (m : MessageId) :
    ((deliveryIndices m ((topic cfg).trace (ofName topicName bufferSize) ops)).filter fun i =>
      retryCountAt m ((topic cfg).trace (ofName topicName bufferSize) ops) i = 0).card ≤
      (pullers ops).card := by
  set h := (topic cfg).trace (ofName topicName bufferSize) ops with hh
  set keyAt : ℕ → String := fun i => (deliveryAt m h i).elim "" fun d => d.consumer.key with hkeyAt
  have hspec : ∀ {i}, i ∈ (deliveryIndices m h).filter (fun i => retryCountAt m h i = 0) →
      ∃ d, deliveryAt m h i = some d ∧ d.msg.retryCount = 0 ∧ keyAt i = d.consumer.key := by
    intro i hi
    obtain ⟨hmem, hzero⟩ := Finset.mem_filter.mp hi
    obtain ⟨d, hd⟩ := mem_deliveryIndices.mp hmem
    rw [retryCountAt_eq hd] at hzero
    exact ⟨d, hd, hzero, by simp only [hkeyAt, hd, Option.elim_some]⟩
  refine Finset.card_le_card_of_injOn keyAt ?_ ?_
  · intro i hi
    obtain ⟨d, hd, -, hkey⟩ := hspec hi
    obtain ⟨e, he, hdel⟩ := Option.bind_eq_some_iff.mp hd
    have hinput : e.input ∈ ops := by
      rw [← (topic cfg).trace_map_input (ofName topicName bufferSize) ops]
      exact List.mem_map_of_mem (List.mem_of_getElem? he)
    rw [hkey]
    refine List.mem_toFinset.mpr (List.mem_filterMap.mpr ⟨e.input, hinput, ?_⟩)
    rw [deliveryOf] at hdel
    split at hdel
    · rename_i hin _
      obtain ⟨r, -, rfl⟩ := Option.map_eq_some_iff.mp hdel
      rw [hin]
      rfl
    · cases hdel
  · intro i hi j hj heq
    obtain ⟨d, hd, hzero, hkey⟩ := hspec hi
    obtain ⟨d', hd', hzero', hkey'⟩ := hspec hj
    have hc : d.consumer = d'.consumer :=
      Consumer.key_injective (hkey.symm.trans (heq.trans hkey'))
    rcases lt_trichotomy i j with hlt | rfl | hlt
    · exact (not_delivered_twice (hfirst _) hlt hd hd' hc rfl hzero hzero').elim
    · rfl
    · exact (not_delivered_twice (hfirst _) hlt hd' hd rfl hc hzero' hzero).elim

/-! ### Whole runs -/

/-- **Bounded redelivery.** Over every run within the bounds, pulls return a message at most
`max_retry_count + 1` times for each consumer key that pulls, over all consumers, and no
retry counter exceeds the limit or wraps. -/
theorem redelivery_bounded (cfg : StoreConfig) (topicName : TopicName)
    (hbuffer : cfg.defaultBufferSize ≤ kMaxPayloadSize) (ops : List TopicOp)
    (hpublishes : publishes ops < 2 ^ 64 - 2) :
      let h := (topic cfg).trace (ofName topicName cfg.defaultBufferSize) ops
    (∀ m, deliveryCount m h ≤ (pullers ops).card * (cfg.maxRetryCount.toNat + 1)) ∧
      CountersBounded cfg ((topic cfg).run (ofName topicName cfg.defaultBufferSize) ops) := by
  intro h
  constructor
  · intro m
    obtain ⟨pred, last, ht⟩ := traced_run cfg m topicName cfg.defaultBufferSize ops
    have hlineage : Lineage (deliveryIndices m h : Set ℕ) (retryCountAt m h) pred := by
      have hset : (deliveryIndices m h : Set ℕ) = {i | ∃ d, deliveryAt m h i = some d} :=
        Set.ext fun i => mem_deliveryIndices
      rw [hset]
      exact ht.lineage
    have hcount : ∀ i ∈ deliveryIndices m h, retryCountAt m h i ≤ cfg.maxRetryCount.toNat := by
      intro i hi
      obtain ⟨d, hd⟩ := mem_deliveryIndices.mp hi
      rw [retryCountAt_eq hd]
      exact ht.count_le i d hd
    have hfirst : ((deliveryIndices m h).filter fun i => retryCountAt m h i = 0).card ≤
        (pullers ops).card :=
      card_first_le (nodup_firstDeliveries cfg topicName hbuffer ops hpublishes) m
    calc deliveryCount m h ≤ (deliveryIndices m h).card :=
          deliveryCount_le_card topicName cfg.defaultBufferSize ops m
      _ ≤ (cfg.maxRetryCount.toNat + 1) *
          ((deliveryIndices m h).filter fun i => retryCountAt m h i = 0).card :=
          hlineage.card_le hcount
      _ ≤ (cfg.maxRetryCount.toNat + 1) * (pullers ops).card := Nat.mul_le_mul_left _ hfirst
      _ = (pullers ops).card * (cfg.maxRetryCount.toNat + 1) := Nat.mul_comm _ _
  · exact countersBounded_of_traced fun m => traced_run cfg m topicName cfg.defaultBufferSize ops

/-- One message that times out again and again at two consumers, over three passes. -/
theorem redelivery_bounded_two_consumers :
    let cfg : StoreConfig := { defaultBufferSize := 64, maxRetryCount := 1 }
    let a : Consumer := ⟨false, "a"⟩
    let b : Consumer := ⟨true, "b"⟩
    let ops : List TopicOp := [
      .publish [7] 0 5 5, .pull a 10 6 fun _ => 0, .pull b 10 6 fun _ => 0,
      .retryPass ⟨10 ^ 10, 7⟩ .canonical, .pull b 10 8 fun _ => 10 ^ 10, .pull a 10 8 fun _ => 0,
      .retryPass ⟨3 * 10 ^ 10, 9⟩ .canonical, .pull a 10 10 fun _ => 0]
    deliveryCount 1 ((topic cfg).trace (ofName "t" 64) ops) ≤ (pullers ops).card * (1 + 1) :=
  (redelivery_bounded { defaultBufferSize := 64, maxRetryCount := 1 } "t" (by decide) _
    (by decide)).1 1

end TopicData

end ProtoMsgQueue
