import ProtoMsgQueue.Storage.Deliveries

/-!
# The order of a retry pass

A retry pass visits the consumers, and the entries of each, in the order of hash maps. Pending
entries and the dead-letter queue do not depend on it. The retry queue has one record for each
message, that of the last entry visited, so it does: exactly when two consumers have timed-out
entries of one message with different retry counts.
-/

namespace ProtoMsgQueue

open UnorderedMap

namespace TopicData

/-- Two results of a retry pass are the same: pending maps, retry counts in the queue, and what
goes to the dead-letter queue. -/
structure SamePass (out out' : TopicData × List StoredMessage) : Prop where
  mem_pendingAcks : ∀ key, key ∈ out.1.pendingAcks ↔ key ∈ out'.1.pendingAcks
  lookup_pending : ∀ key id,
    (out.1.pendingOf key).lookup id = (out'.1.pendingOf key).lookup id
  retryQueue : ∀ id n, (∃ m ∈ out.1.retryQueue, m.id = id ∧ m.retryCount = n) ↔
    ∃ m ∈ out'.1.retryQueue, m.id = id ∧ m.retryCount = n
  dlq : out.2.Perm out'.2

variable (cfg : StoreConfig) (clock : PassClock)

/-- A pass at this time puts this entry of a consumer back into the retry queue. -/
def Requeues (td : TopicData) (d : Due) : Prop :=
  (td.pendingOf d.key).lookup d.msgId = some d.pending ∧
    timedOut cfg clock.steadyNow d.pending = true ∧ d.requeued cfg clock = true

/-- Entries of one message that the pass requeues have one retry count. -/
def RetriesAgree (td : TopicData) : Prop :=
  ∀ d d', td.Requeues cfg clock d → td.Requeues cfg clock d' → d.msgId = d'.msgId →
    d.pending.msg.retryCount = d'.pending.msg.retryCount

variable {cfg clock} {td : TopicData} {order order' : PassOrder}

theorem mem_filter_requeued {d : Due} :
    d ∈ (duePass cfg clock order td).filter (Due.requeued cfg clock) ↔ td.Requeues cfg clock d := by
  rw [List.mem_filter, mem_duePass, and_assoc, Requeues]

/-- Two passes handle the same entries. -/
theorem duePass_perm : (duePass cfg clock order td).Perm (duePass cfg clock order' td) :=
  (List.perm_ext_iff_of_nodup (nodup_duePass td) (nodup_duePass td)).mpr fun _ =>
    mem_duePass.trans mem_duePass.symm

/-- Nothing but the retry queue depends on the order. -/
theorem samePass_of_retryQueue
    (h : ∀ id n, (∃ m ∈ (td.processPendingRetries cfg clock order).1.retryQueue,
        m.id = id ∧ m.retryCount = n) ↔
      ∃ m ∈ (td.processPendingRetries cfg clock order').1.retryQueue,
        m.id = id ∧ m.retryCount = n) :
    SamePass (td.processPendingRetries cfg clock order)
      (td.processPendingRetries cfg clock order') := by
  have hlookup : ∀ key id, ((td.processPendingRetries cfg clock order).1.pendingOf key).lookup id =
      ((td.processPendingRetries cfg clock order').1.pendingOf key).lookup id := by
    intro key id
    refine Option.ext fun p => ?_
    rw [processPendingRetries_lookup, processPendingRetries_lookup]
  refine ⟨fun key => ?_, hlookup, h, ?_⟩
  · rw [mem_pendingAcks_processPendingRetries, mem_pendingAcks_processPendingRetries]
    rw [ne_eq, ne_eq, List.eq_nil_iff_forall_not_mem, List.eq_nil_iff_forall_not_mem]
    refine not_congr (forall_congr' fun id => not_congr ?_)
    rw [← AList.mem_keys, ← AList.mem_keys, ← AList.lookup_isSome, ← AList.lookup_isSome, hlookup]
  · rw [(processPendingRetries_spec cfg clock order td).2.2,
      (processPendingRetries_spec cfg clock order' td).2.2]
    exact (duePass_perm.filter _).map _

/-- A record of the queue after a pass: of an entry the pass requeued, or an old one. -/
theorem Keyed.mem_retryQueue (hk : td.Keyed) {r : StoredMessage}
    (hr : r ∈ (td.processPendingRetries cfg clock order).1.retryQueue) :
    (∃ d, td.Requeues cfg clock d ∧ r = d.pending.msg.retried) ∨
      r ∈ td.retryQueue ∧ ∀ d, td.Requeues cfg clock d → d.msgId ≠ r.id := by
  rw [(processPendingRetries_spec cfg clock order td).2.1, mem_requeueAll_iff
    fun d hd => hk.due_id d (List.mem_of_mem_filter hd)] at hr
  rcases hr with ⟨before, d, after, heq, -, rfl⟩ | ⟨hr, hnone⟩
  · refine Or.inl ⟨d, (@mem_filter_requeued cfg clock td order d).mp ?_, rfl⟩
    rw [heq]
    exact List.mem_append_right _ List.mem_cons_self
  · exact Or.inr ⟨hr, fun d hd => hnone d (mem_filter_requeued.mpr hd)⟩

/-- The pass leaves a record of every entry it requeues. -/
theorem Keyed.exists_mem_retryQueue (hk : td.Keyed) (order : PassOrder) {d : Due}
    (hd : td.Requeues cfg clock d) :
    ∃ m ∈ (td.processPendingRetries cfg clock order).1.retryQueue, m.id = d.msgId := by
  rw [(processPendingRetries_spec cfg clock order td).2.1]
  exact exists_mem_requeueAll (fun d hd => hk.due_id d (List.mem_of_mem_filter hd))
    (Or.inr ⟨d, mem_filter_requeued.mpr hd, rfl⟩)

theorem Requeues.id_eq (hk : td.Keyed) {d : Due} (hd : td.Requeues cfg clock d) :
    d.pending.msg.id = d.msgId :=
  hk.pending_id _ _ _ hd.1

/-- Entries with one retry count leave one record, whatever the order. -/
theorem samePass_of_retriesAgree (hk : td.Keyed) (hagree : td.RetriesAgree cfg clock)
    (order order' : PassOrder) : SamePass (td.processPendingRetries cfg clock order)
      (td.processPendingRetries cfg clock order') := by
  have hsub : ∀ o o' : PassOrder, ∀ m ∈ (td.processPendingRetries cfg clock o).1.retryQueue,
      ∃ m' ∈ (td.processPendingRetries cfg clock o').1.retryQueue,
        m'.id = m.id ∧ m'.retryCount = m.retryCount := by
    intro o o' m hm
    rcases hk.mem_retryQueue hm with ⟨d, hd, rfl⟩ | ⟨hold, hnone⟩
    · obtain ⟨m', hm', hid⟩ := hk.exists_mem_retryQueue o' hd
      rcases hk.mem_retryQueue hm' with ⟨d', hd', rfl⟩ | ⟨-, hnone⟩
      · have hsame : d'.msgId = d.msgId := (hd'.id_eq hk).symm.trans hid
        refine ⟨_, hm', hid.trans (hd.id_eq hk).symm, ?_⟩
        rw [StoredMessage.retried, StoredMessage.retried, hagree d' d hd' hd hsame]
      · exact absurd hid.symm (hnone d hd)
    · refine ⟨m, ?_, rfl, rfl⟩
      rw [(processPendingRetries_spec cfg clock o' td).2.1, mem_requeueAll_iff
        fun d hd => hk.due_id d (List.mem_of_mem_filter hd)]
      exact Or.inr ⟨hold, fun d hd => hnone d (mem_filter_requeued.mp hd)⟩
  refine samePass_of_retryQueue fun id n => ⟨?_, ?_⟩
  · rintro ⟨m, hm, rfl, rfl⟩
    exact hsub order order' m hm
  · rintro ⟨m, hm, rfl, rfl⟩
    exact hsub order' order m hm

/-- Visit this consumer last. -/
def consumerLast (key : String) : PassOrder := ⟨.keyLast _ _ key, .entries _ _⟩

/-- If a consumer is visited last, its entries are the ones that leave records. -/
theorem Keyed.retryQueue_consumerLast (hk : td.Keyed) {d : Due} (hd : td.Requeues cfg clock d) :
    let queue := (td.processPendingRetries cfg clock (consumerLast d.key)).1.retryQueue
    d.pending.msg.retried ∈ queue ∧ ∀ m ∈ queue, m.id = d.msgId → m = d.pending.msg.retried := by
  intro queue
  have hqueue : queue = requeueAll td.retryQueue
      ((duePass cfg clock (consumerLast d.key) td).filter (Due.requeued cfg clock)) :=
    (processPendingRetries_spec cfg clock _ td).2.1
  set dues := (duePass cfg clock (consumerLast d.key) td).filter
    (Due.requeued cfg clock) with hdues
  have hid : ∀ e ∈ dues, e.pending.msg.id = e.msgId :=
    fun e he => hk.due_id e (List.mem_of_mem_filter he)
  have hmem : d ∈ dues := mem_filter_requeued.mpr hd
  -- Behind an entry of the consumer there are only other entries of it.
  have hlast : dues.Pairwise fun e e' =>
      e.key ≠ d.key ∨ e.key = e'.key ∧ e.msgId ≠ e'.msgId := by
    refine (pairwise_duePass (r := fun key _ => key ≠ d.key) ?_
      fun key => (consumerLast d.key).entries.nodup_visit (td.pendingOf key)).filter _
    have hkey : d.key ∈ td.pendingAcks := by
      by_contra hnone
      have hlookup := hd.1
      rw [pendingOf, valueAt, AList.lookup_eq_none.mpr hnone] at hlookup
      cases hlookup
    rw [consumerLast, VisitOrder.visit_keyLast hkey, List.pairwise_append]
    refine ⟨List.pairwise_of_forall_mem_list fun key hkey _ _ => ?_, List.pairwise_singleton _ _,
      fun key hkey _ _ => ?_⟩
    all_goals exact of_decide_eq_true (List.mem_filter.mp hkey).2
  have hbehind : ∀ before after, dues = before ++ d :: after →
      ∀ e ∈ after, e.msgId ≠ d.msgId := by
    intro before after heq e he
    rw [heq] at hlast
    have hpair := List.rel_of_pairwise_cons (List.pairwise_append.mp hlast).2.1 he
    exact (hpair.resolve_left (absurd rfl)).2.symm
  rw [hqueue]
  refine ⟨(mem_requeueAll_iff hid).mpr (Or.inl ?_), fun m hm hmid => ?_⟩
  · obtain ⟨before, after, heq⟩ := List.append_of_mem hmem
    exact ⟨before, d, after, heq, hbehind before after heq, rfl⟩
  · rcases (mem_requeueAll_iff hid).mp hm with ⟨before, e, after, heq, hafter, rfl⟩ | ⟨-, hnone⟩
    · have hesame : e.msgId = d.msgId := (hid e (by rw [heq]; simp)).symm.trans hmid
      rw [heq] at hmem hlast
      rcases List.mem_append.mp hmem with hbefore | hrest
      · have hpair := (List.pairwise_append.mp hlast).2.2 d hbefore e List.mem_cons_self
        exact absurd hesame.symm (hpair.resolve_left (absurd rfl)).2
      · rcases List.mem_cons.mp hrest with rfl | hrest
        · rfl
        · exact absurd hesame.symm (hafter d hrest)
    · exact absurd hmid.symm (hnone d hmem)

/-- Retry counts below the limit do not wrap. -/
theorem Requeues.retried_retryCount {d : Due} (hd : td.Requeues cfg clock d) :
    d.pending.msg.retried.retryCount = d.pending.msg.retryCount + 1 := by
  have hlt := hd.2.2
  rw [Due.requeued, Bool.and_eq_true, decide_eq_true_iff] at hlt
  exact Nat.mod_eq_of_lt (lt_of_le_of_lt hlt.2 cfg.maxRetryCount.toNat_lt)

/-- Entries with different retry counts leave the record of the consumer visited last. -/
theorem retriesAgree_of_samePass (hk : td.Keyed)
    (h : ∀ order order', SamePass (td.processPendingRetries cfg clock order)
      (td.processPendingRetries cfg clock order')) : td.RetriesAgree cfg clock := by
  intro d d' hd hd' hid
  obtain ⟨hmem, -⟩ := hk.retryQueue_consumerLast hd
  obtain ⟨-, honly⟩ := hk.retryQueue_consumerLast hd'
  obtain ⟨m, hm, hmid, hcount⟩ :=
    ((h (consumerLast d.key) (consumerLast d'.key)).retryQueue d.msgId _).mp
      ⟨_, hmem, hd.id_eq hk, rfl⟩
  rw [honly m hm (hmid.trans hid), hd.retried_retryCount, hd'.retried_retryCount] at hcount
  exact (Nat.succ.inj hcount).symm

/-- **Exactly when the order does not matter.** In every reachable state of a topic a retry pass
has the same result for all orders of the hash maps iff the timed-out entries of one message
that it requeues have one retry count. -/
theorem samePass_iff (cfg : StoreConfig) (topicName : TopicName) (bufferSize : ℕ)
    (ops : List TopicOp) (clock : PassClock) :
    let td := (topic cfg).run (ofName topicName bufferSize) ops
    (∀ order order', SamePass (td.processPendingRetries cfg clock order)
      (td.processPendingRetries cfg clock order')) ↔ td.RetriesAgree cfg clock := by
  intro td
  have hk : td.Keyed := (topic cfg).run_induction (keyed_ofName topicName bufferSize)
    (fun _ op hk => hk.step op) ops
  exact ⟨retriesAgree_of_samePass hk, samePass_of_retriesAgree hk⟩

/-- A message was delivered to `a`, timed out and was delivered to `a` again, and to `b` once. -/
def unevenRetries : TopicData :=
  (topic {}).run (ofName "t" 128) [
    .publish [97] 0 0 0, .pull ⟨false, "a"⟩ 1 0 fun _ => 0,
    .pull ⟨false, "b"⟩ 1 0 fun _ => 3000000000, .retryPass ⟨5000000000, 5000⟩ .canonical,
    .pull ⟨false, "a"⟩ 1 5000 fun _ => 5000000000]

/-- When both deliveries have timed out, the order decides which retry count is left. -/
theorem not_samePass_unevenRetries :
    ¬∀ order order', SamePass (unevenRetries.processPendingRetries {} ⟨11000000000, 11000⟩ order)
      (unevenRetries.processPendingRetries {} ⟨11000000000, 11000⟩ order') := by
  intro h
  have hcount := (h (consumerLast "sub:a") (consumerLast "sub:b")).retryQueue 1 2
  exact absurd hcount (by decide +kernel)

end TopicData

end ProtoMsgQueue
