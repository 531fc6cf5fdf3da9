import ProtoMsgQueue.Storage.Deliveries

/-!
# What a pull records

A pull returns a message at most once and files one pending entry for each message it
returns, with the reading of the steady clock at that delivery; the other entries of the
consumer are as before. `pullLog_rule` and `pullRetry_rule` are the invariant rules of the
two loops. From them follow the ledger of a pull, `pull_ledger`, and that a record taken
from the retry queue leaves it.
-/

namespace ProtoMsgQueue

open UnorderedMap

namespace TopicData

/-! ### Invariant rules of the loops -/

section Rules

variable {args : PullArgs} {I : PullState → Prop}

/-- **Loop over the log.** An invariant is kept when the entries of the consumer are touched,
when the offset moves, and when a live message of the log is delivered that is not pending. -/
theorem pullLog_rule {log : List StoredMessage} {st : PullState} (h0 : I st)
    (htouch : ∀ st, I st → I (st.touchPending args))
    (hoffset : ∀ st n, I st → I { st with offset := n })
    (hdeliver : ∀ st, ∀ msg ∈ log, I st → msg.isExpired args.nowMs = false →
      msg.id ∉ st.pendingMap args → I (st.deliver args msg)) : I (pullLog args log st) := by
  induction log generalizing st with
  | nil => exact h0
  | cons msg log ih =>
    have htail : ∀ st, ∀ msg ∈ log, I st → msg.isExpired args.nowMs = false →
        msg.id ∉ st.pendingMap args → I (st.deliver args msg) :=
      fun st msg hmsg => hdeliver st msg (List.mem_cons_of_mem _ hmsg)
    rw [pullLog]
    split
    · exact h0
    split
    · split
      · exact ih (hoffset _ _ h0) htail
      · rename_i hlive
        dsimp only
        split
        · exact ih (htouch _ h0) htail
        · rename_i hnew
          refine ih (hoffset _ _ (hdeliver _ msg List.mem_cons_self (htouch _ h0) ?_ hnew)) htail
          simpa using hlive
    · exact ih h0 htail

/-- **Loop over the retry queue.** -/
theorem pullRetry_rule {queue : List StoredMessage} {st : PullState} (h0 : I st)
    (htouch : ∀ st, I st → I (st.touchPending args))
    (hdeliver : ∀ st, ∀ msg ∈ queue, I st → msg.isExpired args.nowMs = false →
      msg.id ∉ st.pendingMap args → I (st.deliver args msg)) : I (pullRetry args queue st).2 := by
  induction queue generalizing st with
  | nil => exact h0
  | cons msg queue ih =>
    have htail : ∀ st, ∀ msg ∈ queue, I st → msg.isExpired args.nowMs = false →
        msg.id ∉ st.pendingMap args → I (st.deliver args msg) :=
      fun st msg hmsg => hdeliver st msg (List.mem_cons_of_mem _ hmsg)
    rw [pullRetry]
    split
    · exact h0
    split
    · exact ih h0 htail
    · rename_i hlive
      dsimp only
      split
      · exact ih (htouch _ h0) htail
      · rename_i hnew
        refine ih (hdeliver _ msg List.mem_cons_self (htouch _ h0) ?_ hnew) htail
        simpa using hlive

end Rules

/-! ### The ledger -/

/-- Starting from the entries `pending`, the pull has returned different messages, none of
them pending before, and filed each with its clock reading. -/
structure PullState.Ledger (args : PullArgs) (pending : PendingMap) (st : PullState) : Prop where
  nodup : (st.result.map StoredMessage.id).Nodup
  entry : ∀ n r, st.result[n]? = some r → r.id ∉ pending ∧
    (st.pendingMap args).lookup r.id = some ⟨r, args.steadyNow n⟩
  other : ∀ id, (∀ r ∈ st.result, r.id ≠ id) → (st.pendingMap args).lookup id = pending.lookup id

namespace PullState.Ledger

variable {args : PullArgs} {pending : PendingMap} {st : PullState}

theorem touch (h : Ledger args pending st) : Ledger args pending (st.touchPending args) := by
  refine ⟨h.nodup, ?_, ?_⟩
  · rw [touchPending_pendingMap]
    exact h.entry
  · rw [touchPending_pendingMap]
    exact h.other

theorem deliver (h : Ledger args pending st) {msg : StoredMessage}
    (hnew : msg.id ∉ st.pendingMap args) : Ledger args pending (st.deliver args msg) := by
  -- what was returned is pending, so the message was not
  have hne : ∀ r ∈ st.result, r.id ≠ msg.id := by
    intro r hr heq
    obtain ⟨n, hn⟩ := List.getElem?_of_mem hr
    exact hnew (heq ▸ mem_iff_exists_lookup.mpr ⟨_, (h.entry n r hn).2⟩)
  have hnot : msg.id ∉ pending := by
    rw [← AList.lookup_eq_none, ← h.other msg.id hne]
    exact AList.lookup_eq_none.mpr hnew
  constructor
  · rw [deliver_result, List.map_append, List.nodup_append]
    refine ⟨h.nodup, List.nodup_singleton _, fun id hid id' hid' => ?_⟩
    obtain ⟨r, hr, rfl⟩ := List.mem_map.mp hid
    rw [List.mem_singleton.mp hid']
    exact hne r hr
  · intro n r hr
    rw [deliver_result] at hr
    rw [deliver_pendingMap]
    rcases lt_or_ge n st.result.length with hn | hn
    · rw [List.getElem?_append_left hn] at hr
      rw [AList.lookup_insert_ne (hne r (List.mem_of_getElem? hr))]
      exact h.entry n r hr
    · rw [List.getElem?_append_right hn, List.getElem?_singleton] at hr
      split at hr
      · obtain rfl : n = st.result.length := by omega
        rw [← Option.some_inj.mp hr, AList.lookup_insert]
        exact ⟨hnot, rfl⟩
      · cases hr
  · intro id hid
    rw [deliver_result] at hid
    have hmsg : msg.id ≠ id := hid msg (by simp)
    rw [deliver_pendingMap, AList.lookup_insert_ne hmsg.symm]
    exact h.other id fun r hr => hid r (List.mem_append_left _ hr)

end PullState.Ledger

section Pull

variable (td : TopicData) (c : Consumer) (maxMessages : UInt32) (nowMs : UInt64)
  (steadyNow : ℕ → ℤ)

/-- **The ledger of a pull.** -/
theorem pull_ledger :
    ((td.pull c maxMessages nowMs steadyNow).2.map StoredMessage.id).Nodup ∧
    (∀ n r, (td.pull c maxMessages nowMs steadyNow).2[n]? = some r → r.id ∉ td.pendingOf c.key ∧
      ((td.pull c maxMessages nowMs steadyNow).1.pendingOf c.key).lookup r.id =
        some ⟨r, steadyNow n⟩) ∧
    ∀ id, (∀ r ∈ (td.pull c maxMessages nowMs steadyNow).2, r.id ≠ id) →
      ((td.pull c maxMessages nowMs steadyNow).1.pendingOf c.key).lookup id =
        (td.pendingOf c.key).lookup id := by
  set args : PullArgs := ⟨c.key, maxMessages, nowMs, steadyNow⟩ with hargs
  have hstart : PullState.Ledger args (td.pendingOf c.key) (td.drainRingBuffer.pullStart c) :=
    ⟨List.nodup_nil, fun _ _ hr => (nomatch hr), fun _ _ => rfl⟩
  have hlog : PullState.Ledger args (td.pendingOf c.key)
      (td.pulledLog c maxMessages nowMs steadyNow) :=
    pullLog_rule hstart (fun _ h => h.touch) (fun _ _ h => ⟨h.nodup, h.entry, h.other⟩)
      fun _ _ _ h _ hnew => h.deliver hnew
  have hretry : PullState.Ledger args (td.pendingOf c.key)
      (td.pulledRetry c maxMessages nowMs steadyNow).2 :=
    pullRetry_rule hlog (fun _ h => h.touch) fun _ _ _ h _ hnew => h.deliver hnew
  exact ⟨hretry.nodup, hretry.entry, hretry.other⟩

end Pull

/-- A record that the loop over the retry queue delivers leaves the queue. -/
theorem pullRetry_taken {args : PullArgs} {queue : List StoredMessage} {st : PullState}
    (hnodup : (queue.map StoredMessage.id).Nodup) {new : List StoredMessage}
    (hnew : (pullRetry args queue st).2.result = st.result ++ new) :
    ∀ r ∈ new, ∀ r' ∈ (pullRetry args queue st).1, r'.id ≠ r.id := by
  induction queue generalizing st new with
  | nil =>
    intro r _ r' hr'
    cases hr'
  | cons msg queue ih =>
    rw [List.map_cons, List.nodup_cons] at hnodup
    have hother : ∀ r ∈ queue, r.id ≠ msg.id :=
      fun r hr heq => hnodup.1 (heq ▸ List.mem_map_of_mem hr)
    rw [pullRetry] at hnew ⊢
    split at hnew
    · rename_i hfull
      rw [if_pos hfull]
      have hnil : new = [] := by simpa using hnew
      simp [hnil]
    · rename_i hfull
      rw [if_neg hfull]
      split at hnew
      · rename_i hexp
        rw [if_pos hexp]
        exact ih hnodup.2 hnew
      · rename_i hlive
        rw [if_neg hlive]
        dsimp only at hnew ⊢
        split at hnew
        · -- pending already: the record stays, and what is delivered comes from the rest
          rename_i hmem
          rw [if_pos hmem]
          obtain ⟨⟨new', hdelivers⟩, -⟩ := pullRetry_spec args queue (st.touchPending args)
          obtain rfl : new' = new :=
            List.append_cancel_left (hdelivers.result_eq.symm.trans hnew)
          intro r hr r' hr'
          rcases List.mem_cons.mp hr' with rfl | hr'
          · exact (hother r (hdelivers.mem_source r hr).1).symm
          · exact ih hnodup.2 hnew r hr r' hr'
        · rename_i hmem
          rw [if_neg hmem]
          obtain ⟨⟨new', hdelivers⟩, hkept, -⟩ :=
            pullRetry_spec args queue ((st.touchPending args).deliver args msg)
          have heq : new = msg :: new' := by
            have hresult := hdelivers.result_eq.symm.trans hnew
            rw [PullState.deliver_result, List.append_assoc] at hresult
            exact (List.append_cancel_left hresult).symm
          intro r hr r' hr'
          rw [heq] at hr
          rcases List.mem_cons.mp hr with rfl | hr
          · exact hother r' (hkept.subset hr')
          · exact ih hnodup.2 hdelivers.result_eq r hr r' hr'

/-- What a pull returns comes from the drained log, or it was in the retry queue and is not
any more. -/
theorem Keyed.mem_pulled {td : TopicData} (hk : td.Keyed) (c : Consumer) (maxMessages : UInt32)
    (nowMs : UInt64) (steadyNow : ℕ → ℤ) {r : StoredMessage}
    (hr : r ∈ (td.pull c maxMessages nowMs steadyNow).2) :
    r ∈ td.drainRingBuffer.messageLog ∨ r ∈ td.retryQueue ∧
      ∀ r' ∈ (td.pull c maxMessages nowMs steadyNow).1.retryQueue, r'.id ≠ r.id := by
  obtain ⟨fromLog, fromQueue, hlog, hqueue, hmsgs⟩ := td.pull_delivers c maxMessages nowMs steadyNow
  rw [hmsgs] at hr
  rcases List.mem_append.mp hr with hr | hr
  · exact .inl (hlog.mem_source r hr).1
  · exact .inr ⟨(hqueue.mem_source r hr).1, pullRetry_taken hk.nodup_queue hqueue.result_eq r hr⟩

end TopicData

end ProtoMsgQueue
