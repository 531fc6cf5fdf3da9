import ProtoMsgQueue.Storage.Deliveries

/-!
# Whose retry record it is

The retry queue does not say which consumer's time-out put a record there. `owners` reads
it off the history: the owner of a message's record is the consumer whose entry was
requeued last. The lemmas restrict the loop over the retry queue and the requeueing of a
pass to the records of one owner that are still live.
-/

namespace ProtoMsgQueue

open UnorderedMap

namespace TopicData

/-- The owners after requeueing entries one by one. -/
def requeueOwners (owner : MessageId → Option String) (dues : List Due) :
    MessageId → Option String :=
  dues.foldl (fun owner d => Function.update owner d.msgId (some d.key)) owner

/-- The owners after an operation: only a retry pass changes them. -/
def ownersAfter (cfg : StoreConfig) (owner : MessageId → Option String) (e : TopicEvent) :
    MessageId → Option String :=
  match e.input with
  | .retryPass clock order =>
    requeueOwners owner ((duePass cfg clock order e.pre).filter (Due.requeued cfg clock))
  | _ => owner

/-- The consumer whose entry for a message was requeued last. -/
def owners (cfg : StoreConfig) (h : List TopicEvent) : MessageId → Option String :=
  h.foldl (ownersAfter cfg) fun _ => none

@[simp] theorem owners_concat (cfg : StoreConfig) (h : List TopicEvent) (e : TopicEvent) :
    owners cfg (h ++ [e]) = ownersAfter cfg (owners cfg h) e := by
  simp [owners]

/-! ### The loop over one owner's records -/

/-- Two states of a pull that look the same to it. -/
structure PullState.Agrees (args : PullArgs) (st st' : PullState) : Prop where
  result_eq : st.result = st'.result
  pendingMap_eq : st.pendingMap args = st'.pendingMap args

namespace PullState.Agrees

variable {args : PullArgs} {st st' : PullState}

theorem full_eq (h : Agrees args st st') : st.full args = st'.full args := by
  rw [PullState.full, PullState.full, h.result_eq]

theorem touch_left (h : Agrees args st st') : Agrees args (st.touchPending args) st' :=
  ⟨h.result_eq, (st.touchPending_pendingMap args).trans h.pendingMap_eq⟩

theorem touch_right (h : Agrees args st st') : Agrees args st (st'.touchPending args) :=
  ⟨h.result_eq, h.pendingMap_eq.trans (st'.touchPending_pendingMap args).symm⟩

theorem deliver (h : Agrees args st st') (msg : StoredMessage) :
    Agrees args (st.deliver args msg) (st'.deliver args msg) := by
  refine ⟨?_, ?_⟩
  · rw [PullState.deliver_result, PullState.deliver_result, h.result_eq]
  · rw [PullState.deliver_pendingMap, PullState.deliver_pendingMap, h.pendingMap_eq, h.result_eq]

end PullState.Agrees

/-- **One owner's records.** A pull that takes only records satisfying `own` delivers the
same from the live ones among them alone, and keeps the same of them. -/
theorem pullRetry_filter (args : PullArgs) (own : MessageId → Bool) (queue : List StoredMessage)
    {st st' : PullState} (hagree : st.Agrees args st')
    (htake : ∀ m, takesRetryLoop args m queue st = true → own m = true) :
    let keep := fun r : StoredMessage => own r.id && !r.isExpired args.nowMs
    (pullRetry args queue st).1.filter keep = (pullRetry args (queue.filter keep) st').1 ∧
      (pullRetry args queue st).2.Agrees args (pullRetry args (queue.filter keep) st').2 := by
  induction queue generalizing st st' with
  | nil => exact ⟨rfl, hagree⟩
  | cons msg queue ih =>
    dsimp only at ih ⊢
    simp only [takesRetryLoop] at htake
    cases hfull : st.full args with
    | true =>
      rw [pullRetry_of_full _ hfull, pullRetry_of_full _ (hagree.full_eq ▸ hfull)]
      exact ⟨rfl, hagree⟩
    | false =>
      have hfull' : st'.full args = false := hagree.full_eq ▸ hfull
      simp only [hfull, Bool.false_eq_true, if_false] at htake
      cases hexp : msg.isExpired args.nowMs with
      | true =>
        simp only [hexp, if_true] at htake
        have hdrop : (msg :: queue).filter
            (fun r : StoredMessage => own r.id && !r.isExpired args.nowMs) =
            queue.filter fun r : StoredMessage => own r.id && !r.isExpired args.nowMs :=
          List.filter_cons_of_neg (by simp [hexp])
        rw [hdrop, pullRetry_of_expired _ hfull hexp]
        exact ih hagree htake
      | false =>
        simp only [hexp, Bool.false_eq_true, if_false, PullState.touchPending_pendingMap] at htake
        have hcons : own msg.id = true → (msg :: queue).filter
            (fun r : StoredMessage => own r.id && !r.isExpired args.nowMs) = msg ::
              queue.filter fun r : StoredMessage => own r.id && !r.isExpired args.nowMs :=
          fun hown => List.filter_cons_of_pos (by simp [hown, hexp])
        rw [pullRetry_of_live _ hfull hexp]
        by_cases hmem : msg.id ∈ st.pendingMap args
        · -- pending: the record stays on both sides, or was left out on the right
          rw [if_pos hmem]
          simp only [if_pos hmem] at htake
          cases hown : own msg.id with
          | true =>
            obtain ⟨hkept, hagree'⟩ := ih (hagree.touch_left.touch_right) htake
            rw [hcons hown, pullRetry_of_live _ hfull' hexp, if_pos (hagree.pendingMap_eq ▸ hmem)]
            refine ⟨?_, hagree'⟩
            rw [List.filter_cons_of_pos (by simp [hown, hexp]), hkept]
          | false =>
            obtain ⟨hkept, hagree'⟩ := ih hagree.touch_left htake
            rw [List.filter_cons_of_neg (by simp [hown]), List.filter_cons_of_neg (by simp [hown])]
            exact ⟨hkept, hagree'⟩
        · -- delivered: taken, hence owned
          rw [if_neg hmem]
          simp only [if_neg hmem] at htake
          rw [hcons (htake msg.id (by simp)), pullRetry_of_live _ hfull' hexp,
            if_neg (hagree.pendingMap_eq ▸ hmem)]
          refine ih (hagree.touch_left.touch_right.deliver msg) fun m htakes => htake m ?_
          rw [htakes, Bool.or_true]

/-! ### Requeueing one owner's entries -/

/-- The timed-out entries of one consumer within a pass. -/
theorem duePass_filter {cfg : StoreConfig} {clock : PassClock} {order : PassOrder}
    (td : TopicData) (key : String) :
    (duePass cfg clock order td).filter (fun d => d.key = key) =
      dueOf cfg clock order key (td.pendingOf key) := by
  -- by induction on the consumers visited, each of which is visited once
  have hvisit : ∀ keys : List String, keys.Nodup →
      (keys.flatMap fun key' => dueOf cfg clock order key' (td.pendingOf key')).filter
        (fun d => d.key = key) =
      if key ∈ keys then dueOf cfg clock order key (td.pendingOf key) else [] := by
    intro keys
    induction keys with
    | nil => exact fun _ => rfl
    | cons key' keys ih =>
      intro hnodup
      obtain ⟨hnot, hnodup⟩ := List.nodup_cons.mp hnodup
      rw [List.flatMap_cons, List.filter_append, ih hnodup]
      rcases eq_or_ne key' key with rfl | hne
      · have hall : (dueOf cfg clock order key' (td.pendingOf key')).filter
            (fun d => d.key = key') = dueOf cfg clock order key' (td.pendingOf key') :=
          List.filter_eq_self.mpr fun d hd => decide_eq_true (mem_dueOf.mp hd).1
        rw [hall, if_neg hnot, if_pos List.mem_cons_self, List.append_nil]
      · have hnone : (dueOf cfg clock order key' (td.pendingOf key')).filter
            (fun d => d.key = key) = [] :=
          List.filter_eq_nil_iff.mpr fun d hd heq =>
            hne ((mem_dueOf.mp hd).1.symm.trans (of_decide_eq_true heq))
        rw [hnone, List.nil_append]
        simp [Ne.symm hne]
  rw [duePass, hvisit _ (order.consumers.nodup_visit _)]
  split
  · rfl
  · -- a consumer that is not visited has no entries
    rename_i hkey
    refine (List.eq_nil_iff_forall_not_mem.mpr fun d hd => hkey ?_).symm
    obtain ⟨hdkey, hlookup, -⟩ := mem_dueOf.mp hd
    rw [order.consumers.mem_visit, ← AList.lookup_isSome]
    cases hnone : td.pendingAcks.lookup key with
    | some _ => rfl
    | none =>
      rw [pendingOf, valueAt, hnone] at hlookup
      cases hlookup

/-- **One owner's requeueing.** If no requeued entry of another consumer replaces a record
of the owner, neither one in the queue nor one requeued before it in the same pass, then
the owner's live records change as if its entries alone were requeued. -/
theorem requeueAll_filter {key : String} (live : StoredMessage → Bool) {dues : List Due}
    {owner : MessageId → Option String} {queue queue' : List StoredMessage}
    (hids : ∀ d ∈ dues, d.pending.msg.id = d.msgId)
    (hqueue : queue.filter (fun r => owner r.id = some key && live r) = queue'.filter live)
    (hforeign : ∀ d ∈ dues, d.key ≠ key → ∀ r ∈ queue, r.id = d.msgId → owner r.id ≠ some key)
    (hpass : dues.Pairwise fun d d' => d.key = key → d'.key ≠ key → d.msgId ≠ d'.msgId) :
    (requeueAll queue dues).filter
        (fun r => requeueOwners owner dues r.id = some key && live r) =
      (requeueAll queue' (dues.filter fun d => d.key = key)).filter live := by
  induction dues generalizing owner queue queue' with
  | nil => exact hqueue
  | cons d dues ih =>
    have hid : d.pending.msg.id = d.msgId := hids d List.mem_cons_self
    obtain ⟨hhead, htail⟩ := List.pairwise_cons.mp hpass
    have hids' : ∀ d' ∈ dues, d'.pending.msg.id = d'.msgId :=
      fun d' hd' => hids d' (List.mem_cons_of_mem _ hd')
    -- the records of other messages keep their owner
    have hrest : (queue.filter fun r => r.id ≠ d.msgId).filter
        (fun r => Function.update owner d.msgId (some d.key) r.id = some key && live r) =
        (queue'.filter live).filter fun r => r.id ≠ d.msgId := by
      rw [← hqueue, List.filter_filter, List.filter_filter]
      refine List.filter_congr fun r _ => ?_
      by_cases hr : r.id = d.msgId
      · simp [hr]
      · simp [hr]
    have hforeign' : ∀ d' ∈ dues, d'.key ≠ key →
        ∀ r ∈ requeue queue d.msgId d.pending.msg, r.id = d'.msgId →
          Function.update owner d.msgId (some d.key) r.id ≠ some key := by
      intro d' hd' hkey r hr hrid
      rw [requeue, List.mem_append, List.mem_filter, List.mem_singleton] at hr
      by_cases hsame : r.id = d.msgId
      · rw [hsame, Function.update_self]
        intro heq
        exact hhead d' hd' (Option.some_inj.mp heq) hkey (hsame.symm.trans hrid)
      · rw [Function.update_of_ne hsame]
        rcases hr with ⟨hr, -⟩ | rfl
        · exact hforeign d' (List.mem_cons_of_mem _ hd') hkey r hr hrid
        · exact absurd hid hsame
    by_cases hkey : d.key = key
    · -- an entry of the owner: requeued on both sides
      have hcons : (d :: dues).filter (fun d => d.key = key) =
          d :: dues.filter fun d => d.key = key := List.filter_cons_of_pos (by simpa using hkey)
      rw [hcons]
      refine @ih (Function.update owner d.msgId (some d.key)) _ _ hids' ?_ hforeign' htail
      have hnew : Function.update owner d.msgId (some d.key) d.pending.msg.retried.id =
          some key := by
        rw [StoredMessage.retried_id, hid, Function.update_self, hkey]
      dsimp only [requeue]
      rw [List.filter_append, hrest, List.filter_append]
      congr 1
      · exact List.filter_comm _ _ _
      · simp only [List.filter_cons, hnew, decide_true, Bool.true_and]
        rfl
    · -- an entry of another consumer: it replaces nothing of the owner
      have hcons : (d :: dues).filter (fun d => d.key = key) =
          dues.filter fun d => d.key = key := List.filter_cons_of_neg (by simpa using hkey)
      rw [hcons]
      refine @ih (Function.update owner d.msgId (some d.key)) _ _ hids' ?_ hforeign' htail
      have hnew : Function.update owner d.msgId (some d.key) d.pending.msg.id ≠ some key := by
        rw [hid, Function.update_self]
        exact fun heq => hkey (Option.some_inj.mp heq)
      have hnone : (queue'.filter live).filter (fun r => r.id ≠ d.msgId) =
          queue'.filter live := by
        refine List.filter_eq_self.mpr fun r hr => decide_eq_true fun hrid => ?_
        rw [← hqueue] at hr
        obtain ⟨hmem, hr⟩ := List.mem_filter.mp hr
        rw [Bool.and_eq_true, decide_eq_true_eq] at hr
        exact hforeign d List.mem_cons_self hkey r hmem hrid hr.1
      dsimp only [requeue]
      rw [List.filter_append, hrest, hnone]
      simp [hnew]

end TopicData

end ProtoMsgQueue
