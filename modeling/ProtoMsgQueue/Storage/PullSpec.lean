import ProtoMsgQueue.Storage.Pull

/-!
# What a pull computes

A pull returns the messages of the log that are due, and then the records of the retry queue
that are fresh, as many as asked for. `RetryPull` is the precise statement about the loop over
a retry queue with one record for each identifier, as `LogPull` is about the loop over the log;
`pull_computes` puts the two together.
-/

namespace ProtoMsgQueue

open UnorderedMap

namespace TopicData

/-! ### Entries that are added one by one -/

theorem addPending_append (steadyNow : ℕ → ℤ) (n : ℕ) (ms ms' : List StoredMessage)
    (pending : PendingMap) : addPending steadyNow n (ms ++ ms') pending =
      addPending steadyNow (n + ms.length) ms' (addPending steadyNow n ms pending) := by
  induction ms generalizing n pending with
  | nil => rfl
  | cons m ms ih =>
    rw [List.cons_append, addPending, ih, addPending, List.length_cons, Nat.add_right_comm,
      ← Nat.add_assoc]

theorem mem_addPending {steadyNow : ℕ → ℤ} {n : ℕ} {ms : List StoredMessage}
    {pending : PendingMap} {id : MessageId} :
    id ∈ addPending steadyNow n ms pending ↔ id ∈ ms.map StoredMessage.id ∨ id ∈ pending := by
  induction ms generalizing n pending with
  | nil => simp [addPending]
  | cons m ms ih =>
    rw [addPending, ih, AList.mem_insert, List.map_cons, List.mem_cons]
    tauto

/-! ### The loop over the retry queue -/

/-- A live record of a message that is not pending. -/
def isFresh (nowMs : UInt64) (pending : PendingMap) (m : StoredMessage) : Bool :=
  !m.isExpired nowMs && m.id ∉ pending

/-- A live record of a message that is pending. -/
def isHeld (nowMs : UInt64) (pending : PendingMap) (m : StoredMessage) : Bool :=
  !m.isExpired nowMs && m.id ∈ pending

theorem isHeld_eq (nowMs : UInt64) (pending : PendingMap) (m : StoredMessage) :
    isHeld nowMs pending m = (!m.isExpired nowMs && !isFresh nowMs pending m) := by
  rw [isHeld, isFresh]
  cases m.isExpired nowMs <;> simp

/-- What the loop over a retry queue with one record for each identifier does: it passes over
a part of the queue, as long as there is room, and returns the fresh records of that part; the
records whose messages are pending stay. -/
structure RetryPull (args : PullArgs) (queue : List StoredMessage) (st : PullState)
    (out : List StoredMessage × PullState) (passed rest : List StoredMessage) : Prop where
  split : queue = passed ++ rest
  result_eq : out.2.result = st.result ++ passed.filter (isFresh args.nowMs (st.pendingMap args))
  pending_eq : out.2.pendingMap args = addPending args.steadyNow st.result.length
    (passed.filter (isFresh args.nowMs (st.pendingMap args))) (st.pendingMap args)
  queue_eq : out.1 = passed.filter (isHeld args.nowMs (st.pendingMap args)) ++ rest
  full : rest ≠ [] → st.room args ≤ passed.countP (isFresh args.nowMs (st.pendingMap args))
  room : ∀ before m after, passed = before ++ m :: after →
    before.countP (isFresh args.nowMs (st.pendingMap args)) < st.room args

/-- There was room for every record of a list if there was for the first and for the rest. -/
private theorem room_cons {msg : StoredMessage} {passed : List StoredMessage} {n : ℕ}
    {p : StoredMessage → Bool} (h : 0 < n)
    (hrest : ∀ before m after, passed = before ++ m :: after → (msg :: before).countP p < n) :
    ∀ before m after, msg :: passed = before ++ m :: after → before.countP p < n := by
  intro before m after heq
  cases before with
  | nil => exact h
  | cons m' before =>
    rw [List.cons_append, List.cons.injEq] at heq
    obtain ⟨rfl, heq⟩ := heq
    exact hrest before m after heq

namespace RetryPull

variable {args : PullArgs} {queue passed rest : List StoredMessage} {st : PullState}
  {out : List StoredMessage × PullState}

/-- The loop stops at once when there is no room. -/
theorem full_stop (queue : List StoredMessage) (hfull : st.full args = true) :
    RetryPull args queue st (queue, st) [] queue where
  split := rfl
  result_eq := (List.append_nil _).symm
  pending_eq := rfl
  queue_eq := rfl
  full _ := (PullState.room_eq_zero hfull).le
  room before m after heq := absurd heq.symm (by simp)

/-- Looking the pending entries up changes nothing. -/
theorem of_touchPending (h : RetryPull args queue (st.touchPending args) out passed rest) :
    RetryPull args queue st out passed rest := by
  obtain ⟨hsplit, hresult, hmap, hqueue, hfull, hroom⟩ := h
  rw [PullState.touchPending_pendingMap] at hresult hmap hqueue hfull hroom
  exact ⟨hsplit, hresult, hmap, hqueue, hfull, hroom⟩

/-- The loop passes over an expired record, which it erases. -/
theorem cons_expired {msg : StoredMessage} (h : RetryPull args queue st out passed rest)
    (hroom : ¬st.full args = true) (hexp : msg.isExpired args.nowMs = true) :
    RetryPull args (msg :: queue) st out (msg :: passed) rest := by
  have hfresh : ¬isFresh args.nowMs (st.pendingMap args) msg = true := by simp [isFresh, hexp]
  have hheld : ¬isHeld args.nowMs (st.pendingMap args) msg = true := by simp [isHeld, hexp]
  refine ⟨by rw [h.split, List.cons_append], ?_, ?_, ?_, ?_,
    room_cons (PullState.room_pos hroom) fun before m after heq => ?_⟩
  · rw [h.result_eq, List.filter_cons_of_neg hfresh]
  · rw [h.pending_eq, List.filter_cons_of_neg hfresh]
  · rw [h.queue_eq, List.filter_cons_of_neg hheld]
  · rw [List.countP_cons_of_neg hfresh]
    exact h.full
  · rw [List.countP_cons_of_neg hfresh]
    exact h.room before m after heq

/-- The loop passes over a record whose message is pending. The record stays. -/
theorem cons_held {msg : StoredMessage} (h : RetryPull args queue st out passed rest)
    (hroom : ¬st.full args = true) (hlive : ¬msg.isExpired args.nowMs = true)
    (hpending : msg.id ∈ st.pendingMap args) :
    RetryPull args (msg :: queue) st (msg :: out.1, out.2) (msg :: passed) rest := by
  have hfresh : ¬isFresh args.nowMs (st.pendingMap args) msg = true := by simp [isFresh, hpending]
  have hheld : isHeld args.nowMs (st.pendingMap args) msg = true := by
    simp [isHeld, hpending, hlive]
  refine ⟨by rw [h.split, List.cons_append], ?_, ?_, ?_, ?_,
    room_cons (PullState.room_pos hroom) fun before m after heq => ?_⟩
  · rw [List.filter_cons_of_neg hfresh]
    exact h.result_eq
  · rw [List.filter_cons_of_neg hfresh]
    exact h.pending_eq
  · rw [List.filter_cons_of_pos hheld, List.cons_append]
    exact congrArg (List.cons msg) h.queue_eq
  · rw [List.countP_cons_of_neg hfresh]
    exact h.full
  · rw [List.countP_cons_of_neg hfresh]
    exact h.room before m after heq

/-- The loop returns a fresh record. The records behind it have other identifiers, so it makes
none of them pending. -/
theorem cons_fresh {msg : StoredMessage} (hroom : ¬st.full args = true)
    (hlive : ¬msg.isExpired args.nowMs = true) (hnew : msg.id ∉ st.pendingMap args)
    (hmsg : msg.id ∉ queue.map StoredMessage.id)
    (h : RetryPull args queue ((st.touchPending args).deliver args msg) out passed rest) :
    RetryPull args (msg :: queue) st out (msg :: passed) rest := by
  have hfresh : isFresh args.nowMs (st.pendingMap args) msg = true := by
    simp [isFresh, hnew, hlive]
  have hheld : ¬isHeld args.nowMs (st.pendingMap args) msg = true := by simp [isHeld, hnew]
  set st₁ := (st.touchPending args).deliver args msg with hst₁
  have hmap₁ : st₁.pendingMap args =
      (st.pendingMap args).insert msg.id ⟨msg, args.steadyNow st.result.length⟩ := by
    simp [hst₁]
  have hresult₁ : st₁.result = st.result ++ [msg] := rfl
  have hroom₁ : st.room args = st₁.room args + 1 :=
    @PullState.room_deliver (st.touchPending args) args hroom msg
  have hother : ∀ m ∈ passed, (m.id ∈ st₁.pendingMap args ↔ m.id ∈ st.pendingMap args) := by
    intro m hm
    have hne : m.id ≠ msg.id := by
      intro heq
      refine hmsg (heq ▸ List.mem_map_of_mem ?_)
      rw [h.split]
      exact List.mem_append_left _ hm
    rw [hmap₁, AList.mem_insert, or_iff_right hne]
  have hfresh₁ : ∀ m ∈ passed, isFresh args.nowMs (st₁.pendingMap args) m =
      isFresh args.nowMs (st.pendingMap args) m := fun m hm => by
    simp only [isFresh, hother m hm]
  have hheld₁ : ∀ m ∈ passed, isHeld args.nowMs (st₁.pendingMap args) m =
      isHeld args.nowMs (st.pendingMap args) m := fun m hm => by
    simp only [isHeld, hother m hm]
  refine ⟨by rw [h.split, List.cons_append], ?_, ?_, ?_, fun hrest => ?_,
    room_cons (PullState.room_pos hroom) fun before m after heq => ?_⟩
  · rw [h.result_eq, List.filter_congr hfresh₁, hresult₁, List.filter_cons_of_pos hfresh,
      List.append_assoc, List.singleton_append]
  · rw [h.pending_eq, List.filter_congr hfresh₁, hmap₁, hresult₁, List.filter_cons_of_pos hfresh,
      addPending, List.length_append, List.length_singleton]
  · rw [h.queue_eq, List.filter_congr hheld₁, List.filter_cons_of_neg hheld]
  · have hfull := h.full hrest
    rw [List.countP_congr fun m hm => by rw [hfresh₁ m hm]] at hfull
    rw [List.countP_cons_of_pos hfresh, hroom₁]
    exact Nat.succ_le_succ hfull
  · have hbefore := h.room before m after heq
    rw [List.countP_congr fun m' hm' => by
      rw [hfresh₁ m' (heq ▸ List.mem_append_left _ hm')]] at hbefore
    rw [List.countP_cons_of_pos hfresh, hroom₁]
    exact Nat.succ_lt_succ hbefore

end RetryPull

theorem pullRetry_passes {args : PullArgs} {queue : List StoredMessage} {st : PullState}
    (hnodup : (queue.map StoredMessage.id).Nodup) :
    ∃ passed rest, RetryPull args queue st (pullRetry args queue st) passed rest := by
  induction queue generalizing st with
  | nil => exact ⟨[], [], rfl, (List.append_nil _).symm, rfl, rfl, nofun, by simp⟩
  | cons msg queue ih =>
    rw [List.map_cons, List.nodup_cons] at hnodup
    obtain ⟨hmsg, hnodup⟩ := hnodup
    rw [pullRetry]
    split
    · rename_i hfull
      exact ⟨[], msg :: queue, RetryPull.full_stop _ hfull⟩
    rename_i hroom
    split
    · rename_i hexp
      obtain ⟨passed, rest, h⟩ := @ih st hnodup
      exact ⟨msg :: passed, rest, h.cons_expired hroom hexp⟩
    rename_i hlive
    dsimp only
    split
    · rename_i hpending
      rw [PullState.touchPending_pendingMap] at hpending
      obtain ⟨passed, rest, h⟩ := @ih (st.touchPending args) hnodup
      exact ⟨msg :: passed, rest, h.of_touchPending.cons_held hroom hlive hpending⟩
    · rename_i hnew
      rw [PullState.touchPending_pendingMap] at hnew
      obtain ⟨passed, rest, h⟩ := @ih ((st.touchPending args).deliver args msg) hnodup
      exact ⟨msg :: passed, rest, RetryPull.cons_fresh hroom hlive hnew hmsg h⟩

namespace RetryPull

variable {args : PullArgs} {queue passed rest : List StoredMessage} {st : PullState}
  {out : List StoredMessage × PullState}

/-- The fresh records that were passed are the first ones of the queue. -/
theorem taken (h : RetryPull args queue st out passed rest) :
    passed.filter (isFresh args.nowMs (st.pendingMap args)) =
      (queue.filter (isFresh args.nowMs (st.pendingMap args))).take (st.room args) := by
  have hle : passed.countP (isFresh args.nowMs (st.pendingMap args)) ≤ st.room args := by
    rcases List.eq_nil_or_concat passed with rfl | ⟨before, m, rfl⟩
    · exact Nat.zero_le _
    · have hlt := h.room before m [] List.concat_eq_append
      rw [List.concat_eq_append, List.countP_append]
      have hone : [m].countP (isFresh args.nowMs (st.pendingMap args)) ≤ 1 := List.countP_le_length
      omega
  rw [h.split, List.filter_append]
  rcases eq_or_ne rest [] with rfl | hne
  · rw [List.filter_nil, List.append_nil, List.take_of_length_le]
    rwa [← List.countP_eq_length_filter]
  · have hlength := le_antisymm hle (h.full hne)
    rw [List.countP_eq_length_filter] at hlength
    rw [List.take_left' hlength]

variable {returned : List StoredMessage}

/-- A record that was passed was returned iff it was fresh. -/
theorem decide_mem_returned
    (hreturned : passed.filter (isFresh args.nowMs (st.pendingMap args)) = returned)
    {m : StoredMessage} (hm : m ∈ passed) :
    decide (m ∈ returned) = isFresh args.nowMs (st.pendingMap args) m := by
  rw [Bool.eq_iff_iff, decide_eq_true_iff, ← hreturned, List.mem_filter]
  exact and_iff_right hm

/-- Of the records that were passed the live ones stay that were not returned. -/
theorem queue_eq_filter (h : RetryPull args queue st out passed rest)
    (hreturned : passed.filter (isFresh args.nowMs (st.pendingMap args)) = returned) :
    out.1 = passed.filter (fun m => !m.isExpired args.nowMs && m ∉ returned) ++ rest := by
  refine h.queue_eq.trans (congrArg (· ++ rest) (List.filter_congr fun m hm => ?_))
  rw [isHeld_eq, decide_not, decide_mem_returned hreturned hm]

/-- There was room behind the records that had been returned. -/
theorem countP_returned_lt (h : RetryPull args queue st out passed rest)
    (hreturned : passed.filter (isFresh args.nowMs (st.pendingMap args)) = returned)
    {before after : List StoredMessage} {m : StoredMessage} (heq : passed = before ++ m :: after) :
    before.countP (fun m => m ∈ returned) < st.room args := by
  refine lt_of_eq_of_lt (List.countP_congr fun m' hm' => ?_) (h.room before m after heq)
  rw [decide_mem_returned hreturned (heq ▸ List.mem_append_left _ hm')]

end RetryPull

/-! ### The whole pull -/

/-- What is pending after messages with different identifiers were added. -/
theorem lookup_addPending {steadyNow : ℕ → ℤ} {n : ℕ} {ms : List StoredMessage}
    {pending : PendingMap} (hnodup : (ms.map StoredMessage.id).Nodup)
    (hnew : ∀ m ∈ ms, m.id ∉ pending) (id : MessageId) (p : PendingMessage) :
    (addPending steadyNow n ms pending).lookup id = some p ↔
      pending.lookup id = some p ∨
        ∃ i, ms[i]? = some p.msg ∧ p.msg.id = id ∧ p.pullTime = steadyNow (n + i) := by
  induction ms generalizing n pending with
  | nil => simp [addPending]
  | cons m ms ih =>
    rw [List.map_cons, List.nodup_cons] at hnodup
    obtain ⟨hm, hnodup⟩ := hnodup
    have hnew' : ∀ m' ∈ ms, m'.id ∉ pending.insert m.id ⟨m, steadyNow n⟩ := by
      intro m' hm'
      rw [AList.mem_insert, not_or]
      exact ⟨fun heq => hm (heq ▸ List.mem_map_of_mem hm'), hnew m' (List.mem_cons_of_mem _ hm')⟩
    have hfirst : (pending.insert m.id ⟨m, steadyNow n⟩).lookup id = some p ↔
        pending.lookup id = some p ∨ m = p.msg ∧ p.msg.id = id ∧ p.pullTime = steadyNow n := by
      rcases eq_or_ne id m.id with rfl | hne
      · rw [AList.lookup_insert, AList.lookup_eq_none.mpr (hnew m List.mem_cons_self)]
        simp only [Option.some.injEq, reduceCtorEq, false_or]
        constructor
        · rintro rfl
          exact ⟨rfl, rfl, rfl⟩
        · rintro ⟨rfl, -, htime⟩
          rw [← htime]
      · rw [AList.lookup_insert_ne hne]
        refine (or_iff_left ?_).symm
        rintro ⟨rfl, hid, -⟩
        exact hne hid.symm
    have hindex : (∃ i, (m :: ms)[i]? = some p.msg ∧ p.msg.id = id ∧
          p.pullTime = steadyNow (n + i)) ↔
        (m = p.msg ∧ p.msg.id = id ∧ p.pullTime = steadyNow n) ∨
          ∃ i, ms[i]? = some p.msg ∧ p.msg.id = id ∧ p.pullTime = steadyNow (n + 1 + i) := by
      rw [← Nat.or_exists_add_one]
      simp only [List.getElem?_cons_zero, List.getElem?_cons_succ, Option.some.injEq, Nat.add_zero,
        Nat.add_assoc, Nat.add_comm 1]
    rw [addPending, ih hnodup hnew', hfirst, hindex, or_assoc]

/-- What a pull computes from the due messages `due` of the log and the fresh records `fresh` of
the retry queue. -/
structure PullComputes (td : TopicData) (c : Consumer) (maxMessages : ℕ) (nowMs : UInt64)
    (steadyNow : ℕ → ℤ) (due fresh : List StoredMessage) (out : TopicData × List StoredMessage) :
    Prop where
  /-- It returns the due messages and then the fresh records, as many as asked for. -/
  result_eq : out.2 = (due ++ fresh).take maxMessages
  live : ∀ m ∈ out.2, m.isExpired nowMs = false
  /-- It makes exactly the returned messages pending. -/
  lookup_pending : ∀ id p, (out.1.pendingOf c.key).lookup id = some p ↔
    (td.pendingOf c.key).lookup id = some p ∨
      ∃ i, out.2[i]? = some p.msg ∧ p.msg.id = id ∧ p.pullTime = steadyNow i
  /-- Of the records it passes it removes the expired ones and those it returns. It passes
  records only while it has returned too few messages. -/
  retryQueue_eq : let retries := fresh.take (maxMessages - (due.take maxMessages).length)
    ∃ passed rest, td.retryQueue = passed ++ rest ∧
      out.1.retryQueue = passed.filter (fun m => !m.isExpired nowMs && m ∉ retries) ++ rest ∧
      retries.Sublist passed ∧ (rest ≠ [] → maxMessages ≤ out.2.length) ∧
      ∀ before m after, passed = before ++ m :: after →
        (due.take maxMessages).length + before.countP (fun m => m ∈ retries) < maxMessages
  /-- Its offset is behind the due messages it returned and not behind the others. -/
  lt_offset : ∀ m ∈ due.take maxMessages, m.id < out.1.offset c
  offset_le : ∀ m ∈ due.drop maxMessages, out.1.offset c ≤ m.id
  /-- It leaves other consumers alone. -/
  other : ∀ c', c' ≠ c → out.1.offset c' = td.offset c' ∧
    out.1.pendingOf c'.key = td.pendingOf c'.key

/-- Taking from one list and filling up from another is taking from both in a row. -/
theorem take_append_take_sub {α : Type*} (l l' : List α) (n : ℕ) :
    l.take n ++ l'.take (n - (l.take n).length) = (l ++ l').take n := by
  rw [List.take_append, List.length_take]
  rcases le_total l.length n with hle | hle
  · rw [min_eq_right hle]
  · rw [min_eq_left hle, Nat.sub_self, Nat.sub_eq_zero_of_le hle]

/-- Messages of a sorted log, followed by others of a queue with one record for each identifier,
have different identifiers. -/
theorem nodup_log_append_queue {log queue fromLog retries : List StoredMessage}
    (hsorted : log.Pairwise (·.id < ·.id)) (hqueue : (queue.map StoredMessage.id).Nodup)
    (hlog : fromLog.Sublist log) (hretries : retries.Sublist queue)
    (hother : ∀ m ∈ retries, m.id ∉ fromLog.map StoredMessage.id) :
    ((fromLog ++ retries).map StoredMessage.id).Nodup := by
  rw [List.map_append, List.nodup_append']
  refine ⟨?_, hqueue.sublist (hretries.map _), fun id hid hqueued => ?_⟩
  · exact List.pairwise_map.mpr ((hsorted.sublist hlog).imp fun hlt => ne_of_lt hlt)
  · obtain ⟨m, hm, rfl⟩ := List.mem_map.mp hqueued
    exact hother m hm hid

/-- The loops of a pull that return `fromLog` and `retries`: the one over the log leaves room for
`retries`, and the one over the retry queue passes over a part of it in which they are fresh. -/
structure PullLoops (td : TopicData) (c : Consumer) (maxMessages : UInt32) (nowMs : UInt64)
    (steadyNow : ℕ → ℤ) (fromLog retries passed rest : List StoredMessage) : Prop where
  retry : RetryPull ⟨c.key, maxMessages, nowMs, steadyNow⟩ td.retryQueue
    (td.pulledLog c maxMessages nowMs steadyNow) (td.pulledRetry c maxMessages nowMs steadyNow)
    passed rest
  taken : passed.filter (isFresh nowMs ((td.pulledLog c maxMessages nowMs steadyNow).pendingMap
    ⟨c.key, maxMessages, nowMs, steadyNow⟩)) = retries
  room_eq : (td.pulledLog c maxMessages nowMs steadyNow).room
    ⟨c.key, maxMessages, nowMs, steadyNow⟩ = maxMessages.toNat - fromLog.length
  result_eq : (td.pull c maxMessages nowMs steadyNow).2 = fromLog ++ retries
  pendingOf_eq : (td.pull c maxMessages nowMs steadyNow).1.pendingOf c.key =
    addPending steadyNow 0 (fromLog ++ retries) (td.pendingOf c.key)

/-- The loops return the due messages and the fresh records for which there is room. -/
theorem exists_pullLoops {td : TopicData} {c : Consumer} {maxMessages : UInt32} {nowMs : UInt64}
    {steadyNow : ℕ → ℤ} (hlog : LogPull ⟨c.key, maxMessages, nowMs, steadyNow⟩
      td.drainRingBuffer.messageLog (td.drainRingBuffer.pullStart c)
      (td.pulledLog c maxMessages nowMs steadyNow))
    (hqueue : (td.retryQueue.map StoredMessage.id).Nodup) :
    let fromLog := (td.drainRingBuffer.messageLog.filter fun m =>
      td.startOffset c ≤ m.id && !m.isExpired nowMs).take maxMessages.toNat
    let fresh := td.retryQueue.filter fun m => !m.isExpired nowMs && m.id ∉ td.pendingOf c.key &&
      m.id ∉ fromLog.map StoredMessage.id
    ∃ passed rest, PullLoops td c maxMessages nowMs steadyNow fromLog
      (fresh.take (maxMessages.toNat - fromLog.length)) passed rest := by
  intro fromLog fresh
  set args : PullArgs := ⟨c.key, maxMessages, nowMs, steadyNow⟩
  have hlogResult : (td.pulledLog c maxMessages nowMs steadyNow).result = fromLog :=
    hlog.result_eq
  have hlogPending : (td.pulledLog c maxMessages nowMs steadyNow).pendingMap args =
      addPending steadyNow 0 fromLog (td.pendingOf c.key) := hlog.pending_eq
  obtain ⟨passed, rest, hretry⟩ := @pullRetry_passes args _
    (td.pulledLog c maxMessages nowMs steadyNow) hqueue
  -- The records that are fresh after the loop over the log are the fresh ones of the statement.
  have hfresh : td.retryQueue.filter (isFresh args.nowMs
      ((td.pulledLog c maxMessages nowMs steadyNow).pendingMap args)) = fresh := by
    refine List.filter_congr fun m _ => ?_
    rw [hlogPending, isFresh]
    simp only [mem_addPending, not_or, Bool.decide_and, Bool.and_assoc]
    rw [Bool.and_comm (decide (m.id ∉ fromLog.map StoredMessage.id))]
  have hroom : (td.pulledLog c maxMessages nowMs steadyNow).room args =
      maxMessages.toNat - fromLog.length := by
    rw [PullState.room, hlogResult]
  have htaken := hretry.taken
  rw [hfresh, hroom] at htaken
  refine ⟨passed, rest, hretry, htaken, hroom, ?_, ?_⟩
  · rw [pull_result]
    refine hretry.result_eq.trans ?_
    rw [htaken, hlogResult]
  · refine hretry.pending_eq.trans ?_
    rw [htaken, hlogResult, hlogPending, addPending_append, Nat.zero_add]

/-- What a pull leaves of the retry queue. -/
theorem PullLoops.retryQueue_eq {td : TopicData} {c : Consumer} {maxMessages : UInt32}
    {nowMs : UInt64} {steadyNow : ℕ → ℤ} {fromLog retries passed rest : List StoredMessage}
    (h : PullLoops td c maxMessages nowMs steadyNow fromLog retries passed rest)
    (hlength : fromLog.length ≤ maxMessages.toNat) :
    td.retryQueue = passed ++ rest ∧
      (td.pull c maxMessages nowMs steadyNow).1.retryQueue =
        passed.filter (fun m => !m.isExpired nowMs && m ∉ retries) ++ rest ∧
      retries.Sublist passed ∧
      (rest ≠ [] → maxMessages.toNat ≤ (td.pull c maxMessages nowMs steadyNow).2.length) ∧
      ∀ before m after, passed = before ++ m :: after →
        fromLog.length + before.countP (fun m => m ∈ retries) < maxMessages.toNat := by
  refine ⟨h.retry.split, h.retry.queue_eq_filter h.taken, ?_, fun hrest => ?_,
    fun before m after heq => ?_⟩
  · rw [← h.taken]
    exact List.filter_sublist
  · have hfull := h.retry.full hrest
    rw [h.room_eq, List.countP_eq_length_filter, h.taken] at hfull
    rw [h.result_eq, List.length_append]
    omega
  · have hbefore := h.retry.countP_returned_lt h.taken heq
    rw [h.room_eq] at hbefore
    omega

/-- **A pull computes its specification.** On a sorted log whose identifiers do not wrap, with
one record for each identifier in the retry queue and pending entries below the offset. -/
theorem pull_computes (td : TopicData) (c : Consumer) (maxMessages : UInt32) (nowMs : UInt64)
    (steadyNow : ℕ → ℤ)
    (hsorted : td.drainRingBuffer.messageLog.Pairwise (·.id < ·.id))
    (hids : ∀ m ∈ td.drainRingBuffer.messageLog, 1 ≤ m.id ∧ m.id ≤ 2 ^ 64 - 2)
    (hqueue : (td.retryQueue.map StoredMessage.id).Nodup)
    (hpending : ∀ id ∈ td.pendingOf c.key, id < td.startOffset c) :
    let due := td.drainRingBuffer.messageLog.filter fun m =>
      td.startOffset c ≤ m.id && !m.isExpired nowMs
    let fresh := td.retryQueue.filter fun m => !m.isExpired nowMs && m.id ∉ td.pendingOf c.key &&
      m.id ∉ (due.take maxMessages.toNat).map StoredMessage.id
    PullComputes td c maxMessages.toNat nowMs steadyNow due fresh
      (td.pull c maxMessages nowMs steadyNow) := by
  intro due fresh
  set fromLog := due.take maxMessages.toNat with hfromLog
  set retries := fresh.take (maxMessages.toNat - fromLog.length) with hretries
  have hwrap : ∀ m ∈ td.drainRingBuffer.messageLog, m.id + 1 < 2 ^ 64 :=
    fun m hm => lt_of_le_of_lt (Nat.succ_le_succ (hids m hm).2) (by decide)
  have hlog := @pullLog_spec ⟨c.key, maxMessages, nowMs, steadyNow⟩ _
    (td.drainRingBuffer.pullStart c) hsorted hwrap hpending
  obtain ⟨passed, rest, hloops⟩ : ∃ passed rest,
      PullLoops td c maxMessages nowMs steadyNow fromLog retries passed rest :=
    exists_pullLoops hlog hqueue
  have hdueOf : ∀ m ∈ fromLog, td.startOffset c ≤ m.id ∧ m.isExpired nowMs = false := by
    intro m hm
    have hm := (List.mem_filter.mp (List.mem_of_mem_take hm)).2
    simpa only [Bool.and_eq_true, Bool.not_eq_true', decide_eq_true_iff] using hm
  have hfreshOf : ∀ m ∈ retries, (m.isExpired nowMs = false ∧ m.id ∉ td.pendingOf c.key) ∧
      m.id ∉ fromLog.map StoredMessage.id := by
    intro m hm
    have hm := (List.mem_filter.mp (List.mem_of_mem_take hm)).2
    simpa only [Bool.and_eq_true, Bool.not_eq_true', decide_eq_true_iff] using hm
  have hnodup : ((fromLog ++ retries).map StoredMessage.id).Nodup :=
    nodup_log_append_queue hsorted hqueue ((List.take_sublist _ _).trans List.filter_sublist)
      ((List.take_sublist _ _).trans List.filter_sublist) fun m hm => (hfreshOf m hm).2
  have hnew : ∀ m ∈ fromLog ++ retries, m.id ∉ td.pendingOf c.key := by
    intro m hm
    rcases List.mem_append.mp hm with hm | hm
    · exact fun hmem => absurd (hpending m.id hmem) (not_lt.mpr (hdueOf m hm).1)
    · exact (hfreshOf m hm).1.2
  refine ⟨?_, fun m hm => ?_, fun id p => ?_, ⟨passed, rest, ?_⟩, fun m hm => ?_, fun m hm => ?_,
    fun c' hne => ?_⟩
  · rw [hloops.result_eq, take_append_take_sub]
  · rw [hloops.result_eq] at hm
    rcases List.mem_append.mp hm with hm | hm
    · exact (hdueOf m hm).2
    · exact (hfreshOf m hm).1.1
  · rw [hloops.pendingOf_eq, lookup_addPending hnodup hnew, hloops.result_eq]
    simp only [Nat.zero_add]
  · exact hloops.retryQueue_eq (List.length_take_le _ _)
  · rw [pull_offset]
    refine hlog.pending_lt m.id (hlog.pending_eq ▸ mem_addPending.mpr (Or.inl ?_))
    exact List.mem_map_of_mem hm
  · have hdrop : due.drop maxMessages.toNat = dueMessages nowMs
        (td.pulledLog c maxMessages nowMs steadyNow).offset td.drainRingBuffer.messageLog :=
      hlog.due_eq.symm
    rw [hdrop] at hm
    have hle := (List.mem_filter.mp hm).2
    rw [Bool.and_eq_true, decide_eq_true_iff] at hle
    rw [pull_offset]
    exact hle.1
  · exact ⟨td.pull_offset_ne c maxMessages nowMs steadyNow hne,
      td.pull_pendingOf_ne c maxMessages nowMs steadyNow (Consumer.key_injective.ne hne)⟩

/-- A topic with a message that waits in the ring and a record in the retry queue. -/
def retriedTopic : TopicData :=
  (topic {}).run (ofName "t" 128) [
    .publish [97] 0 0 0, .pull ⟨false, "c"⟩ 1 0 fun _ => 0,
    .retryPass ⟨5000000000, 5000⟩ .canonical, .publish [98] 0 5000 5000]

/-- The consumer of the record gets the message first. -/
theorem pull_computes_retriedTopic :
    (retriedTopic.pull ⟨false, "c"⟩ 10 6000 fun _ => 6000000000).2 =
      [{ id := 2, payload := [98], timestamp := 5000 },
        { id := 1, payload := [97], timestamp := 0, retryCount := 1 }] := by
  have hnone : (retriedTopic.pendingOf (Consumer.key ⟨false, "c"⟩)).keys = [] := by decide +kernel
  have hpending : ∀ id ∈ retriedTopic.pendingOf (Consumer.key ⟨false, "c"⟩),
      id < retriedTopic.startOffset ⟨false, "c"⟩ :=
    fun id hid => absurd (eq_empty_of_keys_eq_nil hnone ▸ hid) (AList.notMem_empty id)
  have hcomputes := pull_computes retriedTopic ⟨false, "c"⟩ 10 6000 (fun _ => 6000000000)
    (by decide +kernel) (by decide +kernel) (by decide +kernel) hpending
  refine hcomputes.result_eq.trans ?_
  decide +kernel

end TopicData

end ProtoMsgQueue
