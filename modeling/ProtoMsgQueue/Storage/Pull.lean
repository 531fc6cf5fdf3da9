import ProtoMsgQueue.Storage.Log

/-!
# What a pull delivers

`Delivers` says what either loop of a pull does to the pending entries: it adds exactly
the messages it returns, under the consumer's key. `pullLog_spec` is the precise statement
about the loop over a sorted log: it returns the live messages from the offset on, as many
as asked for, and leaves the offset where the rest begins.
-/

namespace ProtoMsgQueue

open UnorderedMap

namespace TopicData

namespace PullState

variable (st : PullState) (args : PullArgs)

@[simp] theorem touchPending_result : (st.touchPending args).result = st.result := rfl

@[simp] theorem touchPending_offset : (st.touchPending args).offset = st.offset := rfl

@[simp] theorem touchPending_full : (st.touchPending args).full args = st.full args := rfl

@[simp] theorem touchPending_pendingMap :
    (st.touchPending args).pendingMap args = st.pendingMap args :=
  valueAt_touch _ _ _ _

@[simp] theorem deliver_result (msg : StoredMessage) :
    (st.deliver args msg).result = st.result ++ [msg] := rfl

@[simp] theorem deliver_offset (msg : StoredMessage) :
    (st.deliver args msg).offset = st.offset := rfl

@[simp] theorem deliver_pendingMap (msg : StoredMessage) :
    (st.deliver args msg).pendingMap args =
      (st.pendingMap args).insert msg.id ⟨msg, args.steadyNow st.result.length⟩ :=
  valueAt_insert _ _ _ _

theorem touchPending_other (key : String) :
    valueAt (st.touchPending args).pendingAcks key ∅ = valueAt st.pendingAcks key ∅ :=
  valueAt_touch _ _ _ _

theorem deliver_other (msg : StoredMessage) {key : String} (h : key ≠ args.consumerKey) :
    valueAt (st.deliver args msg).pendingAcks key ∅ = valueAt st.pendingAcks key ∅ :=
  valueAt_insert_ne _ _ _ h

end PullState

/-! ### Pending entries -/

/-- Between two states of a pull, the messages `new` of `source` were returned and made
pending for the consumer; other entries are unchanged. -/
structure Delivers (args : PullArgs) (source : List StoredMessage) (st st' : PullState)
    (new : List StoredMessage) : Prop where
  result_eq : st'.result = st.result ++ new
  mem_source : ∀ m ∈ new, m ∈ source ∧ m.isExpired args.nowMs = false
  mem_pending : ∀ m ∈ new, m.id ∈ st'.pendingMap args
  lookup_old : ∀ id p, (st.pendingMap args).lookup id = some p →
    (st'.pendingMap args).lookup id = some p
  lookup_new : ∀ id p, (st'.pendingMap args).lookup id = some p →
    (st.pendingMap args).lookup id = some p ∨ p.msg ∈ new ∧ p.msg.id = id
  other : ∀ key, key ≠ args.consumerKey →
    valueAt st'.pendingAcks key ∅ = valueAt st.pendingAcks key ∅

namespace Delivers

variable {args : PullArgs} {source source' new new' : List StoredMessage}
  {st st₁ st₂ : PullState}

/-- Nothing is delivered by a step that keeps result and pending entries. -/
theorem of_eq (hresult : st₁.result = st.result)
    (hpending : st₁.pendingMap args = st.pendingMap args)
    (hother : ∀ key, key ≠ args.consumerKey →
      valueAt st₁.pendingAcks key ∅ = valueAt st.pendingAcks key ∅) :
    Delivers args source st st₁ [] where
  result_eq := by rw [hresult, List.append_nil]
  mem_source := by simp
  mem_pending := by simp
  lookup_old := by simp [hpending]
  lookup_new := by simp [hpending]
  other := hother

theorem refl (st : PullState) : Delivers args source st st [] :=
  of_eq rfl rfl fun _ _ => rfl

/-- One delivery. -/
theorem deliver (st : PullState) {msg : StoredMessage}
    (hlive : msg.isExpired args.nowMs = false) (hnew : msg.id ∉ st.pendingMap args) :
    Delivers args (msg :: source) st (st.deliver args msg) [msg] where
  result_eq := rfl
  mem_source := by simp [hlive]
  mem_pending := by simp
  lookup_old id p hp := by
    have hne : id ≠ msg.id := by
      rintro rfl
      rw [AList.lookup_eq_none.mpr hnew] at hp
      cases hp
    rw [PullState.deliver_pendingMap, AList.lookup_insert_ne hne, hp]
  lookup_new id p hp := by
    rw [PullState.deliver_pendingMap] at hp
    rcases eq_or_ne id msg.id with rfl | hne
    · rw [AList.lookup_insert, Option.some_inj] at hp
      subst hp
      exact .inr ⟨List.mem_singleton_self _, rfl⟩
    · rw [AList.lookup_insert_ne hne] at hp
      exact .inl hp
  other key hkey := PullState.deliver_other st args msg hkey

/-- Entries are only added. -/
theorem mem_mono (h : Delivers args source st st₁ new) {id : MessageId}
    (hid : id ∈ st.pendingMap args) : id ∈ st₁.pendingMap args := by
  obtain ⟨p, hp⟩ := mem_iff_exists_lookup.mp hid
  exact mem_iff_exists_lookup.mpr ⟨p, h.lookup_old id p hp⟩

theorem trans (h₁ : Delivers args source st st₁ new) (h₂ : Delivers args source st₁ st₂ new') :
    Delivers args source st st₂ (new ++ new') where
  result_eq := by rw [h₂.result_eq, h₁.result_eq, List.append_assoc]
  mem_source m hm := (List.mem_append.mp hm).elim (h₁.mem_source m) (h₂.mem_source m)
  mem_pending m hm :=
    (List.mem_append.mp hm).elim (fun h => h₂.mem_mono (h₁.mem_pending m h)) (h₂.mem_pending m)
  lookup_old id p hp := h₂.lookup_old id p (h₁.lookup_old id p hp)
  lookup_new id p hp := by
    rcases h₂.lookup_new id p hp with hp | ⟨hmem, hid⟩
    · rcases h₁.lookup_new id p hp with hp | ⟨hmem, hid⟩
      · exact .inl hp
      · exact .inr ⟨List.mem_append_left _ hmem, hid⟩
    · exact .inr ⟨List.mem_append_right _ hmem, hid⟩
  other key hkey := (h₂.other key hkey).trans (h₁.other key hkey)

theorem mono (h : Delivers args source st st₁ new) (hsub : source ⊆ source') :
    Delivers args source' st st₁ new :=
  { h with mem_source := fun m hm => ⟨hsub (h.mem_source m hm).1, (h.mem_source m hm).2⟩ }

end Delivers

/-- The loop over the log delivers messages of the log. -/
theorem pullLog_delivers (args : PullArgs) (log : List StoredMessage) (st : PullState) :
    ∃ new, Delivers args log st (pullLog args log st) new := by
  induction log generalizing st with
  | nil => exact ⟨[], .refl st⟩
  | cons msg log ih =>
    -- the branches that return nothing: expired, or below the offset
    have skip : ∀ st₁, st₁.result = st.result → st₁.pendingAcks = st.pendingAcks →
        ∃ new, Delivers args (msg :: log) st (pullLog args log st₁) new := by
      intro st₁ hresult hpending
      obtain ⟨new, h⟩ := ih st₁
      refine ⟨[] ++ new, Delivers.trans (.of_eq hresult ?_ ?_) (h.mono (List.subset_cons_self _ _))⟩
      · rw [PullState.pendingMap, hpending, PullState.pendingMap]
      · intro key _
        rw [hpending]
    -- the lookup by `operator[]` leaves an empty map behind, which is no entry
    have htouch : Delivers args (msg :: log) st (st.touchPending args) [] :=
      .of_eq rfl (st.touchPending_pendingMap args) fun key _ => st.touchPending_other args key
    rw [pullLog]
    split
    · exact ⟨[], .refl st⟩
    split
    · split
      · exact skip _ rfl rfl
      · rename_i hlive
        dsimp only
        split
        · obtain ⟨new, h⟩ := ih (st.touchPending args)
          exact ⟨[] ++ new, htouch.trans (h.mono (List.subset_cons_self _ _))⟩
        · rename_i hnew
          have hdeliver : Delivers args (msg :: log) (st.touchPending args)
              { (st.touchPending args).deliver args msg with offset := (msg.id + 1) % 2 ^ 64 }
              [msg] :=
            { Delivers.deliver (st.touchPending args) (by simpa using hlive) hnew with }
          obtain ⟨new, h⟩ := ih
            { (st.touchPending args).deliver args msg with offset := (msg.id + 1) % 2 ^ 64 }
          exact ⟨[] ++ ([msg] ++ new),
            htouch.trans (hdeliver.trans (h.mono (List.subset_cons_self _ _)))⟩
    · exact skip st rfl rfl

/-- Where the loop over the log leaves the offset, on any log. -/
theorem pullLog_offset_cases (args : PullArgs) (log : List StoredMessage) (st : PullState) :
    (pullLog args log st).offset = st.offset ∨
      ∃ m ∈ log, (pullLog args log st).offset = (m.id + 1) % 2 ^ 64 := by
  induction log generalizing st with
  | nil => exact .inl rfl
  | cons msg log ih =>
    -- the offset moved to `msg`, or was kept, and the rest of the loop follows
    have hmove : ∀ st₁ : PullState,
        st₁.offset = st.offset ∨ st₁.offset = (msg.id + 1) % 2 ^ 64 →
        (pullLog args log st₁).offset = st.offset ∨
          ∃ m ∈ msg :: log, (pullLog args log st₁).offset = (m.id + 1) % 2 ^ 64 := by
      intro st₁ hst₁
      rcases ih st₁ with heq | ⟨m, hm, heq⟩
      · rw [heq]
        exact hst₁.imp_right fun h => ⟨msg, List.mem_cons_self, h⟩
      · exact .inr ⟨m, List.mem_cons_of_mem _ hm, heq⟩
    rw [pullLog]
    split
    · exact .inl rfl
    split
    · split
      · exact hmove _ (.inr rfl)
      · dsimp only
        split
        · exact hmove _ (.inl rfl)
        · exact hmove _ (.inr rfl)
    · exact hmove _ (.inl rfl)

/-- **The loop over the retry queue.** What it keeps is a part of the queue, in order, and
every message that left it had expired or was delivered; the offset is not touched. -/
theorem pullRetry_spec (args : PullArgs) (queue : List StoredMessage) (st : PullState) :
    (∃ new, Delivers args queue st (pullRetry args queue st).2 new) ∧
      (pullRetry args queue st).1.Sublist queue ∧
      (∀ m ∈ queue, m ∈ (pullRetry args queue st).1 ∨ m.isExpired args.nowMs = true ∨
        m.id ∈ (pullRetry args queue st).2.pendingMap args) ∧
      (pullRetry args queue st).2.offset = st.offset := by
  induction queue generalizing st with
  | nil => exact ⟨⟨[], .refl st⟩, .slnil, by simp, rfl⟩
  | cons msg queue ih =>
    have htouch : Delivers args (msg :: queue) st (st.touchPending args) [] :=
      .of_eq rfl (st.touchPending_pendingMap args) fun key _ => st.touchPending_other args key
    have hsub := List.subset_cons_self msg queue
    rw [pullRetry]
    split
    · exact ⟨⟨[], .refl st⟩, List.Sublist.refl _, fun m hm => .inl hm, rfl⟩
    split
    · -- expired: the record is erased without being returned
      rename_i hexp
      obtain ⟨⟨new, h⟩, hkept, hall, hoffset⟩ := ih st
      refine ⟨⟨new, h.mono hsub⟩, hkept.cons _, ?_, hoffset⟩
      intro m hm
      rcases List.mem_cons.mp hm with rfl | hm
      · exact .inr (.inl hexp)
      · exact hall m hm
    · rename_i hlive
      dsimp only
      split
      · -- pending already: the record stays in the queue
        rename_i hpending
        obtain ⟨⟨new, h⟩, hkept, hall, hoffset⟩ := ih (st.touchPending args)
        refine ⟨⟨[] ++ new, htouch.trans (h.mono hsub)⟩, hkept.cons_cons _, ?_, hoffset⟩
        intro m hm
        rcases List.mem_cons.mp hm with rfl | hm
        · exact .inl List.mem_cons_self
        · exact (hall m hm).imp_left (List.mem_cons_of_mem _)
      · -- delivered: the record is erased and its message becomes pending
        rename_i hnew
        have hdeliver : Delivers args (msg :: queue) (st.touchPending args)
            ((st.touchPending args).deliver args msg) [msg] :=
          Delivers.deliver _ (by simpa using hlive) hnew
        obtain ⟨⟨new, h⟩, hkept, hall, hoffset⟩ := ih ((st.touchPending args).deliver args msg)
        refine ⟨⟨[] ++ ([msg] ++ new), htouch.trans (hdeliver.trans (h.mono hsub))⟩,
          hkept.cons _, ?_, hoffset⟩
        intro m hm
        rcases List.mem_cons.mp hm with rfl | hm
        · exact .inr (.inr (h.mem_mono (hdeliver.mem_pending _ (by simp))))
        · exact hall m hm

/-- A full pull does not look at the retry queue. -/
theorem pullRetry_of_full {args : PullArgs} (queue : List StoredMessage) {st : PullState}
    (hfull : st.full args = true) : pullRetry args queue st = (queue, st) := by
  cases queue with
  | nil => rfl
  | cons msg queue => rw [pullRetry, if_pos hfull]

/-- The loop erases an expired record. -/
theorem pullRetry_of_expired {args : PullArgs} {msg : StoredMessage} (queue : List StoredMessage)
    {st : PullState} (hfull : st.full args = false) (hexp : msg.isExpired args.nowMs = true) :
    pullRetry args (msg :: queue) st = pullRetry args queue st := by
  rw [pullRetry, if_neg (Bool.eq_false_iff.mp hfull), if_pos hexp]

/-- The turn of the loop at a live record. -/
theorem pullRetry_of_live {args : PullArgs} {msg : StoredMessage} (queue : List StoredMessage)
    {st : PullState} (hfull : st.full args = false) (hlive : msg.isExpired args.nowMs = false) :
    pullRetry args (msg :: queue) st =
      if msg.id ∈ st.pendingMap args then
        (msg :: (pullRetry args queue (st.touchPending args)).1,
          (pullRetry args queue (st.touchPending args)).2)
      else pullRetry args queue ((st.touchPending args).deliver args msg) := by
  rw [pullRetry, if_neg (Bool.eq_false_iff.mp hfull), if_neg (Bool.eq_false_iff.mp hlive)]
  dsimp only
  rw [PullState.touchPending_pendingMap]

/-! ### The loop over a sorted log -/

/-- The messages of the log that are live and not yet reached by the offset. -/
def dueMessages (nowMs : UInt64) (offset : MessageId) (log : List StoredMessage) :
    List StoredMessage :=
  log.filter fun m => offset ≤ m.id && !m.isExpired nowMs

/-- The pending entries after delivering messages one by one, the first at the `n`-th
reading of the steady clock. -/
def addPending (steadyNow : ℕ → ℤ) : ℕ → List StoredMessage → PendingMap → PendingMap
  | _, [], pending => pending
  | n, m :: ms, pending => addPending steadyNow (n + 1) ms (pending.insert m.id ⟨m, steadyNow n⟩)

/-- How many more messages a pull may return. -/
def PullState.room (st : PullState) (args : PullArgs) : ℕ :=
  args.maxMessages.toNat - st.result.length

namespace PullState

variable {st : PullState} {args : PullArgs}

theorem room_eq_zero (h : st.full args = true) : st.room args = 0 :=
  Nat.sub_eq_zero_of_le (of_decide_eq_true h)

theorem room_pos (h : ¬st.full args = true) : 0 < st.room args := by
  rw [full, decide_eq_true_iff, not_le] at h
  exact Nat.sub_pos_of_lt h

/-- Delivering a message takes one place. -/
theorem room_deliver (h : ¬st.full args = true) (msg : StoredMessage) :
    st.room args = (st.deliver args msg).room args + 1 := by
  have hpos := room_pos h
  rw [room] at hpos
  rw [room, room, deliver_result, List.length_append, List.length_singleton]
  omega

end PullState

/-- On a log sorted by identifier the due messages after a message are those from the next
identifier on. -/
private theorem dueMessages_tail {nowMs : UInt64} {offset : MessageId} {msg : StoredMessage}
    {log : List StoredMessage} (hsorted : (msg :: log).Pairwise (·.id < ·.id))
    (hle : offset ≤ msg.id) : dueMessages nowMs (msg.id + 1) log = dueMessages nowMs offset log := by
  refine List.filter_congr fun m hm => ?_
  have hlt : msg.id < m.id := List.rel_of_pairwise_cons hsorted hm
  simp [show msg.id + 1 ≤ m.id from hlt, show offset ≤ m.id from hle.trans hlt.le]

/-- What the loop over a sorted log does, if the identifiers do not wrap and the pending
entries are below the offset. -/
structure LogPull (args : PullArgs) (log : List StoredMessage) (st st' : PullState) : Prop where
  result_eq : st'.result =
    st.result ++ (dueMessages args.nowMs st.offset log).take (st.room args)
  due_eq : dueMessages args.nowMs st'.offset log =
    (dueMessages args.nowMs st.offset log).drop (st.room args)
  pending_eq : st'.pendingMap args = addPending args.steadyNow st.result.length
    ((dueMessages args.nowMs st.offset log).take (st.room args)) (st.pendingMap args)
  pending_lt : ∀ id ∈ st'.pendingMap args, id < st'.offset
  offset_le : st.offset ≤ st'.offset
  offset_cases : st'.offset = st.offset ∨ ∃ m ∈ log, st'.offset = m.id + 1

namespace LogPull

variable {args : PullArgs} {log : List StoredMessage} {msg : StoredMessage} {st st' : PullState}

/-- Where the offset stands behind a message of the tail, it stands behind one of the log. -/
private theorem offset_cons {offset : MessageId}
    (h : offset = msg.id + 1 ∨ ∃ m ∈ log, offset = m.id + 1) :
    ∃ m ∈ msg :: log, offset = m.id + 1 := by
  rcases h with h | ⟨m, hm, h⟩
  · exact ⟨msg, List.mem_cons_self, h⟩
  · exact ⟨m, List.mem_cons_of_mem _ hm, h⟩

/-- The loop does nothing when there is no room. -/
theorem of_full (log : List StoredMessage) (hfull : st.full args = true)
    (hpending : ∀ id ∈ st.pendingMap args, id < st.offset) : LogPull args log st st := by
  have hroom := PullState.room_eq_zero hfull
  exact ⟨by simp [hroom], by simp [hroom], by simp [hroom, addPending], hpending, le_rfl, .inl rfl⟩

/-- The loop passes over a message below the offset. -/
theorem cons_below (hlt : ¬st.offset ≤ msg.id) (h : LogPull args log st st') :
    LogPull args (msg :: log) st st' := by
  have hdue : dueMessages args.nowMs st.offset (msg :: log) =
      dueMessages args.nowMs st.offset log := by
    simp [dueMessages, hlt]
  refine ⟨by rw [hdue]; exact h.result_eq, ?_, by rw [hdue]; exact h.pending_eq, h.pending_lt,
    h.offset_le, ?_⟩
  · rw [hdue, ← h.due_eq]
    have hlt' : ¬ st'.offset ≤ msg.id := fun hle => hlt (h.offset_le.trans hle)
    simp [dueMessages, hlt']
  · exact h.offset_cases.imp_right fun hcases => offset_cons (.inr hcases)

/-- The loop moves the offset behind an expired message. -/
theorem cons_expired (hsorted : (msg :: log).Pairwise (·.id < ·.id)) (hle : st.offset ≤ msg.id)
    (hexp : msg.isExpired args.nowMs = true)
    (h : LogPull args log { st with offset := msg.id + 1 } st') :
    LogPull args (msg :: log) st st' := by
  have hdue : dueMessages args.nowMs st.offset (msg :: log) =
      dueMessages args.nowMs (msg.id + 1) log := by
    rw [dueMessages_tail hsorted hle]
    simp [dueMessages, hexp]
  refine ⟨by rw [hdue]; exact h.result_eq, ?_, by rw [hdue]; exact h.pending_eq, h.pending_lt,
    hle.trans ((Nat.le_succ _).trans h.offset_le), .inr (offset_cons h.offset_cases)⟩
  rw [hdue]
  refine Eq.trans ?_ h.due_eq
  simp [dueMessages, hexp]

/-- The loop delivers a live message and moves the offset behind it. -/
theorem cons_delivered (hsorted : (msg :: log).Pairwise (·.id < ·.id))
    (hroom : ¬st.full args = true) (hle : st.offset ≤ msg.id)
    (hlive : ¬msg.isExpired args.nowMs = true)
    (h : LogPull args log
      { (st.touchPending args).deliver args msg with offset := msg.id + 1 } st') :
    LogPull args (msg :: log) st st' := by
  have hdue : dueMessages args.nowMs st.offset (msg :: log) =
      msg :: dueMessages args.nowMs (msg.id + 1) log := by
    rw [dueMessages_tail hsorted hle]
    simp [dueMessages, hle, hlive]
  set st₁ : PullState :=
    { (st.touchPending args).deliver args msg with offset := msg.id + 1 } with hst₁
  have hmap₁ : st₁.pendingMap args =
      (st.pendingMap args).insert msg.id ⟨msg, args.steadyNow st.result.length⟩ := by
    change ((st.touchPending args).deliver args msg).pendingMap args = _
    simp
  have hroom₁ : st.room args = st₁.room args + 1 :=
    @PullState.room_deliver (st.touchPending args) args hroom msg
  refine ⟨?_, ?_, ?_, h.pending_lt, hle.trans ((Nat.le_succ _).trans h.offset_le),
    .inr (offset_cons h.offset_cases)⟩
  · rw [h.result_eq, hdue, hroom₁, List.take_succ_cons]
    simp [hst₁]
  · rw [hdue, hroom₁, List.drop_succ_cons, ← h.due_eq]
    have hlt' : ¬ st'.offset ≤ msg.id := not_le.mpr h.offset_le
    simp [dueMessages, hlt']
  · rw [h.pending_eq, hdue, hroom₁, List.take_succ_cons, addPending, hmap₁]
    simp [hst₁]

end LogPull

theorem pullLog_spec {args : PullArgs} {log : List StoredMessage} {st : PullState}
    (hsorted : log.Pairwise (·.id < ·.id)) (hwrap : ∀ m ∈ log, m.id + 1 < 2 ^ 64)
    (hpending : ∀ id ∈ st.pendingMap args, id < st.offset) :
    LogPull args log st (pullLog args log st) := by
  induction log generalizing st with
  | nil => exact ⟨by simp [pullLog, dueMessages], by simp [dueMessages],
      by simp [pullLog, dueMessages, addPending], hpending, le_rfl, .inl rfl⟩
  | cons msg log ih =>
    have hid : (msg.id + 1) % 2 ^ 64 = msg.id + 1 := Nat.mod_eq_of_lt (hwrap msg (by simp))
    have htail := List.Pairwise.of_cons hsorted
    have hwrap' : ∀ m ∈ log, m.id + 1 < 2 ^ 64 := fun m hm => hwrap m (List.mem_cons_of_mem _ hm)
    rw [pullLog]
    split
    · rename_i hfull
      exact LogPull.of_full _ hfull hpending
    rename_i hroom
    split
    swap
    · rename_i hlt
      exact LogPull.cons_below hlt (ih htail hwrap' hpending)
    rename_i hle
    have hbelow : ∀ id ∈ st.pendingMap args, id < msg.id + 1 :=
      fun id hmem => (hpending id hmem).trans_le (hle.trans (Nat.le_succ _))
    split
    · rename_i hexp
      rw [hid]
      exact LogPull.cons_expired hsorted hle hexp
        (@ih { st with offset := msg.id + 1 } htail hwrap' hbelow)
    · -- live: delivered, since pending entries are below the offset
      rename_i hlive
      have hnew : msg.id ∉ st.pendingMap args := fun h => absurd (hpending _ h) (not_lt.mpr hle)
      dsimp only
      rw [if_neg (by rwa [PullState.touchPending_pendingMap]), hid]
      refine LogPull.cons_delivered hsorted hroom hle hlive (ih htail hwrap' fun id h => ?_)
      change id ∈ ((st.touchPending args).deliver args msg).pendingMap args at h
      rw [PullState.deliver_pendingMap, AList.mem_insert, PullState.touchPending_pendingMap] at h
      rcases h with rfl | h
      · exact Nat.lt_succ_self _
      · exact hbelow id h

/-! ### The whole pull -/

section SetOffset

variable (td : TopicData) (c : Consumer) (value : MessageId)

@[simp] theorem setOffset_ringBuffer : (td.setOffset c value).ringBuffer = td.ringBuffer := by
  rw [setOffset]
  split <;> rfl

@[simp] theorem setOffset_messageLog : (td.setOffset c value).messageLog = td.messageLog := by
  rw [setOffset]
  split <;> rfl

@[simp] theorem setOffset_nextMsgId : (td.setOffset c value).nextMsgId = td.nextMsgId := by
  rw [setOffset]
  split <;> rfl

@[simp] theorem setOffset_offset : (td.setOffset c value).offset c = value := by
  rw [setOffset, offset]
  split
  · exact valueAt_insert _ _ _ _
  · exact valueAt_insert _ _ _ _

/-- Another consumer's offset is kept, also that of a subscriber with a group's name. -/
theorem setOffset_offset_ne {c' : Consumer} (h : c' ≠ c) :
    (td.setOffset c value).offset c' = td.offset c' := by
  have hkey : c'.key ≠ c.key := fun hk => h (Consumer.key_injective hk)
  rw [setOffset]
  cases hg : c.isGroup <;> cases hg' : c'.isGroup <;>
    simp [offset, hg', valueAt_insert_ne _ _ _ hkey]

end SetOffset

section Pull

variable (td : TopicData) (c : Consumer) (maxMessages : UInt32) (nowMs : UInt64)
  (steadyNow : ℕ → ℤ)

/-- The state of a pull after the loop over the log. -/
def pulledLog : PullState :=
  pullLog ⟨c.key, maxMessages, nowMs, steadyNow⟩ td.drainRingBuffer.messageLog
    (td.drainRingBuffer.pullStart c)

/-- The remaining retry queue and the state of a pull after both loops. -/
def pulledRetry : List StoredMessage × PullState :=
  pullRetry ⟨c.key, maxMessages, nowMs, steadyNow⟩ td.retryQueue
    (td.pulledLog c maxMessages nowMs steadyNow)

theorem pull_result : (td.pull c maxMessages nowMs steadyNow).2 =
    (td.pulledRetry c maxMessages nowMs steadyNow).2.result := rfl

theorem pull_messageLog : (td.pull c maxMessages nowMs steadyNow).1.messageLog =
    td.drainRingBuffer.messageLog :=
  setOffset_messageLog _ _ _

theorem pull_ringBuffer : (td.pull c maxMessages nowMs steadyNow).1.ringBuffer =
    td.drainRingBuffer.ringBuffer :=
  setOffset_ringBuffer _ _ _

theorem pull_nextMsgId : (td.pull c maxMessages nowMs steadyNow).1.nextMsgId = td.nextMsgId :=
  setOffset_nextMsgId _ _ _

theorem pull_offset : (td.pull c maxMessages nowMs steadyNow).1.offset c =
    (td.pulledLog c maxMessages nowMs steadyNow).offset := by
  have hretry := (pullRetry_spec ⟨c.key, maxMessages, nowMs, steadyNow⟩ td.retryQueue
    (td.pulledLog c maxMessages nowMs steadyNow)).2.2.2
  rw [← hretry]
  exact setOffset_offset _ _ _

theorem pull_offset_ne {c' : Consumer} (h : c' ≠ c) :
    (td.pull c maxMessages nowMs steadyNow).1.offset c' = td.offset c' :=
  setOffset_offset_ne _ _ _ h

/-- **What a pull delivers**: messages of the log, then messages of the retry queue. -/
theorem pull_delivers : ∃ fromLog fromQueue,
    Delivers ⟨c.key, maxMessages, nowMs, steadyNow⟩ td.drainRingBuffer.messageLog
      (td.drainRingBuffer.pullStart c) (td.pulledLog c maxMessages nowMs steadyNow) fromLog ∧
    Delivers ⟨c.key, maxMessages, nowMs, steadyNow⟩ td.retryQueue
      (td.pulledLog c maxMessages nowMs steadyNow)
      (td.pulledRetry c maxMessages nowMs steadyNow).2 fromQueue ∧
    (td.pull c maxMessages nowMs steadyNow).2 = fromLog ++ fromQueue := by
  obtain ⟨fromLog, hlog⟩ := pullLog_delivers ⟨c.key, maxMessages, nowMs, steadyNow⟩
    td.drainRingBuffer.messageLog (td.drainRingBuffer.pullStart c)
  obtain ⟨fromQueue, hqueue⟩ := (pullRetry_spec ⟨c.key, maxMessages, nowMs, steadyNow⟩
    td.retryQueue (td.pulledLog c maxMessages nowMs steadyNow)).1
  refine ⟨fromLog, fromQueue, hlog, hqueue, ?_⟩
  rw [pull_result]
  refine hqueue.result_eq.trans ?_
  rw [pulledLog, hlog.result_eq]
  rfl

/-- A pull does not touch the entries of other consumers. -/
theorem pull_pendingOf_ne {key : String} (h : key ≠ c.key) :
    (td.pull c maxMessages nowMs steadyNow).1.pendingOf key = td.pendingOf key := by
  obtain ⟨fromLog, fromQueue, hlog, hqueue, -⟩ := td.pull_delivers c maxMessages nowMs steadyNow
  exact (hqueue.other key h).trans (hlog.other key h)

/-- Where a pending entry after a pull comes from: it was there before, or the pull
delivered its message from the log or from the retry queue. -/
theorem pull_lookup {key : String} {msgId : MessageId} {p : PendingMessage}
    (h : ((td.pull c maxMessages nowMs steadyNow).1.pendingOf key).lookup msgId = some p) :
    (td.pendingOf key).lookup msgId = some p ∨
      (key = c.key ∧ p.msg.id = msgId ∧ p.msg ∈ (td.pull c maxMessages nowMs steadyNow).2 ∧
        (p.msg ∈ td.drainRingBuffer.messageLog ∨ p.msg ∈ td.retryQueue)) := by
  rcases eq_or_ne key c.key with rfl | hne
  · obtain ⟨fromLog, fromQueue, hlog, hqueue, hmsgs⟩ := td.pull_delivers c maxMessages nowMs steadyNow
    rw [hmsgs, List.mem_append]
    rcases hqueue.lookup_new msgId p h with h | ⟨hmem, hid⟩
    · rcases hlog.lookup_new msgId p h with h | ⟨hmem, hid⟩
      · exact .inl h
      · exact .inr ⟨rfl, hid, .inl hmem, .inl (hlog.mem_source _ hmem).1⟩
    · exact .inr ⟨rfl, hid, .inr hmem, .inr (hqueue.mem_source _ hmem).1⟩
  · rw [td.pull_pendingOf_ne c maxMessages nowMs steadyNow hne] at h
    exact .inl h

end Pull

/-! ### Acknowledgements -/

/-- An acknowledgement succeeds iff the message is pending. -/
theorem ack_result (td : TopicData) (c : Consumer) (msgId : MessageId) :
    (td.ack c msgId).2 = decide (msgId ∈ td.pendingOf c.key) := by
  simp only [ack, valueAt_touch, pendingOf]
  split <;> simp_all

/-- It removes the entry. -/
theorem ack_pendingOf (td : TopicData) (c : Consumer) (msgId : MessageId) :
    (td.ack c msgId).1.pendingOf c.key = (td.pendingOf c.key).erase msgId := by
  simp only [ack, valueAt_touch]
  split
  · exact valueAt_insert _ _ _ _
  · rename_i hmem
    refine (valueAt_touch _ _ _ _).trans (AList.ext ?_)
    exact (List.kerase_of_notMem_keys hmem).symm

/-- It does not touch the entries of other consumers. -/
theorem ack_pendingOf_ne (td : TopicData) (c : Consumer) (msgId : MessageId) {key : String}
    (h : key ≠ c.key) : (td.ack c msgId).1.pendingOf key = td.pendingOf key := by
  simp only [ack, valueAt_touch]
  split
  · exact (valueAt_insert_ne _ _ _ h).trans (valueAt_touch _ _ _ _)
  · exact valueAt_touch _ _ _ _

/-- What is pending after an acknowledgement: all but the acknowledged entry. -/
theorem ack_lookup (td : TopicData) (c : Consumer) (msgId : MessageId) (key : String)
    (id : MessageId) (p : PendingMessage) :
    ((td.ack c msgId).1.pendingOf key).lookup id = some p ↔
      (td.pendingOf key).lookup id = some p ∧ ¬ (key = c.key ∧ id = msgId) := by
  rcases eq_or_ne key c.key with rfl | hne
  · rw [ack_pendingOf]
    rcases eq_or_ne id msgId with rfl | hid
    · rw [AList.lookup_erase]
      simp
    · rw [AList.lookup_erase_ne hid]
      simp [hid]
  · rw [ack_pendingOf_ne td c msgId hne]
    simp [hne]

/-- An acknowledgement adds no pending entry. -/
theorem mem_pendingOf_of_ack {td : TopicData} {c : Consumer} {msgId : MessageId} {key : String}
    {id : MessageId} (h : id ∈ (td.ack c msgId).1.pendingOf key) : id ∈ td.pendingOf key := by
  obtain ⟨p, hp⟩ := mem_iff_exists_lookup.mp h
  exact mem_iff_exists_lookup.mpr ⟨p, ((ack_lookup td c msgId key id p).mp hp).1⟩

/-- It changes nothing but the pending entries. -/
theorem ack_frame (td : TopicData) (c : Consumer) (msgId : MessageId) :
    ∃ pendingAcks, (td.ack c msgId).1 = { td with pendingAcks := pendingAcks } := by
  simp only [ack]
  split
  · exact ⟨_, rfl⟩
  · exact ⟨_, rfl⟩

end TopicData

end ProtoMsgQueue
