import Mathlib.Data.List.TakeWhile
import ProtoMsgQueue.Storage.Passes
import ProtoMsgQueue.Storage.Pull

/-!
# The invariant of a topic

`Consistent` ties the parts of a topic to the history of its operations. The accepted
messages are those drained into the log followed by those waiting in the ring buffer, with
increasing identifiers; offsets never pass a waiting message; every retry record and every
pending entry is a message of the log, and pending identifiers lie below the offset of
their consumer, whichever way they were delivered. One lemma for each operation, and
`consistent_run` for whole runs.
-/

namespace ProtoMsgQueue

open UnorderedMap

/-- The publishes of a history. -/
def publishCount (h : List TopicEvent) : ℕ := publishes (h.map StepMachine.Event.input)

/-- Identifiers do not wrap, and the size fields of accepted records fit. -/
structure Bounded (h : List TopicEvent) : Prop where
  publishes_lt : publishCount h < 2 ^ 64 - 2
  size_lt : ∀ m ∈ accepted h, kRecordHeaderSize + m.payload.length < 2 ^ 32

@[simp] theorem publishCount_concat (h : List TopicEvent) (e : TopicEvent) :
    publishCount (h ++ [e]) = publishCount h + if e.input.isPublish then 1 else 0 := by
  rw [publishCount, publishes, List.map_append, List.countP_append]
  simp [publishCount, publishes, List.countP_cons]

/-- A history within the bounds has its prefixes within them. -/
theorem Bounded.of_concat {h : List TopicEvent} {e : TopicEvent} (hb : Bounded (h ++ [e])) :
    Bounded h where
  publishes_lt := lt_of_le_of_lt (Nat.le_add_right _ _) (publishCount_concat h e ▸ hb.publishes_lt)
  size_lt m hm := hb.size_lt m (by rw [accepted_concat]; exact List.mem_append_left _ hm)

/-- An operation that publishes nothing leaves the accepted messages alone. -/
theorem accepted_concat_of_not_publish (h : List TopicEvent) {e : TopicEvent}
    (hpub : e.input.isPublish = false) :
    accepted (h ++ [e]) = accepted h ∧ publishCount (h ++ [e]) = publishCount h := by
  have hnone : acceptedMessage e = none := by
    obtain ⟨pre, input, output⟩ := e
    cases input with
    | publish => cases hpub
    | _ => rfl
  rw [accepted_concat, hnone, publishCount_concat, hpub]
  simp

/-- A run within the bounds stays within them at every step. -/
theorem Bounded.along {cfg : StoreConfig} {td : TopicData} {ops : List TopicOp}
    (hb : Bounded ((topic cfg).trace td ops)) :
    (topic cfg).Along (fun h e => Bounded (h ++ [e])) td ops := by
  induction ops using List.reverseRecOn with
  | nil => exact (topic cfg).along_nil _ _
  | append_singleton ops op ih =>
    rw [StepMachine.trace_concat] at hb
    exact (topic cfg).along_concat.mpr ⟨ih hb.of_concat, hb⟩

/-- An expiration pass removed the message from the log. -/
def ExpiredByPass (m : StoredMessage) (e : TopicEvent) : Prop :=
  ∃ nowMs, e.input = .expirePass nowMs ∧ m ∈ e.pre.messageLog ∧ m.isExpired nowMs = true

namespace TopicData

/-- The invariant of a topic, with the accepted messages split into drained and waiting
ones. -/
structure Consistent (h : List TopicEvent) (td : TopicData)
    (drained waiting : List StoredMessage) : Prop where
  next_eq : td.nextMsgId = publishCount h + 1
  accepted_eq : accepted h = drained ++ waiting
  holds : ∃ H, td.ringBuffer.Holds H (waiting.map StoredMessage.record)
  fresh : ∀ m ∈ accepted h, m.Fresh
  sorted : (accepted h).Pairwise (·.id < ·.id)
  id_pos : ∀ m ∈ accepted h, 1 ≤ m.id
  id_lt : ∀ m ∈ accepted h, m.id < td.nextMsgId
  poppable : ∀ m ∈ drained, m.poppable = true
  log : td.messageLog.Sublist drained
  gone : ∀ m ∈ drained, m ∈ td.messageLog ∨ ∃ e ∈ h, ExpiredByPass m e
  offset_next : ∀ c, td.offset c ≤ td.nextMsgId
  offset_waiting : ∀ c, ∀ m ∈ waiting, td.offset c ≤ m.id
  queue : ∀ r ∈ td.retryQueue, 1 ≤ r.retryCount ∧ r.firstDelivery ∈ td.messageLog
  pending : ∀ key id p, (td.pendingOf key).lookup id = some p →
    p.msg.id = id ∧ p.msg.firstDelivery ∈ td.messageLog
  pending_lt : ∀ c : Consumer, ∀ id ∈ td.pendingOf c.key, id < td.offset c

theorem consistent_ofName (topicName : TopicName) (bufferSize : ℕ) :
    Consistent [] (ofName topicName bufferSize) [] [] where
  next_eq := rfl
  accepted_eq := rfl
  holds := ⟨0, SpscRingBuffer.holds_ofCapacity bufferSize⟩
  fresh := by simp [accepted]
  sorted := List.Pairwise.nil
  id_pos := by simp [accepted]
  id_lt := by simp [accepted]
  poppable := by simp
  log := .slnil
  gone := by simp
  offset_next c := by cases hg : c.isGroup <;> simp [offset, ofName, valueAt, hg]
  offset_waiting := by simp
  queue := by simp [ofName]
  pending key id p hp := by cases hp
  pending_lt c id hid := absurd hid (AList.notMem_empty id)

namespace Consistent

variable {cfg : StoreConfig} {h : List TopicEvent} {td : TopicData}
  {drained waiting : List StoredMessage}

/-- The log is part of the accepted messages. -/
theorem log_sublist (hc : Consistent h td drained waiting) :
    td.messageLog.Sublist (accepted h) :=
  hc.accepted_eq ▸ hc.log.trans (List.sublist_append_left drained waiting)

theorem log_sorted (hc : Consistent h td drained waiting) :
    td.messageLog.Pairwise (·.id < ·.id) :=
  hc.sorted.sublist hc.log_sublist

/-- The log has one message of an identifier. -/
theorem log_injOn (hc : Consistent h td drained waiting) {m m' : StoredMessage}
    (hm : m ∈ td.messageLog) (hm' : m' ∈ td.messageLog) (hid : m.id = m'.id) : m = m' := by
  have hnodup : (td.messageLog.map StoredMessage.id).Nodup :=
    (List.pairwise_map.mpr hc.log_sorted).imp fun hlt => hlt.ne
  exact List.inj_on_of_nodup_map hnodup hm hm' hid

/-- Waiting messages come after drained ones. -/
theorem drained_lt_waiting (hc : Consistent h td drained waiting) {m m' : StoredMessage}
    (hm : m ∈ drained) (hm' : m' ∈ waiting) : m.id < m'.id :=
  (List.pairwise_append.mp (hc.accepted_eq ▸ hc.sorted)).2.2 m hm m' hm'

/-- An accepted message that is not waiting was drained. -/
theorem mem_drained (hc : Consistent h td drained waiting) {m m' : StoredMessage}
    (hm : m ∈ accepted h) (hm' : m' ∈ drained) (hle : m.id ≤ m'.id) : m ∈ drained := by
  rw [hc.accepted_eq, List.mem_append] at hm
  rcases hm with hm | hm
  · exact hm
  · exact absurd (hc.drained_lt_waiting hm' hm) (not_lt.mpr hle)

/-- Identifiers of the log do not wrap when increased. -/
theorem log_wrap (hc : Consistent h td drained waiting) (hb : Bounded h) :
    ∀ m ∈ td.messageLog, m.id + 1 < 2 ^ 64 := by
  intro m hm
  have hlt := hc.id_lt m (hc.log_sublist.subset hm)
  have hnext := hc.next_eq
  have hpub := hb.publishes_lt
  grind

/-- What is gone from the log is gone after another step. -/
private theorem gone_concat (hc : Consistent h td drained waiting) (e : TopicEvent) :
    ∀ m ∈ drained, m ∈ td.messageLog ∨ ∃ e' ∈ h ++ [e], ExpiredByPass m e' := by
  intro m hm
  refine (hc.gone m hm).imp_right ?_
  rintro ⟨e', he', hexp⟩
  exact ⟨e', List.mem_append_left _ he', hexp⟩

/-- A step that changes only the history, and accepts nothing. -/
private theorem concat (hc : Consistent h td drained waiting) {e : TopicEvent}
    (hpub : e.input.isPublish = false) (hacc : acceptedMessage e = none) :
    Consistent (h ++ [e]) td drained waiting := by
  have haccepted : accepted (h ++ [e]) = accepted h := by
    rw [accepted_concat, hacc]
    simp
  have hcount : publishCount (h ++ [e]) = publishCount h := by
    rw [publishCount_concat, hpub]
    simp
  exact
    { hc with
      next_eq := by rw [hcount, hc.next_eq]
      accepted_eq := by rw [haccepted, hc.accepted_eq]
      fresh := haccepted ▸ hc.fresh
      sorted := haccepted ▸ hc.sorted
      id_pos := haccepted ▸ hc.id_pos
      id_lt := haccepted ▸ hc.id_lt
      gone := hc.gone_concat e }

/-! ### Publish -/

/-- An accepted message waits behind the others. -/
private theorem concat_accepted (hc : Consistent h td drained waiting) {e : TopicEvent}
    {m : StoredMessage} {ring : SpscRingBuffer} {H : ℕ}
    (hcount : publishCount (h ++ [e]) = publishCount h + 1)
    (haccepted : accepted (h ++ [e]) = accepted h ++ [m]) (hid : m.id = td.nextMsgId)
    (hfresh : m.Fresh) (hholds : ring.Holds H ((waiting ++ [m]).map StoredMessage.record)) :
    Consistent (h ++ [e]) { td with ringBuffer := ring, nextMsgId := td.nextMsgId + 1 } drained
      (waiting ++ [m]) := by
  have hall : ∀ {P : StoredMessage → Prop}, (∀ m' ∈ accepted h, P m') → P m →
      ∀ m' ∈ accepted (h ++ [e]), P m' := by
    intro P hold hnew m' hm'
    rw [haccepted, List.mem_append, List.mem_singleton] at hm'
    rcases hm' with hm' | rfl
    · exact hold m' hm'
    · exact hnew
  exact
    { hc with
      next_eq := by rw [hcount, hc.next_eq]
      accepted_eq := by rw [haccepted, hc.accepted_eq, List.append_assoc]
      holds := ⟨H, hholds⟩
      fresh := hall hc.fresh hfresh
      sorted := by
        rw [haccepted, List.pairwise_append]
        refine ⟨hc.sorted, List.pairwise_singleton _ _, fun m' hm' m'' hm'' => ?_⟩
        rw [List.mem_singleton.mp hm'', hid]
        exact hc.id_lt m' hm'
      id_pos := hall hc.id_pos (by rw [hid, hc.next_eq]; exact Nat.le_add_left _ _)
      id_lt := hall (fun m' hm' => (hc.id_lt m' hm').trans (Nat.lt_succ_self _))
        (hid.trans_lt (Nat.lt_succ_self _))
      gone := hc.gone_concat e
      offset_next := fun c => (hc.offset_next c).trans (Nat.le_succ _)
      offset_waiting := fun c m' hm' => by
        rcases List.mem_append.mp hm' with hm' | hm'
        · exact hc.offset_waiting c m' hm'
        · rw [List.mem_singleton.mp hm', hid]
          exact hc.offset_next c }

/-- Of a rejected message only the identifier is gone. -/
private theorem concat_rejected (hc : Consistent h td drained waiting) {e : TopicEvent}
    {ring : SpscRingBuffer} {H : ℕ} (hcount : publishCount (h ++ [e]) = publishCount h + 1)
    (haccepted : accepted (h ++ [e]) = accepted h)
    (hholds : ring.Holds H (waiting.map StoredMessage.record)) :
    Consistent (h ++ [e]) { td with ringBuffer := ring, nextMsgId := td.nextMsgId + 1 } drained
      waiting :=
  { hc with
    next_eq := by rw [hcount, hc.next_eq]
    accepted_eq := by rw [haccepted, hc.accepted_eq]
    holds := ⟨H, hholds⟩
    fresh := haccepted ▸ hc.fresh
    sorted := haccepted ▸ hc.sorted
    id_pos := haccepted ▸ hc.id_pos
    id_lt := fun m' hm' => (hc.id_lt m' (haccepted ▸ hm')).trans (Nat.lt_succ_self _)
    gone := hc.gone_concat e
    offset_next := fun c => (hc.offset_next c).trans (Nat.le_succ _) }

theorem publish (hc : Consistent h td drained waiting) (payload : Payload) (ttlMs : UInt32)
    (expiryNowMs nowMs : UInt64)
    (hb : Bounded (h ++ [(topic cfg).event td (.publish payload ttlMs expiryNowMs nowMs)])) :
    ∃ waiting', Consistent
      (h ++ [(topic cfg).event td (.publish payload ttlMs expiryNowMs nowMs)])
      ((topic cfg).step td (.publish payload ttlMs expiryNowMs nowMs)).1 drained waiting' := by
  set e := (topic cfg).event td (.publish payload ttlMs expiryNowMs nowMs) with he
  set m : StoredMessage := ⟨td.nextMsgId, "", payload, nowMs.toNat, 0, expiresAt ttlMs expiryNowMs⟩
    with hm
  obtain ⟨H, hholds⟩ := hc.holds
  have hring := publish_holds hholds payload ttlMs expiryNowMs nowMs
  have haccepted : accepted (h ++ [e]) = accepted h ++
      if (td.publish payload ttlMs expiryNowMs nowMs).2.2 then [m] else [] :=
    accepted_publish cfg h td payload ttlMs expiryNowMs nowMs
  have hcount : publishCount (h ++ [e]) = publishCount h + 1 := publishCount_concat h e
  have hlt := hb.publishes_lt
  rw [hcount, ← hc.next_eq] at hlt
  have hlt' : td.nextMsgId + 1 < 2 ^ 64 := (Nat.succ_lt_succ hlt).trans_le (by decide)
  -- the counter is incremented before the push, so a rejected publish uses one up too
  have hafter : (td.publish payload ttlMs expiryNowMs nowMs).1 =
      { td with
        ringBuffer := (td.publish payload ttlMs expiryNowMs nowMs).1.ringBuffer
        nextMsgId := td.nextMsgId + 1 } := by
    rw [← Nat.mod_eq_of_lt hlt']
    rfl
  change ∃ waiting', Consistent (h ++ [e]) (td.publish payload ttlMs expiryNowMs nowMs).1 drained
    waiting'
  rw [hafter]
  dsimp only at hring
  split at hring
  · obtain ⟨hok, hholds'⟩ := hring
    rw [hok, if_pos rfl] at haccepted
    have hsize : kRecordHeaderSize + m.payload.length < 2 ^ 32 :=
      hb.size_lt m (by rw [haccepted]; exact List.mem_append_right _ (List.mem_singleton_self _))
    exact ⟨waiting ++ [m], hc.concat_accepted hcount haccepted rfl
      (fresh_published (Nat.lt_of_succ_lt hlt') hsize _ _ _) hholds'⟩
  · obtain ⟨hno, hsame⟩ := hring
    rw [hno, if_neg Bool.false_ne_true, List.append_nil] at haccepted
    exact ⟨waiting, hc.concat_rejected hcount haccepted (hsame ▸ hholds)⟩

/-! ### Pull -/

/-- Draining keeps the invariant and moves the poppable messages. -/
theorem drain (hc : Consistent h td drained waiting) :
    Consistent h td.drainRingBuffer (drained ++ waiting.takeWhile StoredMessage.poppable)
      (waiting.dropWhile StoredMessage.poppable) := by
  obtain ⟨H, hholds⟩ := hc.holds
  have hwaiting : ∀ m ∈ waiting, m ∈ accepted h := fun m hm => by
    rw [hc.accepted_eq]
    exact List.mem_append_right _ hm
  -- draining stops at the first record that `pop` cannot return
  obtain ⟨hring, hlog⟩ := drainRingBuffer_eq hholds fun m hm => hc.fresh m (hwaiting m hm)
  have hsub : ∀ m ∈ td.messageLog, m ∈ td.drainRingBuffer.messageLog := fun m hm => by
    rw [hlog]
    exact List.mem_append_left _ hm
  exact
    { hc with
      accepted_eq := by
        rw [List.append_assoc, List.takeWhile_append_dropWhile, hc.accepted_eq]
      holds := hring
      poppable := fun m hm => by
        rcases List.mem_append.mp hm with hm | hm
        · exact hc.poppable m hm
        · exact List.mem_takeWhile_imp hm
      log := by
        rw [hlog]
        exact hc.log.append (List.Sublist.refl _)
      gone := fun m hm => by
        rcases List.mem_append.mp hm with hm | hm
        · exact (hc.gone m hm).imp_left (hsub m)
        · exact .inl (by rw [hlog]; exact List.mem_append_right _ hm)
      offset_waiting := fun c m hm => hc.offset_waiting c m ((List.dropWhile_sublist _).subset hm)
      queue := fun r hr => ⟨(hc.queue r hr).1, hsub _ (hc.queue r hr).2⟩
      pending := fun key id p hp => ⟨(hc.pending key id p hp).1, hsub _ (hc.pending key id p hp).2⟩ }

/-- The first offset read by a pull. -/
theorem startOffset_le (hc : Consistent h td drained waiting) (c : Consumer) :
    td.offset c ≤ td.startOffset c ∧ td.startOffset c ≤ td.nextMsgId ∧
      ∀ m ∈ waiting, td.startOffset c ≤ m.id := by
  rw [startOffset]
  split
  · rename_i hzero
    refine ⟨hzero ▸ Nat.zero_le _, hc.next_eq ▸ Nat.le_add_left _ _, fun m hm => hc.id_pos m ?_⟩
    rw [hc.accepted_eq]
    exact List.mem_append_right _ hm
  · exact ⟨le_rfl, hc.offset_next c, hc.offset_waiting c⟩

section Pull

variable (c : Consumer) (maxMessages : UInt32) (nowMs : UInt64) (steadyNow : ℕ → ℤ)

/-- The loop over the log, in a consistent topic. -/
theorem pulledLog_spec (hc : Consistent h td drained waiting) (hb : Bounded h) :
    LogPull ⟨c.key, maxMessages, nowMs, steadyNow⟩ td.drainRingBuffer.messageLog
      (td.drainRingBuffer.pullStart c) (td.pulledLog c maxMessages nowMs steadyNow) := by
  have hd := hc.drain
  refine pullLog_spec hd.log_sorted (hd.log_wrap hb) fun id hid => ?_
  exact lt_of_lt_of_le (hd.pending_lt c id hid) (hd.startOffset_le c).1

/-- **Retry deliveries stay below the offset.** The loop over the retry queue is reached
only when the loop over the log passed every live message. -/
theorem pulledRetry_lt (hc : Consistent h td drained waiting) (hb : Bounded h) :
    ∀ id ∈ (td.pulledRetry c maxMessages nowMs steadyNow).2.pendingMap
        ⟨c.key, maxMessages, nowMs, steadyNow⟩,
      id < (td.pulledLog c maxMessages nowMs steadyNow).offset := by
  have hlog := hc.pulledLog_spec c maxMessages nowMs steadyNow hb
  set args : PullArgs := ⟨c.key, maxMessages, nowMs, steadyNow⟩
  set st := td.pulledLog c maxMessages nowMs steadyNow with hst
  intro id hid
  cases hfull : st.full args with
  | true =>
    rw [pulledRetry, ← hst, pullRetry_of_full _ hfull] at hid
    exact hlog.pending_lt id hid
  | false =>
    obtain ⟨⟨new, hnew⟩, -⟩ := pullRetry_spec args td.retryQueue st
    obtain ⟨p, hp⟩ := mem_iff_exists_lookup.mp hid
    rcases hnew.lookup_new id p hp with hold | ⟨hmem, rfl⟩
    · exact hlog.pending_lt id (mem_iff_exists_lookup.mpr ⟨p, hold⟩)
    · obtain ⟨hqueue, hlive⟩ := hnew.mem_source _ hmem
      have hinlog := (hc.drain.queue _ hqueue).2
      -- there was room left, so nothing live is left in the log from the offset on
      have hnil : dueMessages nowMs st.offset td.drainRingBuffer.messageLog = [] := by
        refine hlog.due_eq.trans (List.drop_eq_nil_of_le ?_)
        have hlen := congrArg List.length hlog.result_eq
        simp only [PullState.full, decide_eq_false_iff_not, not_le] at hfull
        have hroom : (td.drainRingBuffer.pullStart c).room args = maxMessages.toNat := rfl
        have hnone : (td.drainRingBuffer.pullStart c).result = [] := rfl
        rw [hroom, hnone, List.nil_append, List.length_take] at hlen
        rw [hroom]
        rw [hlen] at hfull
        change min maxMessages.toNat _ < maxMessages.toNat at hfull
        omega
      by_contra hge
      have : p.msg.firstDelivery ∈ dueMessages nowMs st.offset td.drainRingBuffer.messageLog := by
        rw [dueMessages, List.mem_filter]
        refine ⟨hinlog, ?_⟩
        rw [Bool.and_eq_true, decide_eq_true_eq]
        refine ⟨not_lt.mp hge, ?_⟩
        rw [StoredMessage.isExpired_firstDelivery, Bool.not_eq_true']
        exact hlive
      rw [hnil] at this
      cases this

theorem pull (hc : Consistent h td drained waiting) (hb : Bounded h) :
    Consistent (h ++ [(topic cfg).event td (.pull c maxMessages nowMs steadyNow)])
      ((topic cfg).step td (.pull c maxMessages nowMs steadyNow)).1
      (drained ++ waiting.takeWhile StoredMessage.poppable)
      (waiting.dropWhile StoredMessage.poppable) := by
  have hd := hc.drain
  have hlog := hc.pulledLog_spec c maxMessages nowMs steadyNow hb
  have hlt := hc.pulledRetry_lt c maxMessages nowMs steadyNow hb
  set args : PullArgs := ⟨c.key, maxMessages, nowMs, steadyNow⟩
  obtain ⟨-, hkept, -⟩ :=
    pullRetry_spec args td.retryQueue (td.pulledLog c maxMessages nowMs steadyNow)
  have hmessageLog := td.pull_messageLog c maxMessages nowMs steadyNow
  have hring := td.pull_ringBuffer c maxMessages nowMs steadyNow
  have hnext := td.pull_nextMsgId c maxMessages nowMs steadyNow
  have hoffset := td.pull_offset c maxMessages nowMs steadyNow
  -- where the offset can have gone
  have hbound : ∀ n, (td.drainRingBuffer.startOffset c ≤ n) →
      (∀ m ∈ td.drainRingBuffer.messageLog, m.id < n) →
      (td.pulledLog c maxMessages nowMs steadyNow).offset ≤ n := by
    intro n hstart hids
    rcases hlog.offset_cases with heq | ⟨m, hm, heq⟩
    · rw [heq]
      exact hstart
    · rw [heq]
      exact hids m hm
  suffices h' : Consistent h (td.pull c maxMessages nowMs steadyNow).1
      (drained ++ waiting.takeWhile StoredMessage.poppable)
      (waiting.dropWhile StoredMessage.poppable) from h'.concat rfl rfl
  exact
    { hd with
      next_eq := by rw [hnext, hc.next_eq]
      holds := by rw [hring]; exact hd.holds
      id_lt := by rw [hnext]; exact hd.id_lt
      log := by rw [hmessageLog]; exact hd.log
      gone := by rw [hmessageLog]; exact hd.gone
      offset_next := fun c' => by
        rw [hnext]
        rcases eq_or_ne c' c with rfl | hne
        · rw [hoffset]
          exact hbound _ (hd.startOffset_le c').2.1 fun m hm =>
            hd.id_lt m (hd.log_sublist.subset hm)
        · rw [td.pull_offset_ne c maxMessages nowMs steadyNow hne]
          exact hc.offset_next c'
      offset_waiting := fun c' m hm => by
        rcases eq_or_ne c' c with rfl | hne
        · rw [hoffset]
          exact hbound _ ((hd.startOffset_le c').2.2 m hm) fun m' hm' =>
            hd.drained_lt_waiting (hd.log.subset hm') hm
        · rw [td.pull_offset_ne c maxMessages nowMs steadyNow hne]
          exact hd.offset_waiting c' m hm
      queue := fun r hr => by
        rw [hmessageLog]
        exact hd.queue r (hkept.subset hr)
      pending := fun key id p hp => by
        rw [hmessageLog]
        rcases td.pull_lookup c maxMessages nowMs steadyNow hp with hp | ⟨-, rfl, -, hin | hin⟩
        · exact hd.pending key id p hp
        · -- a message of the log is fresh, hence its own first delivery
          have hzero : p.msg.retryCount = 0 :=
            (hd.fresh _ (hd.log_sublist.subset hin)).retryCount_eq
          have hfirst : p.msg.firstDelivery = p.msg := by
            rw [StoredMessage.firstDelivery, ← hzero]
          exact ⟨rfl, hfirst.symm ▸ hin⟩
        · exact ⟨rfl, (hd.queue _ hin).2⟩
      pending_lt := fun c' id hid => by
        rcases eq_or_ne c' c with rfl | hne
        · rw [hoffset]
          exact hlt id hid
        · have hkey : c'.key ≠ c.key := fun hk => hne (Consumer.key_injective hk)
          rw [td.pull_pendingOf_ne c maxMessages nowMs steadyNow hkey] at hid
          rw [td.pull_offset_ne c maxMessages nowMs steadyNow hne]
          exact hc.pending_lt c' id hid }

end Pull

/-! ### Acknowledgements and passes -/

theorem ack (hc : Consistent h td drained waiting) (c : Consumer) (msgId : MessageId) :
    Consistent (h ++ [(topic cfg).event td (.ack c msgId)])
      ((topic cfg).step td (.ack c msgId)).1 drained waiting := by
  have hpending : ∀ key id p, ((td.ack c msgId).1.pendingOf key).lookup id = some p →
      (td.pendingOf key).lookup id = some p :=
    fun key id p hp => ((ack_lookup td c msgId key id p).mp hp).1
  suffices h' : Consistent h (td.ack c msgId).1 drained waiting from h'.concat rfl rfl
  obtain ⟨pendingAcks, hframe⟩ := ack_frame td c msgId
  rw [hframe] at hpending ⊢
  exact
    { hc with
      pending := fun key id p hp => hc.pending key id p (hpending key id p hp)
      pending_lt := fun c' id hid => by
        obtain ⟨p, hp⟩ := mem_iff_exists_lookup.mp hid
        exact hc.pending_lt c' id (mem_iff_exists_lookup.mpr ⟨p, hpending _ id p hp⟩) }

theorem retryPass (hc : Consistent h td drained waiting) (clock : PassClock)
    (order : PassOrder) :
    Consistent (h ++ [(topic cfg).event td (.retryPass clock order)])
      ((topic cfg).step td (.retryPass clock order)).1 drained waiting := by
  suffices h' : Consistent h (td.processPendingRetries cfg clock order).1 drained waiting from
    h'.concat rfl rfl
  have hqueue := (processPendingRetries_spec cfg clock order td).2.1
  have hlookup := processPendingRetries_lookup cfg clock order td
  exact
    { hc with
      queue := fun r hr => by
        rw [hqueue] at hr
        rcases mem_requeueAll hr with hr | ⟨d, hd, rfl⟩
        · exact hc.queue r hr
        · obtain ⟨hdue, hretry⟩ := List.mem_filter.mp hd
          refine ⟨?_, (hc.pending _ _ _ (mem_duePass.mp hdue).1).2⟩
          -- the count stays below the limit, so it does not wrap
          have hlimit : d.pending.msg.retryCount < cfg.maxRetryCount.toNat := by
            simp only [Due.requeued, Bool.and_eq_true, decide_eq_true_eq] at hretry
            exact hretry.2
          have hmax := cfg.maxRetryCount.toNat_lt
          change 1 ≤ (d.pending.msg.retryCount + 1) % 2 ^ 32
          rw [Nat.mod_eq_of_lt (by omega)]
          exact Nat.le_add_left _ _
      pending := fun key id p hp => hc.pending key id p ((hlookup key id p).mp hp).1
      pending_lt := fun c id hid =>
        hc.pending_lt c id (mem_pendingOf_of_processPendingRetries cfg clock order hid) }

theorem expirePass (hc : Consistent h td drained waiting) (nowMs : UInt64) :
    Consistent (h ++ [(topic cfg).event td (.expirePass nowMs)])
      ((topic cfg).step td (.expirePass nowMs)).1 drained waiting := by
  set e := (topic cfg).event td (.expirePass nowMs) with he
  have hlookup := expireTopicMessages_lookup td nowMs
  have hstay : ∀ {m : StoredMessage}, m ∈ td.messageLog → m.isExpired nowMs = false →
      m ∈ (td.expireTopicMessages nowMs).messageLog := by
    intro m hm hlive
    exact List.mem_filter.mpr ⟨hm, by simp [hlive]⟩
  have hconcat := hc.concat (e := e) rfl rfl
  exact
    { hconcat with
      log := List.filter_sublist.trans hc.log
      gone := fun m hm => by
        rcases hc.gone m hm with hm | ⟨e', he', hexp⟩
        · cases hexp : m.isExpired nowMs with
          | false => exact .inl (hstay hm hexp)
          | true => exact .inr ⟨e, by simp, nowMs, rfl, hm, hexp⟩
        · exact .inr ⟨e', List.mem_append_left _ he', hexp⟩
      queue := fun r hr => by
        obtain ⟨hr, hlive⟩ := List.mem_filter.mp hr
        refine ⟨(hc.queue r hr).1, hstay (hc.queue r hr).2 ?_⟩
        simpa using hlive
      pending := fun key id p hp => by
        obtain ⟨hp, hlive⟩ := (hlookup key id p).mp hp
        exact ⟨(hc.pending key id p hp).1, hstay (hc.pending key id p hp).2 hlive⟩
      pending_lt := fun c id hid =>
        hc.pending_lt c id (mem_pendingOf_of_expireTopicMessages hid) }

/-- Every operation keeps the invariant. -/
theorem step (hc : Consistent h td drained waiting) (op : TopicOp)
    (hb : Bounded (h ++ [(topic cfg).event td op])) :
    ∃ drained' waiting', Consistent (h ++ [(topic cfg).event td op])
      ((topic cfg).step td op).1 drained' waiting' := by
  cases op with
  | publish payload ttlMs expiryNowMs nowMs =>
    exact ⟨drained, hc.publish payload ttlMs expiryNowMs nowMs hb⟩
  | pull c maxMessages nowMs steadyNow =>
    exact ⟨_, _, hc.pull c maxMessages nowMs steadyNow hb.of_concat⟩
  | ack c msgId => exact ⟨_, _, hc.ack c msgId⟩
  | retryPass clock order => exact ⟨_, _, hc.retryPass clock order⟩
  | expirePass nowMs => exact ⟨_, _, hc.expirePass nowMs⟩

end Consistent

/-- **The invariant holds after every run** within the bounds. -/
theorem consistent_run (cfg : StoreConfig) (topicName : TopicName) (bufferSize : ℕ)
    (ops : List TopicOp)
    (hb : Bounded ((topic cfg).trace (ofName topicName bufferSize) ops)) :
    ∃ drained waiting, Consistent ((topic cfg).trace (ofName topicName bufferSize) ops)
      ((topic cfg).run (ofName topicName bufferSize) ops) drained waiting := by
  refine (topic cfg).history_induction
    (P := fun h td => Bounded h → ∃ drained waiting, Consistent h td drained waiting)
    (fun _ => ⟨[], [], consistent_ofName topicName bufferSize⟩) ?_ ops hb
  intro h td op ih hb
  obtain ⟨drained, waiting, hc⟩ := ih hb.of_concat
  exact hc.step op hb

end TopicData

end ProtoMsgQueue
