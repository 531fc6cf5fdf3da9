import ProtoMsgQueue.Storage.Consistency
import ProtoMsgQueue.Storage.SharedTopic

/-!
# The order of the log under concurrent publishers

Identifiers are taken in one order and pushed in another, so a publish may be overtaken by
one with a larger identifier. If none is, the log is sorted at every moment and no offset
ever lies above a message that enters the log later, whatever the interleaving; `Ordered`
is the invariant. Two publishers and one pull are enough to break both.
-/

namespace ProtoMsgQueue

open UnorderedMap

/-! ### Histories -/

theorem stored_concat (h : List SharedEvent) (e : SharedEvent) :
    stored (h ++ [e]) = stored h ++ (storedMessage e).toList := by
  cases he : storedMessage e <;> simp [stored, he]

/-- Only a push stores a message. -/
theorem storedMessage_eq_none (cfg : StoreConfig) (st : SharedTopic) (op : SharedOp)
    (hop : ∀ thread expiryNowMs nowMs, op ≠ .push thread expiryNowMs nowMs) :
    storedMessage ((sharedTopic cfg).event st op) = none := by
  simp only [storedMessage, StepMachine.event_output, sharedTopic]
  cases op with
  | allocate thread payload ttlMs => by_cases hbusy : thread ∈ st.publishing <;> simp [hbusy]
  | push => exact absurd rfl (hop _ _ _)
  | drain =>
    rcases st.pulling with - | call
    · rfl
    · dsimp only
      rcases st.td.drainTurn with ⟨td, more⟩
      cases more <;> rfl
  | _ => rcases st.pulling with - | call <;> rfl

/-- A longer run takes no fewer identifiers. -/
theorem allocations_le_concat (h : List SharedEvent) (e : SharedEvent) :
    allocations (h.map StepMachine.Event.input) ≤
      allocations ((h ++ [e]).map StepMachine.Event.input) := by
  rw [allocations, allocations, List.map_append, List.countP_append]
  exact Nat.le_add_right _ _

/-- An allocation counts. -/
theorem allocations_concat_allocate {h : List SharedEvent} {e : SharedEvent} {thread : ThreadId}
    {payload : Payload} {ttlMs : UInt32} (he : e.input = .allocate thread payload ttlMs) :
    allocations ((h ++ [e]).map StepMachine.Event.input) =
      allocations (h.map StepMachine.Event.input) + 1 := by
  simp [allocations, he]

namespace SharedTopic

/-- The invariant of a shared topic in which no publish is overtaken, with the stored
messages split into drained and waiting ones. -/
structure Ordered (h : List SharedEvent) (st : SharedTopic) (drained waiting : List StoredMessage) :
    Prop where
  next_pos : 1 ≤ st.td.nextMsgId
  next_le : st.td.nextMsgId ≤ allocations (h.map StepMachine.Event.input) + 1
  capacity_le : st.td.ringBuffer.capacity ≤ 2 ^ 32
  stored_eq : stored h = drained ++ waiting
  holds : ∃ H, st.td.ringBuffer.Holds H (waiting.map StoredMessage.record)
  fresh : ∀ m ∈ stored h, m.Fresh
  bounds : ∀ m ∈ stored h, 1 ≤ m.id ∧ m.id < st.td.nextMsgId
  sorted : (stored h).Pairwise (·.id < ·.id)
  publishing : ∀ thread p, st.publishing.lookup thread = some p →
    1 ≤ p.msgId ∧ p.msgId < st.td.nextMsgId ∧ ∀ m ∈ stored h, m.id ≠ p.msgId
  publishing_inj : ∀ thread thread' p p', st.publishing.lookup thread = some p →
    st.publishing.lookup thread' = some p' → p.msgId = p'.msgId → thread = thread'
  log : st.td.messageLog.Sublist drained
  offset : ∀ c, st.td.offset c ≤ 1 ∨ ∃ m ∈ drained, st.td.offset c ≤ m.id + 1

theorem ordered_init (topicName : TopicName) {bufferSize : ℕ} (hbuffer : bufferSize < 2 ^ 32) :
    Ordered [] (init topicName bufferSize) [] [] where
  next_pos := le_rfl
  next_le := le_rfl
  capacity_le := hbuffer
  stored_eq := rfl
  holds := ⟨0, SpscRingBuffer.holds_ofCapacity bufferSize⟩
  fresh := by simp [stored]
  bounds := by simp [stored]
  sorted := List.Pairwise.nil
  publishing thread p hp := by cases hp
  publishing_inj thread thread' p p' hp := by cases hp
  log := .slnil
  offset c := by
    left
    cases hg : c.isGroup <;> simp [TopicData.offset, init, TopicData.ofName, valueAt, hg]

namespace Ordered

variable {cfg : StoreConfig} {h : List SharedEvent} {st : SharedTopic}
  {drained waiting : List StoredMessage}

theorem log_sorted (ho : Ordered h st drained waiting) :
    st.td.messageLog.Pairwise (·.id < ·.id) := by
  have hdrained : drained.Pairwise (·.id < ·.id) :=
    (List.pairwise_append.mp (ho.stored_eq ▸ ho.sorted)).1
  exact hdrained.sublist ho.log

theorem waiting_fresh (ho : Ordered h st drained waiting) : ∀ m ∈ waiting, m.Fresh :=
  fun m hm => ho.fresh m (ho.stored_eq ▸ List.mem_append_right _ hm)

/-- The counter does not wrap. -/
theorem next_lt (ho : Ordered h st drained waiting)
    (hb : allocations (h.map StepMachine.Event.input) < 2 ^ 64 - 1) :
    st.td.nextMsgId < 2 ^ 64 :=
  lt_of_le_of_lt ho.next_le (Nat.succ_lt_succ hb)

/-- No consumer starts to read above a message that waits. -/
theorem startOffset_le (ho : Ordered h st drained waiting) {m : StoredMessage} (hm : m ∈ waiting)
    (c : Consumer) : st.td.startOffset c ≤ m.id := by
  have hpos : 1 ≤ m.id := (ho.bounds m (ho.stored_eq ▸ List.mem_append_right _ hm)).1
  rw [TopicData.startOffset]
  split
  · exact hpos
  · rcases ho.offset c with hle | ⟨m', hm', hle⟩
    · exact hle.trans hpos
    · have hlt : m'.id < m.id :=
        (List.pairwise_append.mp (ho.stored_eq ▸ ho.sorted)).2.2 m' hm' m hm
      exact hle.trans hlt

/-- A step that stores nothing and leaves ring buffer, counter and publishes as they are; messages
may leave the log, and offsets move behind drained messages. -/
theorem frame (ho : Ordered h st drained waiting) {e : SharedEvent} (he : storedMessage e = none)
    (td : TopicData) (hring : td.ringBuffer = st.td.ringBuffer)
    (hnext : td.nextMsgId = st.td.nextMsgId)
    (hoffset : ∀ c, td.offset c ≤ 1 ∨ ∃ m ∈ drained, td.offset c ≤ m.id + 1)
    (hlog : td.messageLog.Sublist st.td.messageLog) (pulling : Option PullCall) :
    Ordered (h ++ [e]) { st with td := td, pulling := pulling } drained waiting := by
  have hstored : stored (h ++ [e]) = stored h := by
    rw [stored_concat, he]
    simp
  exact
    { next_pos := hnext ▸ ho.next_pos
      next_le := hnext ▸ ho.next_le.trans (Nat.succ_le_succ (allocations_le_concat h e))
      capacity_le := hring ▸ ho.capacity_le
      stored_eq := hstored ▸ ho.stored_eq
      holds := hring ▸ ho.holds
      fresh := hstored ▸ ho.fresh
      bounds := by
        rw [hstored, hnext]
        exact ho.bounds
      sorted := hstored ▸ ho.sorted
      publishing := by
        rw [hstored, hnext]
        exact ho.publishing
      publishing_inj := ho.publishing_inj
      log := hlog.trans ho.log
      offset := hoffset }

/-- A step that does nothing, or only takes or releases the mutex. -/
theorem idle (ho : Ordered h st drained waiting) {e : SharedEvent} (he : storedMessage e = none)
    (pulling : Option PullCall) :
    Ordered (h ++ [e]) { st with pulling := pulling } drained waiting :=
  ho.frame he st.td rfl rfl ho.offset (List.Sublist.refl _) pulling

/-! ### The two steps of a publish -/

/-- A publish that begins holds the value of the counter, and the others what they held. -/
private theorem publishing_insert {thread : ThreadId} {payload : Payload} {ttlMs : UInt32}
    {thread' : ThreadId} {p : Publishing}
    (hp : (st.publishing.insert thread ⟨st.td.nextMsgId, payload, ttlMs⟩).lookup thread' =
      some p) : thread' = thread ∧ p.msgId = st.td.nextMsgId ∨
        st.publishing.lookup thread' = some p := by
  rcases eq_or_ne thread' thread with rfl | hne
  · rw [AList.lookup_insert, Option.some_inj] at hp
    exact Or.inl ⟨rfl, by rw [← hp]⟩
  · rw [AList.lookup_insert_ne hne] at hp
    exact Or.inr hp

/-- The new identifier is larger than those taken before. -/
private theorem publishing_insert_inj (ho : Ordered h st drained waiting) {thread : ThreadId}
    {payload : Payload} {ttlMs : UInt32} {thread₁ thread₂ : ThreadId} {p₁ p₂ : Publishing}
    (hp₁ : (st.publishing.insert thread ⟨st.td.nextMsgId, payload, ttlMs⟩).lookup thread₁ = some p₁)
    (hp₂ : (st.publishing.insert thread ⟨st.td.nextMsgId, payload, ttlMs⟩).lookup thread₂ = some p₂)
    (hid : p₁.msgId = p₂.msgId) : thread₁ = thread₂ := by
  rcases publishing_insert hp₁ with ⟨rfl, hnew₁⟩ | hold₁ <;>
    rcases publishing_insert hp₂ with ⟨heq, hnew₂⟩ | hold₂
  · exact heq.symm
  · have hlt := (ho.publishing thread₂ p₂ hold₂).2.1
    rw [hnew₁] at hid
    exact absurd hid hlt.ne'
  · have hlt := (ho.publishing thread₁ p₁ hold₁).2.1
    rw [hnew₂] at hid
    exact absurd hid hlt.ne
  · exact ho.publishing_inj thread₁ thread₂ p₁ p₂ hold₁ hold₂ hid

theorem allocate (ho : Ordered h st drained waiting) (thread : ThreadId) (payload : Payload)
    (ttlMs : UInt32)
    (hb : allocations ((h ++ [(sharedTopic cfg).event st (.allocate thread payload ttlMs)]).map
      StepMachine.Event.input) < 2 ^ 64 - 1) :
    Ordered (h ++ [(sharedTopic cfg).event st (.allocate thread payload ttlMs)])
      ((sharedTopic cfg).step st (.allocate thread payload ttlMs)).1 drained waiting := by
  set e := (sharedTopic cfg).event st (.allocate thread payload ttlMs) with he
  have hcount : allocations ((h ++ [e]).map StepMachine.Event.input) =
      allocations (h.map StepMachine.Event.input) + 1 := allocations_concat_allocate rfl
  have hnone : storedMessage e = none := storedMessage_eq_none cfg st _ fun _ _ _ hop => nomatch hop
  rw [step_allocate]
  split
  · exact ho.idle hnone st.pulling
  · -- the counter moves on, and the thread holds the old value
    have hle := ho.next_le
    have hnext : (st.td.nextMsgId + 1) % 2 ^ 64 = st.td.nextMsgId + 1 := by
      rw [hcount] at hb
      exact Nat.mod_eq_of_lt (Nat.succ_lt_succ (lt_of_le_of_lt hle hb))
    have htd : st.td.allocate.1 = { st.td with nextMsgId := st.td.nextMsgId + 1 } := by
      rw [TopicData.allocate, hnext]
    have hstored : stored (h ++ [e]) = stored h := by
      rw [stored_concat, hnone]
      simp
    rw [htd]
    exact
      { next_pos := Nat.le_add_left _ _
        next_le := by
          rw [hcount]
          exact Nat.succ_le_succ hle
        capacity_le := ho.capacity_le
        stored_eq := hstored ▸ ho.stored_eq
        holds := ho.holds
        fresh := hstored ▸ ho.fresh
        bounds := fun m hm =>
          (ho.bounds m (hstored ▸ hm)).imp_right fun hlt => hlt.trans (Nat.lt_succ_self _)
        sorted := hstored ▸ ho.sorted
        publishing := by
          intro thread' p hp
          rw [hstored]
          rcases publishing_insert hp with ⟨-, hnew⟩ | hold
          · rw [hnew]
            exact ⟨ho.next_pos, Nat.lt_succ_self _, fun m hm => (ho.bounds m hm).2.ne⟩
          · obtain ⟨hpos, hlt, hids⟩ := ho.publishing thread' p hold
            exact ⟨hpos, hlt.trans (Nat.lt_succ_self _), hids⟩
        publishing_inj := fun _ _ _ _ hp₁ hp₂ hid => ho.publishing_insert_inj hp₁ hp₂ hid
        log := ho.log
        offset := ho.offset }

/-- A publish that returns leaves the identifiers of the others alone. -/
private theorem publishing_erase (ho : Ordered h st drained waiting) {thread : ThreadId}
    {p : Publishing} (hp : st.publishing.lookup thread = some p) {thread' : ThreadId}
    {p' : Publishing} (hp' : (st.publishing.erase thread).lookup thread' = some p') :
    st.publishing.lookup thread' = some p' ∧ p.msgId ≠ p'.msgId := by
  rcases eq_or_ne thread' thread with rfl | hne
  · rw [AList.lookup_erase] at hp'
    cases hp'
  · rw [AList.lookup_erase_ne hne] at hp'
    refine ⟨hp', fun hid => hne ?_⟩
    exact (ho.publishing_inj thread thread' p p' hp hp' hid).symm

/-- A publish that finds no room gives up its identifier. -/
theorem giveUp (ho : Ordered h st drained waiting) {thread : ThreadId} {p : Publishing}
    (hp : st.publishing.lookup thread = some p) {e : SharedEvent} (he : storedMessage e = none) :
    Ordered (h ++ [e]) { st with publishing := st.publishing.erase thread } drained waiting := by
  have hstored : stored (h ++ [e]) = stored h := by
    rw [stored_concat, he]
    simp
  exact
    { next_pos := ho.next_pos
      next_le := ho.next_le.trans (Nat.succ_le_succ (allocations_le_concat h e))
      capacity_le := ho.capacity_le
      stored_eq := hstored ▸ ho.stored_eq
      holds := ho.holds
      fresh := hstored ▸ ho.fresh
      bounds := hstored ▸ ho.bounds
      sorted := hstored ▸ ho.sorted
      publishing := fun thread' p' hp' => by
        rw [hstored]
        exact ho.publishing thread' p' (ho.publishing_erase hp hp').1
      publishing_inj := fun thread₁ thread₂ p₁ p₂ hp₁ hp₂ hid =>
        ho.publishing_inj _ _ p₁ p₂ (ho.publishing_erase hp hp₁).1
          (ho.publishing_erase hp hp₂).1 hid
      log := ho.log
      offset := ho.offset }

/-- A publish that finds room stores its message behind the waiting ones. No larger identifier
was stored before, so the order is kept. -/
theorem store (ho : Ordered h st drained waiting) {thread : ThreadId} {p : Publishing}
    (hp : st.publishing.lookup thread = some p) {m : StoredMessage} (hid : m.id = p.msgId)
    (hfresh : m.Fresh) (hless : ∀ m' ∈ stored h, m'.id < m.id) {e : SharedEvent}
    (he : storedMessage e = some m) {rb : SpscRingBuffer}
    (hcapacity : rb.capacity = st.td.ringBuffer.capacity)
    (hholds : ∃ H, rb.Holds H ((waiting ++ [m]).map StoredMessage.record)) :
    Ordered (h ++ [e]) { st with
      td := { st.td with ringBuffer := rb }
      publishing := st.publishing.erase thread } drained (waiting ++ [m]) := by
  have hstored : stored (h ++ [e]) = stored h ++ [m] := by
    rw [stored_concat, he]
    rfl
  have hall : ∀ {P : StoredMessage → Prop}, (∀ m' ∈ stored h, P m') → P m →
      ∀ m' ∈ stored (h ++ [e]), P m' := by
    intro P hold hnew m' hm'
    rw [hstored, List.mem_append, List.mem_singleton] at hm'
    rcases hm' with hm' | rfl
    · exact hold m' hm'
    · exact hnew
  obtain ⟨hpos, hlt, -⟩ := ho.publishing thread p hp
  rw [← hid] at hpos hlt
  refine
    { next_pos := ho.next_pos
      next_le := ho.next_le.trans (Nat.succ_le_succ (allocations_le_concat h e))
      capacity_le := hcapacity ▸ ho.capacity_le
      stored_eq := by rw [hstored, ho.stored_eq, List.append_assoc]
      holds := hholds
      fresh := hall ho.fresh hfresh
      bounds := hall ho.bounds ⟨hpos, hlt⟩
      sorted := ?_
      publishing := ?_
      publishing_inj := ?_
      log := ho.log
      offset := ho.offset }
  · rw [hstored, List.pairwise_append]
    refine ⟨ho.sorted, List.pairwise_singleton _ _, fun m' hm' m'' hm'' => ?_⟩
    rw [List.mem_singleton.mp hm'']
    exact hless m' hm'
  · intro thread' p' hp'
    obtain ⟨hold, hne⟩ := ho.publishing_erase hp hp'
    obtain ⟨hpos', hlt', hids'⟩ := ho.publishing thread' p' hold
    exact ⟨hpos', hlt', hall hids' (hid ▸ hne)⟩
  · intro thread₁ thread₂ p₁ p₂ hp₁ hp₂ heq
    exact ho.publishing_inj _ _ p₁ p₂ (ho.publishing_erase hp hp₁).1
      (ho.publishing_erase hp hp₂).1 heq

theorem push (ho : Ordered h st drained waiting) (thread : ThreadId) (expiryNowMs nowMs : UInt64)
    (hb : allocations (h.map StepMachine.Event.input) < 2 ^ 64 - 1)
    (hfair : overtaken h ((sharedTopic cfg).event st (.push thread expiryNowMs nowMs)) = false) :
    ∃ waiting', Ordered (h ++ [(sharedTopic cfg).event st (.push thread expiryNowMs nowMs)])
      ((sharedTopic cfg).step st (.push thread expiryNowMs nowMs)).1 drained waiting' := by
  set e := (sharedTopic cfg).event st (.push thread expiryNowMs nowMs) with he
  cases hp : st.publishing.lookup thread with
  | none =>
    have hstep := step_push_none cfg st hp expiryNowMs nowMs
    have hnone : storedMessage e = none := by
      rw [storedMessage, he, StepMachine.event_output, hstep]
    rw [hstep]
    exact ⟨waiting, ho.idle hnone st.pulling⟩
  | some p =>
    set m := p.message expiryNowMs nowMs with hm
    have hstep : (sharedTopic cfg).step st (.push thread expiryNowMs nowMs) =
        ({ st with
            td := { st.td with ringBuffer := (st.td.ringBuffer.push m.record).1 }
            publishing := st.publishing.erase thread },
          .published m (st.td.ringBuffer.push m.record).2) :=
      step_push_some cfg st hp expiryNowMs nowMs
    have hstored : storedMessage e =
        if (st.td.ringBuffer.push m.record).2 then some m else none := by
      rw [storedMessage, he, StepMachine.event_output, hstep]
      cases (st.td.ringBuffer.push m.record).2 <;> rfl
    obtain ⟨hpos, hlt, hids⟩ := ho.publishing thread p hp
    obtain ⟨H, hholds⟩ := ho.holds
    have hpush := hholds.push m.record
    rw [hstep]
    split at hpush
    · rename_i hroom
      obtain ⟨hok, hholds'⟩ := hpush
      have hload : (st.td.ringBuffer.pushLoad m.record).isSome := by
        rw [hholds.pushLoad_eq_some_iff.mpr ⟨hroom.1, hroom.2, rfl⟩]
        rfl
      have hless : ∀ m' ∈ stored h, m'.id < m.id := by
        intro m' hm'
        have hge : ¬ p.msgId < m'.id := by
          simp only [overtaken, he, StepMachine.event_input, StepMachine.event_pre, hp] at hfair
          rw [hload, Bool.true_and, List.any_eq_false] at hfair
          simpa using hfair m' hm'
        exact lt_of_le_of_ne (not_lt.mp hge) (hids m' hm')
      have hsize : kRecordHeaderSize + m.payload.length < 2 ^ 32 := by
        have hcap := ho.capacity_le
        have hfit := hroom.2
        rw [SpscRingBuffer.length_record, StoredMessage.length_record] at hfit
        omega
      have hfresh : m.Fresh := TopicData.fresh_published (hlt.trans (ho.next_lt hb)) hsize _ _ _
      rw [hok, if_pos rfl] at hstored
      refine ⟨waiting ++ [m], ho.store hp rfl hfresh hless hstored
        (SpscRingBuffer.push_capacity _ _) ⟨H, ?_⟩⟩
      rw [List.map_append]
      exact hholds'
    · rw [hpush, if_neg Bool.false_ne_true] at hstored
      rw [hpush]
      exact ⟨waiting, ho.giveUp hp hstored⟩

/-! ### The other steps -/

/-- A pull that reads the log moves the consumer's offset behind a drained message. -/
private theorem offset_pullDrained (ho : Ordered h st drained waiting) (call : PullCall)
    (nowMs : UInt64) (steadyNow : ℕ → ℤ) (c : Consumer) :
    (st.td.pullDrained call.c call.maxMessages nowMs steadyNow).1.offset c ≤ 1 ∨
      ∃ m ∈ drained,
        (st.td.pullDrained call.c call.maxMessages nowMs steadyNow).1.offset c ≤ m.id + 1 := by
  rcases eq_or_ne c call.c with rfl | hne
  · rcases st.td.pullDrained_offset_cases call.c call.maxMessages nowMs steadyNow with
      heq | ⟨m, hm, heq⟩
    · rw [heq, TopicData.startOffset]
      split
      · exact .inl le_rfl
      · exact ho.offset call.c
    · refine .inr ⟨m, ho.log.subset hm, ?_⟩
      rw [heq]
      exact Nat.mod_le _ _
  · rw [st.td.pullDrained_offset_ne _ _ _ _ hne]
    exact ho.offset c

/-- A pull with the mutex: the oldest waiting message enters the log, or the pull reads the
log and moves the consumer's offset. -/
theorem drain (ho : Ordered h st drained waiting) (nowMs : UInt64) (steadyNow : ℕ → ℤ) :
    ∃ drained' waiting', Ordered (h ++ [(sharedTopic cfg).event st (.drain nowMs steadyNow)])
      ((sharedTopic cfg).step st (.drain nowMs steadyNow)).1 drained' waiting' := by
  set e := (sharedTopic cfg).event st (.drain nowMs steadyNow) with he
  have hnone : storedMessage e = none := storedMessage_eq_none cfg st _ fun _ _ _ hop => nomatch hop
  have hidle := ho.idle hnone st.pulling
  cases hpulling : st.pulling with
  | none =>
    rw [step_drain_none cfg st hpulling]
    exact ⟨drained, waiting, hidle⟩
  | some call =>
    obtain ⟨H, hholds⟩ := ho.holds
    rcases st.td.drainTurn_spec hholds ho.waiting_fresh with
      hturn | ⟨m, rest, rb, hcons, hrest, hcap, hturn⟩
    · -- the ring buffer has nothing to give: the pull reads the log
      set td := (st.td.pullDrained call.c call.maxMessages nowMs steadyNow).1 with htd
      have hstep : ((sharedTopic cfg).step st (.drain nowMs steadyNow)).1 =
          { st with td := td, pulling := none } := by
        rw [step_drain_some cfg st hpulling, hturn]
        rfl
      rw [hstep]
      exact ⟨drained, waiting, ho.frame hnone td (st.td.pullDrained_ringBuffer _ _ _ _)
        (st.td.pullDrained_nextMsgId _ _ _ _) (ho.offset_pullDrained call nowMs steadyNow)
        (st.td.pullDrained_messageLog _ _ _ _ ▸ List.Sublist.refl _) none⟩
    · -- the oldest waiting message enters the log
      have hstep : ((sharedTopic cfg).step st (.drain nowMs steadyNow)).1 =
          { st with
            td := { st.td with ringBuffer := rb, messageLog := st.td.messageLog ++ [m] } } := by
        rw [step_drain_some cfg st hpulling, hturn]
        rfl
      rw [hstep]
      exact ⟨drained ++ [m], rest,
        { hidle with
          capacity_le := hcap ▸ hidle.capacity_le
          stored_eq := by
            rw [hidle.stored_eq, hcons, List.append_assoc]
            rfl
          holds := hrest
          log := hidle.log.append (List.Sublist.refl [m])
          offset := fun c => (hidle.offset c).imp_right fun hd =>
            hd.imp fun m' hm' => ⟨List.mem_append_left _ hm'.1, hm'.2⟩ }⟩

/-- Every step keeps the invariant, unless a publish is overtaken. -/
theorem step (ho : Ordered h st drained waiting) (op : SharedOp)
    (hb : allocations ((h ++ [(sharedTopic cfg).event st op]).map StepMachine.Event.input) <
      2 ^ 64 - 1)
    (hfair : overtaken h ((sharedTopic cfg).event st op) = false) :
    ∃ drained' waiting', Ordered (h ++ [(sharedTopic cfg).event st op])
      ((sharedTopic cfg).step st op).1 drained' waiting' := by
  have hle := allocations_le_concat h ((sharedTopic cfg).event st op)
  cases op with
  | allocate thread payload ttlMs =>
    exact ⟨drained, waiting, ho.allocate thread payload ttlMs hb⟩
  | push thread expiryNowMs nowMs =>
    exact ⟨drained, ho.push thread expiryNowMs nowMs (lt_of_le_of_lt hle hb) hfair⟩
  | lockPull c maxMessages =>
    have hnone := storedMessage_eq_none cfg st (.lockPull c maxMessages)
      fun _ _ _ hop => nomatch hop
    refine ⟨drained, waiting, ?_⟩
    rw [step_lockPull]
    split
    · exact ho.idle hnone st.pulling
    · exact ho.idle hnone _
  | drain nowMs steadyNow => exact ho.drain nowMs steadyNow
  | ack c msgId =>
    have hnone := storedMessage_eq_none cfg st (.ack c msgId) fun _ _ _ hop => nomatch hop
    obtain ⟨pendingAcks, hframe⟩ := TopicData.ack_frame st.td c msgId
    refine ⟨drained, waiting, ?_⟩
    rw [step_ack, hframe]
    split
    · exact ho.idle hnone st.pulling
    · exact ho.frame hnone { st.td with pendingAcks := pendingAcks } rfl rfl ho.offset
        (List.Sublist.refl _) _
  | retryPass clock order =>
    have hnone := storedMessage_eq_none cfg st (.retryPass clock order)
      fun _ _ _ hop => nomatch hop
    refine ⟨drained, waiting, ?_⟩
    rw [step_retryPass]
    split
    · exact ho.idle hnone st.pulling
    · exact ho.frame hnone (st.td.processPendingRetries cfg clock order).1 rfl rfl ho.offset
        (List.Sublist.refl _) _
  | expirePass nowMs =>
    have hnone := storedMessage_eq_none cfg st (.expirePass nowMs) fun _ _ _ hop => nomatch hop
    refine ⟨drained, waiting, ?_⟩
    rw [step_expirePass]
    split
    · exact ho.idle hnone st.pulling
    · exact ho.frame hnone (st.td.expireTopicMessages nowMs) rfl rfl ho.offset
        List.filter_sublist _

/-- What is in the log after a step was there before, or waited in the ring buffer. -/
theorem mem_messageLog_step (ho : Ordered h st drained waiting) {op : SharedOp} {m : StoredMessage}
    (hm : m ∈ ((sharedTopic cfg).step st op).1.td.messageLog) :
    m ∈ st.td.messageLog ∨ m ∈ waiting := by
  cases op with
  | allocate thread payload ttlMs =>
    rw [step_allocate] at hm
    split at hm <;> exact .inl hm
  | push thread expiryNowMs nowMs =>
    cases hp : st.publishing.lookup thread with
    | none =>
      rw [step_push_none cfg st hp] at hm
      exact .inl hm
    | some p =>
      rw [step_push_some cfg st hp] at hm
      exact .inl hm
  | lockPull c maxMessages =>
    rw [step_lockPull] at hm
    split at hm <;> exact .inl hm
  | drain nowMs steadyNow =>
    cases hpulling : st.pulling with
    | none =>
      rw [step_drain_none cfg st hpulling] at hm
      exact .inl hm
    | some call =>
      obtain ⟨H, hholds⟩ := ho.holds
      rw [step_drain_some cfg st hpulling] at hm
      rcases st.td.drainTurn_spec hholds ho.waiting_fresh with
        hturn | ⟨m', rest, rb, hcons, -, -, hturn⟩
      · rw [hturn, if_neg Bool.false_ne_true, TopicData.pullDrained_messageLog] at hm
        exact .inl hm
      · rw [hturn, if_pos rfl] at hm
        refine (List.mem_append.mp hm).imp_right fun hm => ?_
        rw [List.mem_singleton.mp hm, hcons]
        exact List.mem_cons_self
  | ack c msgId =>
    obtain ⟨pendingAcks, hframe⟩ := TopicData.ack_frame st.td c msgId
    rw [step_ack, hframe] at hm
    split at hm <;> exact .inl hm
  | retryPass clock order =>
    rw [step_retryPass] at hm
    split at hm <;> exact .inl hm
  | expirePass nowMs =>
    rw [step_expirePass] at hm
    split at hm
    · exact .inl hm
    · exact .inl (List.mem_of_mem_filter hm)

end Ordered

/-- The invariant holds after every run in which no publish is overtaken. -/
theorem ordered_run (cfg : StoreConfig) (topicName : TopicName) {bufferSize : ℕ}
    (hbuffer : bufferSize < 2 ^ 32) {ops : List SharedOp} (hcount : allocations ops < 2 ^ 64 - 1)
    (hfair : (sharedTopic cfg).Along (fun h e => overtaken h e = false)
      (init topicName bufferSize) ops) :
    ∃ drained waiting, Ordered ((sharedTopic cfg).trace (init topicName bufferSize) ops)
      ((sharedTopic cfg).run (init topicName bufferSize) ops) drained waiting := by
  refine (sharedTopic cfg).history_induction_along
    (P := fun h st => allocations (h.map StepMachine.Event.input) < 2 ^ 64 - 1 →
      ∃ drained waiting, Ordered h st drained waiting)
    (fun _ => ⟨[], [], ordered_init topicName hbuffer⟩) ?_ hfair ?_
  · intro h st op ih hstep hb
    obtain ⟨drained, waiting, ho⟩ := ih (lt_of_le_of_lt (allocations_le_concat _ _) hb)
    exact ho.step op hb hstep
  · rw [StepMachine.trace_map_input]
    exact hcount

/-- **Log order.** If no publish is overtaken, the identifiers in the log are strictly
increasing at every moment, and a message enters the log when every consumer still starts
to read at or below it. -/
theorem log_increasing (cfg : StoreConfig) (topicName : TopicName)
    (hbuffer : cfg.defaultBufferSize < 2 ^ 32) {ops : List SharedOp}
    (hcount : allocations ops < 2 ^ 64 - 1)
    (hfair : (sharedTopic cfg).Along (fun h e => overtaken h e = false)
      (init topicName cfg.defaultBufferSize) ops) :
    (sharedTopic cfg).Always (fun _ st => st.td.messageLog.Pairwise (·.id < ·.id))
      (init topicName cfg.defaultBufferSize) ops ∧
    ∀ e ∈ (sharedTopic cfg).trace (init topicName cfg.defaultBufferSize) ops,
      ∀ m ∈ ((sharedTopic cfg).step e.pre e.input).1.td.messageLog, m ∉ e.pre.td.messageLog →
        ∀ c, e.pre.td.startOffset c ≤ m.id := by
  -- the invariant holds after every part of the run
  have hpart : ∀ before after, ops = before ++ after → ∃ drained waiting,
      Ordered ((sharedTopic cfg).trace (init topicName cfg.defaultBufferSize) before)
        ((sharedTopic cfg).run (init topicName cfg.defaultBufferSize) before) drained waiting := by
    intro before after hops
    have hle : allocations before ≤ allocations ops := by
      rw [hops]
      exact (List.sublist_append_left before after).countP_le
    exact ordered_run cfg topicName hbuffer (lt_of_le_of_lt hle hcount)
      (StepMachine.Along.of_append _ (hops ▸ hfair))
  constructor
  · rintro before ⟨after, hops⟩
    obtain ⟨drained, waiting, ho⟩ := hpart before after hops.symm
    exact ho.log_sorted
  · intro e he m hm hnew c
    obtain ⟨before, after, hops, heq⟩ := (sharedTopic cfg).mem_trace he
    obtain ⟨drained, waiting, ho⟩ := hpart before (e.input :: after) hops
    rw [heq] at hm hnew ⊢
    exact ho.startOffset_le ((ho.mem_messageLog_step hm).resolve_left hnew) c

/-- Two publishes overlap; the pushes come in the order of the identifiers, the second one
while a pull drains. -/
def fairRun : List SharedOp :=
  [.allocate 0 [1] 0, .allocate 1 [2] 0, .push 0 0 0, .lockPull ⟨false, "c"⟩ 10,
    .drain 0 fun _ => 0, .push 1 0 0, .drain 0 fun _ => 0, .drain 0 fun _ => 0]

theorem log_increasing_fairRun :
    ((sharedTopic { defaultBufferSize := 128 }).run (init "t" 128) fairRun).td.messageLog.map
      StoredMessage.id = [1, 2] ∧
    (sharedTopic { defaultBufferSize := 128 }).Always
      (fun _ st => st.td.messageLog.Pairwise (·.id < ·.id)) (init "t" 128) fairRun :=
  ⟨by decide +kernel, (log_increasing { defaultBufferSize := 128 } "t" (by decide) (by decide)
    ((sharedTopic _).along_iff_getElem.mpr (by decide +kernel))).1⟩

/-- The second of two publishers pushes first, and a consumer pulls in between and again
afterwards. -/
def overtakingRun : List SharedOp :=
  [.allocate 0 [1] 0, .allocate 1 [2] 0, .push 1 0 0, .lockPull ⟨false, "c"⟩ 10,
    .drain 0 fun _ => 0, .drain 0 fun _ => 0, .push 0 0 0, .lockPull ⟨false, "c"⟩ 10,
    .drain 0 fun _ => 0, .drain 0 fun _ => 0]

/-- The log is out of order at the end, and the consumer never gets the first message. -/
theorem log_not_increasing_overtakingRun :
    ¬ (sharedTopic { defaultBufferSize := 128 }).Always
      (fun _ st => st.td.messageLog.Pairwise (·.id < ·.id)) (init "t" 128) overtakingRun ∧
    ((sharedTopic { defaultBufferSize := 128 }).trace (init "t" 128) overtakingRun).getLast?.map
      (·.output) = some (.returned (.pulled [])) := by
  refine ⟨fun h => ?_, by decide +kernel⟩
  have hsorted := h.run
  revert hsorted
  decide +kernel

end SharedTopic

end ProtoMsgQueue
