import ProtoMsgQueue.Storage.TopicAt

/-!
# Room in the ring buffer

A publish is accepted iff its record fits into what is free of the ring buffer. The background
threads of the store only touch the pending entries, the retry queue and the log, so a round of
them frees nothing: `publish_after_round_iff` says that a publish after it is accepted iff it
would have been before. Only a pull drains the ring buffer. `publish_roomAt` says what a publish
leaves of the room in its topic.
-/

namespace ProtoMsgQueue

open UnorderedMap

namespace SpscRingBuffer

variable (rb : SpscRingBuffer)

/-- A push is accepted iff the record is not empty and fits behind the unread bytes. -/
theorem push_snd_iff (data : List UInt8) : (rb.push data).2 = true ↔
    data ≠ [] ∧ rb.getReadableSize + (4 + data.length) ≤ rb.capacity - 1 := by
  have hsum := rb.getReadableSize_add_getWritableSize
  rw [getWritableSize] at hsum
  rw [push, pushLoad, ← List.length_pos_iff]
  split
  · rename_i hload
    refine iff_of_false Bool.false_ne_true ?_
    rintro ⟨hpos, hfit⟩
    split at hload
    · omega
    · dsimp only at hload
      split at hload
      · omega
      · cases hload
  · rename_i hload
    refine iff_of_true rfl ?_
    split at hload
    · cases hload
    · dsimp only at hload
      split at hload
      · cases hload
      · omega

/-- An accepted record takes its place from the free bytes. -/
theorem getWritableSize_push (data : List UInt8) : (rb.push data).1.getWritableSize =
    if (rb.push data).2 then rb.getWritableSize - (4 + data.length) else rb.getWritableSize := by
  have hiff := rb.push_snd_iff data
  have hsum := rb.getReadableSize_add_getWritableSize
  cases hok : (rb.push data).2 with
  | false =>
    rw [if_neg Bool.false_ne_true]
    rw [push] at hok ⊢
    split at hok
    · rfl
    · cases hok
  | true =>
    rw [hok, eq_self, true_iff] at hiff
    rw [if_pos rfl]
    have hpush : (rb.push data).1.head = rb.head ∧ (rb.push data).1.capacity = rb.capacity ∧
        (rb.push data).1.tail = (rb.tail + (4 + data.length)) % rb.capacity := by
      rw [push] at hok ⊢
      split at hok
      · cases hok
      · rename_i tail hload
        have htail : rb.tail = tail := by
          rw [pushLoad] at hload
          split at hload
          · cases hload
          · dsimp only at hload
            split at hload
            · cases hload
            · exact Option.some_inj.mp hload
        rw [htail]
        exact ⟨rfl, rfl, rfl⟩
    obtain ⟨hhead, hcapacity, htail⟩ := hpush
    have hhead_lt := rb.head_lt
    have htail_lt := rb.tail_lt
    have hread : (rb.push data).1.getReadableSize = rb.getReadableSize + (4 + data.length) := by
      rw [getReadableSize, getReadableSize, hhead, hcapacity, htail]
      rw [getReadableSize] at hiff
      rw [← Nat.mod_eq_of_lt (show (rb.tail + rb.capacity - rb.head) % rb.capacity +
        (4 + data.length) < rb.capacity by omega), Nat.mod_add_mod]
      have hsub : rb.tail + rb.capacity - rb.head + (4 + data.length) =
          rb.tail + (4 + data.length) + (rb.capacity - rb.head) := by omega
      rw [hsub, Nat.add_sub_assoc hhead_lt.le, Nat.mod_add_mod]
    have hsum' := (rb.push data).1.getReadableSize_add_getWritableSize
    rw [hread, hcapacity] at hsum'
    omega

end SpscRingBuffer

/-! ### Room left by publishes -/

/-- What publishes to a topic depend on. -/
structure TopicRoom where
  /-- The free bytes of the ring buffer. -/
  free : ℕ
  /-- The identifier of the next message. -/
  nextMsgId : MessageId

/-- Is there room for a payload with its header and length? -/
def TopicRoom.accepts (room : TopicRoom) (payload : Payload) : Bool :=
  4 + (kRecordHeaderSize + payload.length) ≤ room.free

/-- What is left after a publish. A message that is refused takes an identifier too. -/
def TopicRoom.publish (room : TopicRoom) (payload : Payload) : TopicRoom where
  free := if room.accepts payload then room.free - (4 + (kRecordHeaderSize + payload.length))
    else room.free
  nextMsgId := (room.nextMsgId + 1) % 2 ^ 64

/-! ### The background threads -/

/-- Is the operation a background pass? -/
def TopicOp.isPass : TopicOp → Bool
  | .retryPass .. => true
  | .expirePass .. => true
  | _ => false

/-- What the environment decides in a round of the background threads. -/
structure RoundEnv where
  /-- The order in which `RetryLoop` visits the topics. -/
  retryOrder : VisitOrder TopicName TopicData
  /-- The clocks of the retry passes. -/
  clock : TopicName → TopicData.PassClock
  /-- The orders of the retry passes. -/
  passOrder : TopicName → PassOrder
  /-- The order in which `ExpirationLoop` visits the topics. -/
  expireOrder : VisitOrder TopicName TopicData
  /-- The clocks of the expiration passes. -/
  nowMs : TopicName → UInt64

namespace MemoryMessageStore

variable (store : MemoryMessageStore)

/-- The passes of an iteration of `RetryLoop`. -/
def retryLoop (env : RoundEnv) : List StoreOp :=
  (env.retryOrder.visit store.topics).map fun t =>
    .onTopic t (.retryPass (env.clock t) (env.passOrder t))

/-- The passes of an iteration of `ExpirationLoop`. -/
def expirationLoop (env : RoundEnv) : List StoreOp :=
  (env.expireOrder.visit store.topics).map fun t => .onTopic t (.expirePass (env.nowMs t))

/-- The store after a round of both threads. -/
def backgroundRound (env : RoundEnv) : MemoryMessageStore :=
  let store := messageStore.run store (store.retryLoop env)
  messageStore.run store (store.expirationLoop env)

variable {store}

/-- A pass leaves the ring buffers alone. -/
theorem ringBuffer_topicAt_step_pass {t : TopicName} {top : TopicOp} (hpass : top.isPass = true)
    (t' : TopicName) : ((messageStore.step store (.onTopic t' top)).1.topicAt t).ringBuffer =
      (store.topicAt t).ringBuffer := by
  by_cases hmade : t' ∈ store.topics ∨ top.isPublish = true
  swap
  · rw [step_onTopic_unmade hmade]
  rcases eq_or_ne t' t with rfl | hne
  · rw [(topicAt_step_onTopic store hmade).1]
    cases top with
    | retryPass clock order => rfl
    | expirePass nowMs => rfl
    | _ => cases hpass
  · have hother : (StoreOp.onTopic t' top).onTopic? t = none := if_neg hne
    rw [topicAt_step_other store hother nofun]

/-- Passes over any topics leave the ring buffers alone. -/
theorem ringBuffer_topicAt_run_passes {ops : List StoreOp}
    (hops : ∀ op ∈ ops, ∃ t top, op = .onTopic t top ∧ top.isPass = true) (t : TopicName) :
    ((messageStore.run store ops).topicAt t).ringBuffer = (store.topicAt t).ringBuffer := by
  induction ops generalizing store with
  | nil => rfl
  | cons op ops ih =>
    obtain ⟨t', top, rfl, hpass⟩ := hops op List.mem_cons_self
    rw [StepMachine.run_cons, ih fun op hop => hops op (List.mem_cons_of_mem _ hop),
      ringBuffer_topicAt_step_pass hpass]

/-- **A round** of the background threads frees nothing in the ring buffers. -/
theorem ringBuffer_topicAt_backgroundRound (env : RoundEnv) (t : TopicName) :
    ((store.backgroundRound env).topicAt t).ringBuffer = (store.topicAt t).ringBuffer := by
  rw [backgroundRound, ringBuffer_topicAt_run_passes, ringBuffer_topicAt_run_passes]
  · intro op hop
    obtain ⟨t', -, rfl⟩ := List.mem_map.mp hop
    exact ⟨t', _, rfl, rfl⟩
  · intro op hop
    obtain ⟨t', -, rfl⟩ := List.mem_map.mp hop
    exact ⟨t', _, rfl, rfl⟩

/-- The ring buffers of a reachable store have the size it was configured with. -/
theorem capacity_topicAt_run (config : StoreConfig) (ops : List StoreOp) (t : TopicName) :
    ((messageStore.run (ofConfig config) ops).topicAt t).ringBuffer.capacity =
      config.defaultBufferSize + 1 := by
  obtain ⟨tops, hrun, -⟩ := topicsReached_run (topicsReached_ofConfig config) ops t
  rw [hrun, TopicData.capacity_run, newTopic, config_run]
  rfl

/-- A publish is accepted iff its record fits behind what is not drained. -/
theorem publish_snd_iff (store : MemoryMessageStore) (t : TopicName) (payload : Payload)
    (ttlMs : UInt32) (expiryNowMs nowMs : UInt64) :
    (store.publish t payload ttlMs expiryNowMs nowMs).2.2 = true ↔
      (store.topicAt t).ringBuffer.getReadableSize + (4 + (kRecordHeaderSize + payload.length)) ≤
        (store.topicAt t).ringBuffer.capacity - 1 := by
  have hpush := (store.topicAt t).ringBuffer.push_snd_iff
    (serialize (store.topicAt t).nextMsgId nowMs.toNat (TopicData.expiresAt ttlMs expiryNowMs)
      payload)
  rw [length_serialize, ← List.length_pos_iff, length_serialize] at hpush
  refine hpush.trans (and_iff_right ?_)
  exact Nat.add_pos_left (by decide) _

/-! ### Publishes -/

/-- The room in a topic of the store. -/
def roomAt (store : MemoryMessageStore) (t : TopicName) : TopicRoom where
  free := (store.topicAt t).ringBuffer.getWritableSize
  nextMsgId := (store.topicAt t).nextMsgId

/-- **A publish** is accepted if there is room, and leaves less of it in its topic. -/
theorem publish_roomAt (store : MemoryMessageStore) (t : TopicName) (payload : Payload)
    (ttlMs : UInt32) (expiryNowMs nowMs : UInt64) :
    let out := store.publish t payload ttlMs expiryNowMs nowMs
    out.2.1 = (store.roomAt t).nextMsgId ∧ out.2.2 = (store.roomAt t).accepts payload ∧
      out.1.roomAt = Function.update store.roomAt t ((store.roomAt t).publish payload) := by
  intro out
  have hsum := (store.topicAt t).ringBuffer.getReadableSize_add_getWritableSize
  have haccepts : out.2.2 = (store.roomAt t).accepts payload := by
    rw [Bool.eq_iff_iff, TopicRoom.accepts, decide_eq_true_iff, publish_snd_iff, roomAt]
    dsimp only
    omega
  refine ⟨rfl, haccepts, funext fun t' => ?_⟩
  rcases eq_or_ne t' t with rfl | hne
  · have htopic : out.1.topicAt t' =
        ((store.topicAt t').publish payload ttlMs expiryNowMs nowMs).1 :=
      (@topicAt_step_onTopic store t' (.publish payload ttlMs expiryNowMs nowMs) (Or.inr rfl)).1
    have hpush := (store.topicAt t').ringBuffer.getWritableSize_push
      (serialize (store.topicAt t').nextMsgId nowMs.toNat (TopicData.expiresAt ttlMs expiryNowMs)
        payload)
    rw [length_serialize] at hpush
    rw [Function.update_self, TopicRoom.publish, ← haccepts, roomAt, htopic]
    exact congrArg (TopicRoom.mk · _) hpush
  · rw [Function.update_of_ne hne, roomAt, roomAt]
    have hother : out.1.topicAt t' = store.topicAt t' :=
      @topicAt_step_other store t' (.onTopic t (.publish payload ttlMs expiryNowMs nowMs))
        (if_neg hne.symm) nofun
    rw [hother]

/-- **Backpressure** ends only with a pull. After every run of a store and a round of its
background threads a publish is accepted iff its record and its length fit the buffer behind
the bytes that were published and not drained before the round. -/
theorem publish_after_round_iff (config : StoreConfig) (ops : List StoreOp) (env : RoundEnv)
    (t : TopicName) (payload : Payload) (ttlMs : UInt32) (expiryNowMs nowMs : UInt64) :
    let store := messageStore.run (ofConfig config) ops
    ((store.backgroundRound env).publish t payload ttlMs expiryNowMs nowMs).2.2 = true ↔
      (store.topicAt t).ringBuffer.getReadableSize + (4 + (kRecordHeaderSize + payload.length)) ≤
        config.defaultBufferSize := by
  intro store
  rw [publish_snd_iff, ringBuffer_topicAt_backgroundRound, capacity_topicAt_run,
    Nat.add_sub_cancel]

/-- A message fills the buffer. After a round it is still full. -/
theorem not_publish_after_round :
    let payload : Payload := List.replicate 32 0
    let store := messageStore.run (ofConfig { defaultBufferSize := 64 })
      [.onTopic "t" (.publish payload 0 0 0)]
    let env : RoundEnv :=
      { retryOrder := .entries _ _
        clock := fun _ => ⟨10000000000, 10000⟩
        passOrder := fun _ => .canonical
        expireOrder := .entries _ _
        nowMs := fun _ => 10000 }
    4 + (kRecordHeaderSize + payload.length) ≤ 64 ∧ "t" ∈ store.topics ∧
      ((store.backgroundRound env).publish "t" payload 0 0 10000).2.2 = false := by
  decide +kernel

end MemoryMessageStore

end ProtoMsgQueue
