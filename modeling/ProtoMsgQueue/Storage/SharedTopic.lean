import ProtoMsgQueue.Storage.Passes
import ProtoMsgQueue.Storage.Pull

/-!
# A topic used by several threads

`Publish` takes its identifier by `fetch_add` and pushes to the ring buffer later, both
without a lock; `Pull` holds the topic's mutex while it drains the ring buffer record by
record and reads the log. `sharedTopic` is the machine of these steps: any number of
threads may be between the two steps of a publish, also while a pull drains. Run without
interruption the steps are the operations of `topic`.

The mutex admits one pull at a time, and no acknowledgement or pass during a pull; a step
that has to wait for the mutex changes nothing.
-/

namespace ProtoMsgQueue

open UnorderedMap

/-- A publish that took its identifier and did not push yet. -/
structure Publishing where
  /-- The identifier. -/
  msgId : MessageId
  /-- The body. -/
  payload : Payload
  /-- The time to live, zero for none. -/
  ttlMs : UInt32

/-- The message it pushes. -/
def Publishing.message (p : Publishing) (expiryNowMs nowMs : UInt64) : StoredMessage where
  id := p.msgId
  payload := p.payload
  timestamp := nowMs.toNat
  expiresAt := TopicData.expiresAt p.ttlMs expiryNowMs

/-- A pull that drains the ring buffer. -/
structure PullCall where
  /-- The consumer. -/
  c : Consumer
  /-- The largest number of messages to return. -/
  maxMessages : UInt32

/-- A topic and what its threads are doing. -/
structure SharedTopic where
  /-- The topic. -/
  td : TopicData
  /-- The publishes that did not push yet. -/
  publishing : UnorderedMap ThreadId Publishing := ∅
  /-- The pull that holds the mutex. -/
  pulling : Option PullCall := none

namespace TopicData

variable (td : TopicData)

/-- The start of `Publish`: `fetch_add` on the next identifier. -/
def allocate : TopicData × MessageId :=
  ({ td with nextMsgId := (td.nextMsgId + 1) % 2 ^ 64 }, td.nextMsgId)

/-- The end of `Publish`: push the serialized message. -/
def pushMessage (msg : StoredMessage) : TopicData × Bool :=
  let (ringBuffer, ok) := td.ringBuffer.push msg.record
  ({ td with ringBuffer := ringBuffer }, ok)

/-- One turn of the loop of `DrainRingBuffer`. Does the loop go on? -/
def drainTurn : TopicData × Bool :=
  match td.ringBuffer.pop with
  | (rb, none) => ({ td with ringBuffer := rb }, false)
  | (rb, some buf) =>
    match parseRecord buf with
    | none => ({ td with ringBuffer := rb }, true)
    | some msg => ({ td with ringBuffer := rb, messageLog := td.messageLog ++ [msg] }, true)

/-- The rest of `Pull` after `DrainRingBuffer`. -/
def pullDrained (c : Consumer) (maxMessages : UInt32) (nowMs : UInt64) (steadyNow : ℕ → ℤ) :
    TopicData × List StoredMessage :=
  let args : PullArgs := ⟨c.key, maxMessages, nowMs, steadyNow⟩
  let (retryQueue, st) := pullRetry args td.retryQueue (pullLog args td.messageLog (td.pullStart c))
  ({ td.setOffset c st.offset with retryQueue := retryQueue, pendingAcks := st.pendingAcks },
    st.result)

/-! ### What the steps do -/

/-- A turn of the drain loop ends it, or moves the oldest waiting message into the log. -/
theorem drainTurn_spec {H : ℕ} {waiting : List StoredMessage}
    (hrb : td.ringBuffer.Holds H (waiting.map StoredMessage.record))
    (hfresh : ∀ m ∈ waiting, m.Fresh) :
    td.drainTurn = (td, false) ∨
      ∃ m rest rb, waiting = m :: rest ∧
        (∃ H', SpscRingBuffer.Holds rb H' (rest.map StoredMessage.record)) ∧
        rb.capacity = td.ringBuffer.capacity ∧
        td.drainTurn =
          ({ td with ringBuffer := rb, messageLog := td.messageLog ++ [m] }, true) := by
  cases waiting with
  | nil =>
    left
    rw [drainTurn, hrb.pop_nil]
  | cons m rest =>
    have hm : m.Fresh := hfresh m List.mem_cons_self
    have hpop := hrb.pop_cons (by rw [StoredMessage.length_record]; exact hm.size_lt)
    split at hpop
    · -- a record that exceeds the payload limit stays where it is
      left
      rw [drainTurn, hpop]
    · right
      obtain ⟨hdata, hrest⟩ := hpop
      refine ⟨m, rest, td.ringBuffer.pop.1, rfl, ⟨_, hrest⟩,
        SpscRingBuffer.pop_capacity _, ?_⟩
      rw [drainTurn]
      cases hp : td.ringBuffer.pop with
      | mk rb result =>
        rw [hp] at hdata
        obtain rfl : result = some m.record := hdata
        simp only [hm.parseRecord_record]

section PullDrained

variable (c : Consumer) (maxMessages : UInt32) (nowMs : UInt64) (steadyNow : ℕ → ℤ)

theorem pullDrained_messageLog :
    (td.pullDrained c maxMessages nowMs steadyNow).1.messageLog = td.messageLog :=
  setOffset_messageLog _ _ _

theorem pullDrained_ringBuffer :
    (td.pullDrained c maxMessages nowMs steadyNow).1.ringBuffer = td.ringBuffer :=
  setOffset_ringBuffer _ _ _

theorem pullDrained_nextMsgId :
    (td.pullDrained c maxMessages nowMs steadyNow).1.nextMsgId = td.nextMsgId :=
  setOffset_nextMsgId _ _ _

theorem pullDrained_offset_ne {c' : Consumer} (h : c' ≠ c) :
    (td.pullDrained c maxMessages nowMs steadyNow).1.offset c' = td.offset c' :=
  setOffset_offset_ne _ _ _ h

/-- The offset stays, or moves behind a message of the log. -/
theorem pullDrained_offset_cases :
    (td.pullDrained c maxMessages nowMs steadyNow).1.offset c = td.startOffset c ∨
      ∃ m ∈ td.messageLog,
        (td.pullDrained c maxMessages nowMs steadyNow).1.offset c = (m.id + 1) % 2 ^ 64 := by
  set args : PullArgs := ⟨c.key, maxMessages, nowMs, steadyNow⟩
  have hretry := (pullRetry_spec args td.retryQueue
    (pullLog args td.messageLog (td.pullStart c))).2.2.2
  have hoffset : (td.pullDrained c maxMessages nowMs steadyNow).1.offset c =
      (pullLog args td.messageLog (td.pullStart c)).offset :=
    (setOffset_offset _ _ _).trans hretry
  rw [hoffset]
  exact pullLog_offset_cases args td.messageLog (td.pullStart c)

end PullDrained

/-! ### The steps put together -/

/-- A publish is an allocation and a push. -/
theorem publish_eq (payload : Payload) (ttlMs : UInt32) (expiryNowMs nowMs : UInt64) :
    td.publish payload ttlMs expiryNowMs nowMs =
      ((td.allocate.1.pushMessage (Publishing.message ⟨td.nextMsgId, payload, ttlMs⟩
          expiryNowMs nowMs)).1, td.allocate.2,
        (td.allocate.1.pushMessage (Publishing.message ⟨td.nextMsgId, payload, ttlMs⟩
          expiryNowMs nowMs)).2) := rfl

/-- Turns of the drain loop, as many as given or until it ends. -/
def drainTurns : ℕ → TopicData → TopicData
  | 0, td => td
  | n + 1, td =>
    match td.drainTurn with
    | (td, true) => drainTurns n td
    | (td, false) => td

/-- Draining the ring buffer is turn after turn. -/
theorem drainRingBuffer_eq_drainTurns :
    td.drainRingBuffer = drainTurns td.ringBuffer.capacity td := by
  have hturns : ∀ n (td : TopicData), drainTurns n td =
      { td with
        ringBuffer := (drainLoop n td.ringBuffer td.messageLog).1
        messageLog := (drainLoop n td.ringBuffer td.messageLog).2 } := by
    intro n
    induction n with
    | zero => intro td; rfl
    | succ n ih =>
      intro td
      rw [drainTurns, drainLoop, drainTurn]
      rcases td.ringBuffer.pop with ⟨rb, - | buf⟩
      · rfl
      · dsimp only
        rcases parseRecord buf with - | msg
        · exact ih _
        · exact ih _
  rw [hturns]
  rfl

/-- A pull drains the ring buffer, then reads. -/
theorem pull_eq (c : Consumer) (maxMessages : UInt32) (nowMs : UInt64) (steadyNow : ℕ → ℤ) :
    td.pull c maxMessages nowMs steadyNow =
      td.drainRingBuffer.pullDrained c maxMessages nowMs steadyNow := rfl

end TopicData

/-! ### Runs -/

/-- A step of a thread, with the clock readings it makes. -/
inductive SharedOp where
  /-- A thread enters `Publish` and takes an identifier. -/
  | allocate (thread : ThreadId) (payload : Payload) (ttlMs : UInt32)
  /-- The thread reads the clocks and pushes. -/
  | push (thread : ThreadId) (expiryNowMs nowMs : UInt64)
  /-- A thread enters `Pull` and takes the mutex. -/
  | lockPull (c : Consumer) (maxMessages : UInt32)
  /-- The pull pops a record; when there is none, it reads the log and returns. -/
  | drain (nowMs : UInt64) (steadyNow : ℕ → ℤ)
  /-- `Ack`. -/
  | ack (c : Consumer) (msgId : MessageId)
  /-- `ProcessPendingRetries`. -/
  | retryPass (clock : TopicData.PassClock) (order : PassOrder)
  /-- `ExpireTopicMessages`. -/
  | expirePass (nowMs : UInt64)

/-- What a step returns. -/
inductive SharedResult where
  /-- The call goes on, or has to wait. -/
  | running
  /-- `Publish` returned: the message and whether it was accepted. -/
  | published (msg : StoredMessage) (ok : Bool)
  /-- Another operation returned. -/
  | returned (result : TopicResult)
deriving DecidableEq

/-- The steps of all threads. -/
def sharedTopic (cfg : StoreConfig) : StepMachine SharedTopic SharedOp SharedResult where
  step st
    | .allocate thread payload ttlMs =>
      -- a thread is in one call at a time
      if thread ∈ st.publishing then (st, .running)
      else
        let (td, msgId) := st.td.allocate
        ({ st with td := td, publishing := st.publishing.insert thread ⟨msgId, payload, ttlMs⟩ },
          .running)
    | .push thread expiryNowMs nowMs =>
      match st.publishing.lookup thread with
      | none => (st, .running)
      | some p =>
        let msg := p.message expiryNowMs nowMs
        let (td, ok) := st.td.pushMessage msg
        ({ st with td := td, publishing := st.publishing.erase thread }, .published msg ok)
    | .lockPull c maxMessages =>
      match st.pulling with
      | some _ => (st, .running)
      | none => ({ st with pulling := some ⟨c, maxMessages⟩ }, .running)
    | .drain nowMs steadyNow =>
      match st.pulling with
      | none => (st, .running)
      | some call =>
        match st.td.drainTurn with
        | (td, true) => ({ st with td := td }, .running)
        | (td, false) =>
          let (td, msgs) := td.pullDrained call.c call.maxMessages nowMs steadyNow
          ({ st with td := td, pulling := none }, .returned (.pulled msgs))
    | .ack c msgId =>
      match st.pulling with
      | some _ => (st, .running)
      | none =>
        let (td, ok) := st.td.ack c msgId
        ({ st with td := td }, .returned (.acked ok))
    | .retryPass clock order =>
      match st.pulling with
      | some _ => (st, .running)
      | none =>
        let (td, dlq) := st.td.processPendingRetries cfg clock order
        ({ st with td := td }, .returned (.retried dlq))
    | .expirePass nowMs =>
      match st.pulling with
      | some _ => (st, .running)
      | none => ({ st with td := st.td.expireTopicMessages nowMs }, .returned .expired)

section Step

variable (cfg : StoreConfig) (st : SharedTopic)

/-! An operation under the mutex waits while a pull drains. -/

theorem step_lockPull (c : Consumer) (maxMessages : UInt32) :
    ((sharedTopic cfg).step st (.lockPull c maxMessages)).1 =
      if st.pulling.isSome then st else { st with pulling := some ⟨c, maxMessages⟩ } := by
  cases hpulling : st.pulling <;> simp only [sharedTopic, hpulling] <;> rfl

theorem step_ack (c : Consumer) (msgId : MessageId) :
    ((sharedTopic cfg).step st (.ack c msgId)).1 =
      if st.pulling.isSome then st else { st with td := (st.td.ack c msgId).1 } := by
  cases hpulling : st.pulling <;> simp only [sharedTopic, hpulling] <;> rfl

theorem step_retryPass (clock : TopicData.PassClock) (order : PassOrder) :
    ((sharedTopic cfg).step st (.retryPass clock order)).1 =
      if st.pulling.isSome then st
      else { st with td := (st.td.processPendingRetries cfg clock order).1 } := by
  cases hpulling : st.pulling <;> simp only [sharedTopic, hpulling] <;> rfl

theorem step_expirePass (nowMs : UInt64) :
    ((sharedTopic cfg).step st (.expirePass nowMs)).1 =
      if st.pulling.isSome then st else { st with td := st.td.expireTopicMessages nowMs } := by
  cases hpulling : st.pulling <;> simp only [sharedTopic, hpulling] <;> rfl

theorem step_allocate (thread : ThreadId) (payload : Payload) (ttlMs : UInt32) :
    ((sharedTopic cfg).step st (.allocate thread payload ttlMs)).1 =
      if thread ∈ st.publishing then st
      else
        { st with
          td := st.td.allocate.1
          publishing := st.publishing.insert thread ⟨st.td.nextMsgId, payload, ttlMs⟩ } := by
  simp only [sharedTopic]
  split <;> rfl

/-- A push by a thread that does not publish. -/
theorem step_push_none {thread : ThreadId} (hp : st.publishing.lookup thread = none)
    (expiryNowMs nowMs : UInt64) :
    (sharedTopic cfg).step st (.push thread expiryNowMs nowMs) = (st, .running) := by
  simp only [sharedTopic, hp]

theorem step_push_some {thread : ThreadId} {p : Publishing}
    (hp : st.publishing.lookup thread = some p) (expiryNowMs nowMs : UInt64) :
    (sharedTopic cfg).step st (.push thread expiryNowMs nowMs) =
      ({ st with
          td := (st.td.pushMessage (p.message expiryNowMs nowMs)).1
          publishing := st.publishing.erase thread },
        .published (p.message expiryNowMs nowMs)
          (st.td.pushMessage (p.message expiryNowMs nowMs)).2) := by
  simp only [sharedTopic, hp]

/-- A drain without a pull. -/
theorem step_drain_none (hpulling : st.pulling = none) (nowMs : UInt64) (steadyNow : ℕ → ℤ) :
    ((sharedTopic cfg).step st (.drain nowMs steadyNow)).1 = st := by
  simp only [sharedTopic, hpulling]

theorem step_drain_some {call : PullCall} (hpulling : st.pulling = some call) (nowMs : UInt64)
    (steadyNow : ℕ → ℤ) :
    ((sharedTopic cfg).step st (.drain nowMs steadyNow)).1 =
      if st.td.drainTurn.2 then { st with td := st.td.drainTurn.1 }
      else
        { st with
          td := (st.td.drainTurn.1.pullDrained call.c call.maxMessages nowMs steadyNow).1
          pulling := none } := by
  simp only [sharedTopic, hpulling]
  rcases st.td.drainTurn with ⟨td, more⟩
  cases more <;> rfl

end Step

/-- A recorded step. -/
abbrev SharedEvent := StepMachine.Event SharedTopic SharedOp SharedResult

/-- A new topic that no thread uses. -/
def SharedTopic.init (topicName : TopicName) (bufferSize : ℕ) : SharedTopic where
  td := TopicData.ofName topicName bufferSize

/-- The number of identifiers taken. -/
def allocations (ops : List SharedOp) : ℕ :=
  ops.countP fun
    | .allocate .. => true
    | _ => false

/-- The message whose push returned true. -/
def storedMessage (e : SharedEvent) : Option StoredMessage :=
  match e.output with
  | .published msg true => some msg
  | _ => none

/-- The messages in the order in which they were stored in the ring buffer. -/
def stored (h : List SharedEvent) : List StoredMessage := h.filterMap storedMessage

/-- Is the step a push for which there is room in the ring buffer, after a message with a
larger identifier was stored? -/
def overtaken (h : List SharedEvent) (e : SharedEvent) : Bool :=
  match e.input with
  | .push thread expiryNowMs nowMs =>
    match e.pre.publishing.lookup thread with
    | none => false
    | some p =>
      (e.pre.td.ringBuffer.pushLoad (p.message expiryNowMs nowMs).record).isSome &&
        (stored h).any fun m => p.msgId < m.id
  | _ => false

end ProtoMsgQueue
