import ProtoMsgQueue.Lib.StepMachine
import ProtoMsgQueue.Lib.UnorderedMap
import ProtoMsgQueue.RingBuffer.SpscRingBuffer
import ProtoMsgQueue.Storage.StoredMessage

/-!
# One topic of the memory message store

`TopicData` of `storage/memory_message_store.h` and the operations of
`MemoryMessageStore` on it. A publish goes through the ring buffer; a pull drains the ring
into the log, reads the log from the consumer's offset on and then the retry queue; an
acknowledgement removes a pending entry; two background passes requeue timed-out entries
and remove expired messages. Every operation holds the topic's mutex, so a run is a list
of operations.

Clock readings are inputs. The steady clock is read once for each delivered message and
counted in nanoseconds; the loops over `pending_acks` take a visiting order.
-/

namespace ProtoMsgQueue

open UnorderedMap

/-- The arguments of the constructor of `MemoryMessageStore` that its operations read. -/
structure StoreConfig where
  /-- The capacity of the ring buffer of a new topic. -/
  defaultBufferSize : ℕ := 1024 * 1024
  /-- How often a message is requeued before it goes to the dead-letter queue. -/
  maxRetryCount : UInt32 := 3
  /-- How long a delivered message may stay unacknowledged. -/
  pendingTimeoutMs : UInt32 := 5000

/-- A delivered message that was not acknowledged. -/
structure PendingMessage where
  /-- The message as delivered. -/
  msg : StoredMessage
  /-- When it was delivered, in nanoseconds of the steady clock. -/
  pullTime : ℤ
deriving DecidableEq, Repr

/-- The consumer key: groups and independent subscribers have separate name spaces. -/
def makeConsumerKey (isGroup : Bool) (id : String) : String :=
  if isGroup then "grp:" ++ id else "sub:" ++ id

/-- A consumer: a group or an independent subscriber. -/
structure Consumer where
  /-- Is it a group? -/
  isGroup : Bool
  /-- The group or subscriber name. -/
  consumerId : String
deriving DecidableEq, Repr

/-- The key of a consumer. -/
def Consumer.key (c : Consumer) : String := makeConsumerKey c.isGroup c.consumerId

/-- Different consumers have different keys, even a group and a subscriber of one name. -/
theorem Consumer.key_injective : Function.Injective Consumer.key := by
  rintro ⟨g, i⟩ ⟨g', i'⟩ h
  have hlist := congrArg String.toList h
  cases g <;> cases g' <;> simp [Consumer.key, makeConsumerKey] at hlist ⊢
  · exact String.toList_injective hlist
  · exact String.toList_injective hlist

/-- Pending entries of one consumer. -/
abbrev PendingMap := UnorderedMap MessageId PendingMessage

/-- The state of a topic. -/
structure TopicData where
  /-- The topic's name. -/
  topicName : TopicName
  /-- Published messages not yet in the log, serialized. -/
  ringBuffer : SpscRingBuffer
  /-- The log. -/
  messageLog : List StoredMessage := []
  /-- Timed-out messages waiting for redelivery. -/
  retryQueue : List StoredMessage := []
  /-- The next message identifier of each subscriber. -/
  subscriberOffsets : UnorderedMap String MessageId := ∅
  /-- The next message identifier of each group. -/
  groupOffsets : UnorderedMap String MessageId := ∅
  /-- Delivered messages without acknowledgement, by consumer key. -/
  pendingAcks : UnorderedMap String PendingMap := ∅
  /-- The identifier of the next published message, 64 bits. -/
  nextMsgId : MessageId := 1

/-- The visiting orders of a pass over `pending_acks`. -/
structure PassOrder where
  /-- The consumers. -/
  consumers : VisitOrder String PendingMap
  /-- The entries of one consumer. -/
  entries : VisitOrder MessageId PendingMessage

/-- The order of the association lists. -/
def PassOrder.canonical : PassOrder := ⟨.entries _ _, .entries _ _⟩

namespace TopicData

variable (td : TopicData)

/-- A new topic. -/
def ofName (topicName : TopicName) (bufferSize : ℕ) : TopicData where
  topicName := topicName
  ringBuffer := SpscRingBuffer.ofCapacity bufferSize

/-- The offset of a consumer; zero before its first pull. -/
def offset (c : Consumer) : MessageId :=
  valueAt (if c.isGroup then td.groupOffsets else td.subscriberOffsets) c.key 0

/-- Store the offset of a consumer. -/
def setOffset (c : Consumer) (value : MessageId) : TopicData :=
  if c.isGroup then { td with groupOffsets := td.groupOffsets.insert c.key value }
  else { td with subscriberOffsets := td.subscriberOffsets.insert c.key value }

/-- The pending entries under a consumer key. -/
def pendingOf (key : String) : PendingMap := valueAt td.pendingAcks key ∅

/-! ### Publish -/

/-- The expiry of a message published at `nowMs`, in 64-bit arithmetic. -/
def expiresAt (ttlMs : UInt32) (nowMs : UInt64) : ℕ :=
  if 0 < ttlMs then (nowMs.toNat + ttlMs.toNat) % 2 ^ 64 else 0

/-- Publish a message. The identifier is taken even if the ring buffer is full. The clock
is read for the expiry and again for the timestamp. -/
def publish (payload : Payload) (ttlMs : UInt32) (expiryNowMs nowMs : UInt64) :
    TopicData × MessageId × Bool :=
  let msgId := td.nextMsgId
  let serialized := serialize msgId nowMs.toNat (expiresAt ttlMs expiryNowMs) payload
  let (ringBuffer, ok) := td.ringBuffer.push serialized
  ({ td with ringBuffer := ringBuffer, nextMsgId := (msgId + 1) % 2 ^ 64 }, msgId, ok)

/-! ### Pull -/

/-- Pop records and append the messages they contain to the log. A loop that ends pops
each read position at most once, so the number of cells bounds its turns. -/
def drainLoop : ℕ → SpscRingBuffer → List StoredMessage → SpscRingBuffer × List StoredMessage
  | 0, rb, log => (rb, log)
  | fuel + 1, rb, log =>
    match rb.pop with
    | (rb', none) => (rb', log)
    | (rb', some buf) =>
      match parseRecord buf with
      | none => drainLoop fuel rb' log
      | some msg => drainLoop fuel rb' (log ++ [msg])

/-- Move what was published into the log. -/
def drainRingBuffer : TopicData :=
  let (ringBuffer, messageLog) :=
    drainLoop td.ringBuffer.capacity td.ringBuffer td.messageLog
  { td with ringBuffer := ringBuffer, messageLog := messageLog }

/-- What the loops of a pull change. -/
structure PullState where
  /-- The messages to return. -/
  result : List StoredMessage
  /-- The consumer's offset. -/
  offset : MessageId
  /-- The pending entries of all consumers. -/
  pendingAcks : UnorderedMap String PendingMap

/-- What the loops of a pull read: the consumer key, the limit, the time, and the readings
of the steady clock, one for each delivered message. -/
structure PullArgs where
  /-- The consumer key. -/
  consumerKey : String
  /-- The largest number of messages to return. -/
  maxMessages : UInt32
  /-- The system clock. -/
  nowMs : UInt64
  /-- The steady clock when the `n`-th message is delivered. -/
  steadyNow : ℕ → ℤ

namespace PullState

/-- Are there as many messages as asked for? -/
def full (st : PullState) (args : PullArgs) : Bool := args.maxMessages.toNat ≤ st.result.length

/-- The entries `pending_acks[consumer_key]` refers to. -/
def pendingMap (st : PullState) (args : PullArgs) : PendingMap :=
  valueAt st.pendingAcks args.consumerKey ∅

/-- The state after `pending_acks[consumer_key]` was evaluated. -/
def touchPending (st : PullState) (args : PullArgs) : PullState :=
  { st with pendingAcks := touch st.pendingAcks args.consumerKey ∅ }

/-- Return a message and make it pending. -/
def deliver (st : PullState) (args : PullArgs) (msg : StoredMessage) : PullState :=
  { st with
    result := st.result ++ [msg]
    pendingAcks := st.pendingAcks.insert args.consumerKey
      ((st.pendingMap args).insert msg.id ⟨msg, args.steadyNow st.result.length⟩) }

end PullState

/-- The loop over the log: from the offset on, skip expired messages and deliver those
that are not pending already. -/
def pullLog (args : PullArgs) : List StoredMessage → PullState → PullState
  | [], st => st
  | msg :: log, st =>
    if st.full args then st
    else if st.offset ≤ msg.id then
      if msg.isExpired args.nowMs then
        pullLog args log { st with offset := (msg.id + 1) % 2 ^ 64 }
      else
        let st := st.touchPending args
        if msg.id ∈ st.pendingMap args then pullLog args log st
        else pullLog args log { st.deliver args msg with offset := (msg.id + 1) % 2 ^ 64 }
    else pullLog args log st

/-- The loop over the retry queue, whatever the offset: expired messages leave it, and so
do those delivered. The remaining queue and the state. -/
def pullRetry (args : PullArgs) : List StoredMessage → PullState → List StoredMessage × PullState
  | [], st => ([], st)
  | msg :: queue, st =>
    if st.full args then (msg :: queue, st)
    else if msg.isExpired args.nowMs then pullRetry args queue st
    else
      let st := st.touchPending args
      if msg.id ∈ st.pendingMap args then
        let (kept, st) := pullRetry args queue st
        (msg :: kept, st)
      else pullRetry args queue (st.deliver args msg)

/-- The offset from which a pull reads: the first message for a new consumer. -/
def startOffset (c : Consumer) : MessageId := if td.offset c = 0 then 1 else td.offset c

/-- The state in which the loop over the log starts, the ring being drained. -/
def pullStart (c : Consumer) : PullState := ⟨[], td.startOffset c, td.pendingAcks⟩

/-- Pull messages for a consumer. -/
def pull (c : Consumer) (maxMessages : UInt32) (nowMs : UInt64) (steadyNow : ℕ → ℤ) :
    TopicData × List StoredMessage :=
  let args : PullArgs := ⟨c.key, maxMessages, nowMs, steadyNow⟩
  let td := td.drainRingBuffer
  let (retryQueue, st) := pullRetry args td.retryQueue (pullLog args td.messageLog (td.pullStart c))
  ({ td.setOffset c st.offset with retryQueue := retryQueue, pendingAcks := st.pendingAcks },
    st.result)

/-! ### Acknowledge -/

/-- Acknowledge a message for a consumer. -/
def ack (c : Consumer) (msgId : MessageId) : TopicData × Bool :=
  let pendingAcks := touch td.pendingAcks c.key ∅
  let pendingMap := valueAt pendingAcks c.key ∅
  if msgId ∈ pendingMap then
    ({ td with pendingAcks := pendingAcks.insert c.key (pendingMap.erase msgId) }, true)
  else ({ td with pendingAcks := pendingAcks }, false)

/-! ### The background passes -/

/-- Has a pending entry timed out? Nanoseconds are truncated to milliseconds. -/
def timedOut (cfg : StoreConfig) (steadyNow : ℤ) (pending : PendingMessage) : Bool :=
  (cfg.pendingTimeoutMs.toNat : ℤ) ≤ (steadyNow - pending.pullTime).tdiv 1000000

/-- Put a message back into the retry queue, in place of an older record of it. -/
def requeue (retryQueue : List StoredMessage) (msgId : MessageId) (msg : StoredMessage) :
    List StoredMessage :=
  retryQueue.filter (fun m => m.id ≠ msgId) ++ [msg.retried]

/-- What the scan of one consumer's entries changes. -/
structure ScanState where
  /-- The entries to remove afterwards. -/
  toRemove : List MessageId
  /-- The retry queue. -/
  retryQueue : List StoredMessage
  /-- What goes to the dead-letter queue. -/
  dlq : List StoredMessage

/-- The clock readings of a pass. -/
structure PassClock where
  /-- The steady clock, in nanoseconds. -/
  steadyNow : ℤ
  /-- The system clock. -/
  nowMs : UInt64

/-- A timed-out entry: an expired message is dropped, one that was retried often enough
goes to the dead-letter queue, any other one is requeued. -/
def retryEntry (cfg : StoreConfig) (clock : PassClock) (st : ScanState) (msgId : MessageId)
    (pending : PendingMessage) : ScanState :=
  if pending.msg.isExpired clock.nowMs then st
  else if cfg.maxRetryCount.toNat ≤ pending.msg.retryCount then
    { st with dlq := st.dlq ++ [pending.msg] }
  else { st with retryQueue := requeue st.retryQueue msgId pending.msg }

/-- One turn of the loop over a consumer's entries. -/
def scanEntry (cfg : StoreConfig) (clock : PassClock) (pendingMap : PendingMap) (st : ScanState)
    (msgId : MessageId) : ScanState :=
  match pendingMap.lookup msgId with
  | none => st
  | some pending =>
    if timedOut cfg clock.steadyNow pending then
      retryEntry cfg clock { st with toRemove := st.toRemove ++ [msgId] } msgId pending
    else st

/-- What a pass over all consumers changes. -/
structure PassState where
  /-- The pending entries. -/
  pendingAcks : UnorderedMap String PendingMap
  /-- The retry queue. -/
  retryQueue : List StoredMessage
  /-- What goes to the dead-letter queue. -/
  dlq : List StoredMessage
  /-- Consumers without entries. -/
  emptyConsumerKeys : List String

/-- Remove entries of a consumer and note whether none is left. -/
def removeEntries (st : PassState) (key : String) (pendingMap : PendingMap)
    (toRemove : List MessageId) : PassState :=
  let pendingMap := eraseAll pendingMap toRemove
  { st with
    pendingAcks := st.pendingAcks.insert key pendingMap
    emptyConsumerKeys :=
      if pendingMap.keys = [] then st.emptyConsumerKeys ++ [key] else st.emptyConsumerKeys }

/-- One turn of the retry pass: scan a consumer's entries, then remove the timed-out ones. -/
def retryConsumer (cfg : StoreConfig) (clock : PassClock) (order : PassOrder) (st : PassState)
    (key : String) : PassState :=
  match st.pendingAcks.lookup key with
  | none => st
  | some pendingMap =>
    let scan := (order.entries.visit pendingMap).foldl (scanEntry cfg clock pendingMap)
      ⟨[], st.retryQueue, st.dlq⟩
    removeEntries { st with retryQueue := scan.retryQueue, dlq := scan.dlq } key pendingMap
      scan.toRemove

/-- The retry pass: requeue what timed out. The topic and what goes to the dead-letter
queue. -/
def processPendingRetries (cfg : StoreConfig) (clock : PassClock) (order : PassOrder) :
    TopicData × List StoredMessage :=
  let st := (order.consumers.visit td.pendingAcks).foldl (retryConsumer cfg clock order)
    ⟨td.pendingAcks, td.retryQueue, [], []⟩
  ({ td with
      pendingAcks := eraseAll st.pendingAcks st.emptyConsumerKeys
      retryQueue := st.retryQueue }, st.dlq)

/-- The entries of a consumer that have expired. -/
def expiredEntries (nowMs : UInt64) (pendingMap : PendingMap) : List MessageId :=
  pendingMap.keys.filter fun msgId =>
    match pendingMap.lookup msgId with
    | none => false
    | some pending => pending.msg.isExpired nowMs

/-- One turn of the expiration pass over the pending entries. -/
def expireConsumer (nowMs : UInt64) (st : PassState) (key : String) : PassState :=
  match st.pendingAcks.lookup key with
  | none => st
  | some pendingMap => removeEntries st key pendingMap (expiredEntries nowMs pendingMap)

/-- The expiration pass: remove expired messages everywhere. Nothing depends on the order
in which the entries are visited. -/
def expireTopicMessages (nowMs : UInt64) : TopicData :=
  let messageLog := td.messageLog.filter fun m => !m.isExpired nowMs
  let retryQueue := td.retryQueue.filter fun m => !m.isExpired nowMs
  let st := td.pendingAcks.keys.foldl (expireConsumer nowMs) ⟨td.pendingAcks, retryQueue, [], []⟩
  { td with
    messageLog := messageLog
    retryQueue := retryQueue
    pendingAcks := eraseAll st.pendingAcks st.emptyConsumerKeys }

end TopicData

/-! ### Runs -/

/-- An operation on a topic, with the clock readings it makes. -/
inductive TopicOp where
  /-- `Publish`. -/
  | publish (payload : Payload) (ttlMs : UInt32) (expiryNowMs nowMs : UInt64)
  /-- `Pull`. -/
  | pull (c : Consumer) (maxMessages : UInt32) (nowMs : UInt64) (steadyNow : ℕ → ℤ)
  /-- `Ack`. -/
  | ack (c : Consumer) (msgId : MessageId)
  /-- `ProcessPendingRetries`. -/
  | retryPass (clock : TopicData.PassClock) (order : PassOrder)
  /-- `ExpireTopicMessages`. -/
  | expirePass (nowMs : UInt64)

/-- What an operation returns. -/
inductive TopicResult where
  /-- The identifier and whether the message was accepted. -/
  | published (msgId : MessageId) (ok : Bool)
  /-- The messages. -/
  | pulled (msgs : List StoredMessage)
  /-- Whether the message was pending. -/
  | acked (ok : Bool)
  /-- What went to the dead-letter queue. -/
  | retried (dlq : List StoredMessage)
  /-- Nothing. -/
  | expired
deriving DecidableEq

/-- A topic under a store's configuration. -/
def topic (cfg : StoreConfig) : StepMachine TopicData TopicOp TopicResult where
  step td
    | .publish payload ttlMs expiryNowMs nowMs =>
      let (td, msgId, ok) := td.publish payload ttlMs expiryNowMs nowMs
      (td, .published msgId ok)
    | .pull c maxMessages nowMs steadyNow =>
      let (td, msgs) := td.pull c maxMessages nowMs steadyNow
      (td, .pulled msgs)
    | .ack c msgId =>
      let (td, ok) := td.ack c msgId
      (td, .acked ok)
    | .retryPass clock order =>
      let (td, dlq) := td.processPendingRetries cfg clock order
      (td, .retried dlq)
    | .expirePass nowMs => (td.expireTopicMessages nowMs, .expired)

/-- A recorded operation. -/
abbrev TopicEvent := StepMachine.Event TopicData TopicOp TopicResult

end ProtoMsgQueue
