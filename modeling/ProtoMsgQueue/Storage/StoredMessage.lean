import ProtoMsgQueue.Common.Types
import ProtoMsgQueue.Lib.BigEndian

/-!
# Stored messages and their serialized form

`StoredMessage` of `storage/message_store.h`, and the byte layout in which `Publish` hands
a message to the ring buffer and `DrainRingBuffer` reads it back: message id, timestamp,
expiry, payload size, payload.
-/

namespace ProtoMsgQueue

open BigEndian

/-- A message in the store. -/
structure StoredMessage where
  /-- The message identifier. -/
  id : MessageId
  /-- The topic, left empty in the log. -/
  topicName : TopicName := ""
  /-- The body. -/
  payload : Payload
  /-- When it was published, in milliseconds. -/
  timestamp : ℕ
  /-- How often it was requeued, 32 bits. -/
  retryCount : ℕ := 0
  /-- When it expires, in milliseconds; zero is never. -/
  expiresAt : ℕ := 0
deriving DecidableEq, Repr

namespace StoredMessage

/-- Has the message expired at `nowMs`? -/
def isExpired (msg : StoredMessage) (nowMs : UInt64) : Bool :=
  0 < msg.expiresAt && msg.expiresAt < nowMs.toNat

/-- The message as it was first delivered. -/
def firstDelivery (msg : StoredMessage) : StoredMessage := { msg with retryCount := 0 }

/-- The message with its retry count increased. -/
def retried (msg : StoredMessage) : StoredMessage :=
  { msg with retryCount := (msg.retryCount + 1) % 2 ^ 32 }

@[simp] theorem isExpired_firstDelivery (msg : StoredMessage) (nowMs : UInt64) :
    msg.firstDelivery.isExpired nowMs = msg.isExpired nowMs := rfl

@[simp] theorem isExpired_retried (msg : StoredMessage) (nowMs : UInt64) :
    msg.retried.isExpired nowMs = msg.isExpired nowMs := rfl

@[simp] theorem firstDelivery_retried (msg : StoredMessage) :
    msg.retried.firstDelivery = msg.firstDelivery := rfl

@[simp] theorem firstDelivery_id (msg : StoredMessage) : msg.firstDelivery.id = msg.id := rfl

@[simp] theorem retried_id (msg : StoredMessage) : msg.retried.id = msg.id := rfl

/-- A message without expiry never expires. -/
theorem isExpired_of_expiresAt_eq_zero {msg : StoredMessage} (h : msg.expiresAt = 0)
    (nowMs : UInt64) : msg.isExpired nowMs = false := by
  simp [isExpired, h]

end StoredMessage

/-- The size of a serialized message without its payload. -/
def kRecordHeaderSize : ℕ := 8 + 8 + 8 + 4

/-- The bytes handed to the ring buffer. The payload size is cast to 32 bits. -/
def serialize (msgId timestamp expiresAt : ℕ) (payload : Payload) : List UInt8 :=
  beBytes 8 msgId ++ (beBytes 8 timestamp ++ (beBytes 8 expiresAt ++
    (beBytes 4 payload.length ++ payload)))

/-- Read a serialized message; nothing for a buffer that is too short. -/
def parseRecord (buf : List UInt8) : Option StoredMessage :=
  if buf.length < kRecordHeaderSize then none
  else
    let msgId := beValue (buf.take 8)
    let timestamp := beValue ((buf.drop 8).take 8)
    let expiresAt := beValue ((buf.drop 16).take 8)
    let payloadSize := beValue ((buf.drop 24).take 4)
    if buf.length < kRecordHeaderSize + payloadSize then none
    else
      some { id := msgId
             topicName := ""
             payload := (buf.drop kRecordHeaderSize).take payloadSize
             timestamp := timestamp
             retryCount := 0
             expiresAt := expiresAt }

/-- A message read from a record was never retried. -/
theorem parseRecord_retryCount {buf : List UInt8} {msg : StoredMessage}
    (h : parseRecord buf = some msg) : msg.retryCount = 0 := by
  rw [parseRecord] at h
  split at h
  · cases h
  · dsimp only at h
    split at h
    · cases h
    · rw [← Option.some_inj.mp h]

@[simp] theorem length_serialize (msgId timestamp expiresAt : ℕ) (payload : Payload) :
    (serialize msgId timestamp expiresAt payload).length = kRecordHeaderSize + payload.length := by
  simp only [serialize, List.length_append, length_beBytes, kRecordHeaderSize]
  omega

/-- **Round trip** of the record layout. -/
theorem parseRecord_serialize {msgId timestamp expiresAt : ℕ} {payload : Payload}
    (hid : msgId < 2 ^ 64) (htime : timestamp < 2 ^ 64) (hexp : expiresAt < 2 ^ 64)
    (hsize : payload.length < 2 ^ 32) :
    parseRecord (serialize msgId timestamp expiresAt payload) =
      some { id := msgId, payload := payload, timestamp := timestamp, expiresAt := expiresAt } := by
  have h₁ : (serialize msgId timestamp expiresAt payload).take 8 = beBytes 8 msgId :=
    List.take_left' (length_beBytes _ _)
  have h₂ : (serialize msgId timestamp expiresAt payload).drop 8 =
      beBytes 8 timestamp ++ (beBytes 8 expiresAt ++ (beBytes 4 payload.length ++ payload)) :=
    List.drop_left' (length_beBytes _ _)
  have h₃ : (serialize msgId timestamp expiresAt payload).drop 16 =
      beBytes 8 expiresAt ++ (beBytes 4 payload.length ++ payload) := by
    rw [show 16 = 8 + 8 from rfl, ← List.drop_drop, h₂]
    exact List.drop_left' (length_beBytes _ _)
  have h₄ : (serialize msgId timestamp expiresAt payload).drop 24 =
      beBytes 4 payload.length ++ payload := by
    rw [show 24 = 16 + 8 from rfl, ← List.drop_drop, h₃]
    exact List.drop_left' (length_beBytes _ _)
  have h₅ : (serialize msgId timestamp expiresAt payload).drop kRecordHeaderSize = payload := by
    rw [show kRecordHeaderSize = 24 + 4 from rfl, ← List.drop_drop, h₄]
    exact List.drop_left' (length_beBytes _ _)
  have hlen : beValue (beBytes 4 payload.length) = payload.length :=
    beValue_beBytes_of_lt (show payload.length < 256 ^ 4 from hsize)
  simp only [parseRecord, h₁, h₂, h₃, h₄, h₅, length_serialize,
    List.take_left' (length_beBytes _ _), hlen, List.take_length]
  rw [if_neg (by omega), if_neg (by omega), beValue_beBytes_of_lt (show _ < 256 ^ 8 from hid),
    beValue_beBytes_of_lt (show _ < 256 ^ 8 from htime),
    beValue_beBytes_of_lt (show _ < 256 ^ 8 from hexp)]

end ProtoMsgQueue
