import Mathlib.Data.Nat.Notation

/-!
# Error codes

The enumeration of `common/error_code.h`, its numbers on the wire and its texts.
-/

namespace ProtoMsgQueue

/-- The errors a broker reports. -/
inductive ErrorCode where
  | success
  | unknown
  | invalidRequest
  | topicNotFound
  | topicAlreadyExists
  | notSubscribed
  | alreadySubscribed
  | rateLimitExceeded
  | bufferFull
  | messageNotFound
  | duplicateMessage
  | batchSizeExceeded
  | adminCommandFailed
deriving DecidableEq, Repr

namespace ErrorCode

/-- The number of an error. -/
def toUInt32 : ErrorCode → UInt32
  | success => 0
  | unknown => 1
  | invalidRequest => 2
  | topicNotFound => 3
  | topicAlreadyExists => 4
  | notSubscribed => 5
  | alreadySubscribed => 6
  | rateLimitExceeded => 7
  | bufferFull => 8
  | messageNotFound => 9
  | duplicateMessage => 10
  | batchSizeExceeded => 11
  | adminCommandFailed => 12

end ErrorCode

/-- The text of an error. -/
def errorCodeToString : ErrorCode → String
  | .success => "Success"
  | .unknown => "Unknown error"
  | .invalidRequest => "Invalid request"
  | .topicNotFound => "Topic not found"
  | .topicAlreadyExists => "Topic already exists"
  | .notSubscribed => "Not subscribed"
  | .alreadySubscribed => "Already subscribed"
  | .rateLimitExceeded => "Rate limit exceeded"
  | .bufferFull => "Buffer full"
  | .messageNotFound => "Message not found"
  | .duplicateMessage => "Duplicate message"
  | .batchSizeExceeded => "Batch size exceeded"
  | .adminCommandFailed => "Admin command failed"

/-- Different errors have different numbers. -/
theorem ErrorCode.toUInt32_injective : Function.Injective ErrorCode.toUInt32 := by
  intro e e' h
  cases e <;> cases e' <;> first | rfl | exact absurd h (by decide)

end ProtoMsgQueue
