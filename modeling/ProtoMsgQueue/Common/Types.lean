import Mathlib.Data.Nat.Notation

/-!
# Common types

The aliases and constants of `common/types.h`. Identifiers are unbounded naturals; the
operations that can wrap in the source reduce modulo the width of its type.
-/

namespace ProtoMsgQueue

/-- A topic name (`std::string`). -/
abbrev TopicName := String

/-- A subscriber name (`std::string`). -/
abbrev SubscriberId := String

/-- A message identifier (`uint64_t`). -/
abbrev MessageId := ℕ

/-- A message body (`std::vector<uint8_t>`). -/
abbrev Payload := List UInt8

/-- A connection identifier (`uint64_t`). -/
abbrev ConnectionId := ℕ

/-- The largest payload a frame or a ring record may announce: 16 MiB. -/
def kMaxPayloadSize : ℕ := 16 * 1024 * 1024

/-- A thread: the event thread, a background thread or one of the application. -/
abbrev ThreadId := ℕ

end ProtoMsgQueue
