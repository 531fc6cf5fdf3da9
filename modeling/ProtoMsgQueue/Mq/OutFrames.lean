import ProtoMsgQueue.Lib.WireFormat
import ProtoMsgQueue.Mq.Broker
import ProtoMsgQueue.Protocol.OneShot

/-!
# What a broker puts on the wire

The contents of a frame are serialized by generated code, which is a parameter here:
`Serializes` says that a message has the size its fields have in the wire format, and that there
is no message above the limit of the library. `decodable_iff` says that the peer decodes a frame
iff its contents fit the payload limit, a check that `SendFrame` does not make.
-/

namespace ProtoMsgQueue

open WireFormat StreamingFrameCodec

/-! ### Fields -/

/-- The bytes of a text. -/
def utf8Bytes (text : String) : List UInt8 := text.toUTF8.data.toList

theorem length_utf8Bytes (text : String) : (utf8Bytes text).length = text.utf8ByteSize := rfl

/-- The fields of `Response`, with their widths. -/
def Response.wireFields (resp : Response) : List Field := [
  .uint 1 resp.success.toNat,
  .bytes 2 (utf8Bytes resp.errorMsg),
  .uint 3 (resp.messageId % 2 ^ 64),
  .uint 4 resp.errorCode.toNat]

/-- The fields of `PushMessage`, with their widths. -/
def PushMessage.wireFields (msg : PushMessage) : List Field := [
  .uint 1 (msg.messageId % 2 ^ 64),
  .bytes 2 (utf8Bytes msg.topic),
  .bytes 3 msg.payload,
  .uint 4 (msg.timestamp % 2 ^ 64),
  .uint 5 (msg.retryCount % 2 ^ 32),
  .uint 6 msg.compressed.toNat]

/-- The fields of `AdminResponse`. -/
def AdminResponse.wireFields (resp : AdminResponse) : List Field := [
  .uint 1 resp.success.toNat,
  .bytes 2 (utf8Bytes resp.errorMsg),
  .bytes 3 (utf8Bytes resp.jsonResult)]

/-- The number of bytes of a serialized `PushMessage`. -/
def PushMessage.wireSize (msg : PushMessage) : ℕ := messageSize msg.wireFields

namespace OutFrame

/-- The fields of the message in a frame. -/
def wireFields : OutFrame → List Field
  | response resp => resp.wireFields
  | push msg => msg.wireFields
  | batchPush msgs => msgs.map fun msg => .element 1 (encodeMessage msg.wireFields)
  | pong => []
  | admin resp => resp.wireFields

/-- The number of bytes of the message in a frame. -/
def wireSize (frame : OutFrame) : ℕ := messageSize frame.wireFields

/-- The entries of a batch have the sizes of their messages. -/
theorem wireSize_batchPush (msgs : List PushMessage) : (batchPush msgs).wireSize =
    (msgs.map fun msg => lengthDelimitedSize 1 msg.wireSize).sum := by
  rw [wireSize, wireFields, messageSize, List.map_map]
  refine congrArg List.sum (List.map_congr_left fun msg _ => ?_)
  rw [Function.comp, Field.size, length_encodeMessage]
  rfl

/-- The type of a frame. -/
def msgType : OutFrame → FrameMessageType
  | response _ => .response
  | push _ => .push
  | batchPush _ => .batchPush
  | pong => .pong
  | admin _ => .admin

/-- The frame handed to `SendFrame`. `SerializeToString` may fail, and leaves its text empty. -/
def toFrame (serializeToString : OutFrame → Option (List UInt8)) (frame : OutFrame) : Frame where
  msgType := frame.msgType
  payload :=
    match frame with
    | pong => []
    | frame => (serializeToString frame).getD []

end OutFrame

/-! ### The serializer -/

/-- The size above which the library serializes nothing: `INT_MAX`. -/
def kIntMax : ℕ := 2 ^ 31 - 1

/-- A serializer of the wire format. -/
structure Serializes (serializeToString : OutFrame → Option (List UInt8)) : Prop where
  length_eq : ∀ frame data, serializeToString frame = some data → data.length = frame.wireSize
  eq_none_iff : ∀ frame, serializeToString frame = none ↔ kIntMax < frame.wireSize

/-- The wire format itself. -/
def wireSerializer (frame : OutFrame) : Option (List UInt8) :=
  if kIntMax < frame.wireSize then none else some (encodeMessage frame.wireFields)

theorem serializes_wireSerializer : Serializes wireSerializer where
  length_eq frame data h := by
    rw [wireSerializer] at h
    split at h
    · cases h
    · rw [← Option.some_inj.mp h, length_encodeMessage]
      rfl
  eq_none_iff frame := by
    rw [wireSerializer]
    split
    · rename_i hlarge
      exact iff_of_true rfl hlarge
    · rename_i hle
      exact iff_of_false nofun hle

/-- The number of bytes of a message lets it reach the peer: it fits a payload, or it is so large
that it is not serialized and the frame is empty. -/
def FitsFrame (size : ℕ) : Prop := size ≤ kMaxPayloadSize ∨ kIntMax < size

instance (size : ℕ) : Decidable (FitsFrame size) := by
  unfold FitsFrame
  infer_instance

theorem Serializes.length_payload_le_iff {serializeToString : OutFrame → Option (List UInt8)}
    (h : Serializes serializeToString) (frame : OutFrame) :
    (frame.toFrame serializeToString).payload.length ≤ kMaxPayloadSize ↔
      FitsFrame frame.wireSize := by
  by_cases hpong : frame = .pong
  · rw [hpong]
    exact iff_of_true (Nat.zero_le _) (Or.inl (Nat.zero_le _))
  have hpayload : (frame.toFrame serializeToString).payload =
      (serializeToString frame).getD [] := by
    cases frame with
    | pong => exact absurd rfl hpong
    | _ => rfl
  rw [hpayload]
  rcases hdata : serializeToString frame with - | data
  · exact iff_of_true (Nat.zero_le _) (Or.inr ((h.eq_none_iff frame).mp hdata))
  · have hsmall : ¬kIntMax < frame.wireSize := fun hlarge => by
      rw [(h.eq_none_iff frame).mpr hlarge] at hdata
      cases hdata
    rw [Option.getD_some, h.length_eq frame data hdata]
    exact (or_iff_left hsmall).symm

/-! ### What the peer reads -/

/-- The peer decodes a frame that arrives on its connection: the payload is within the limit, and
a codec that waits for a frame returns it, whatever comes behind. -/
structure Decodable (serializeToString : OutFrame → Option (List UInt8)) (frame : OutFrame) :
    Prop where
  length_le : (frame.toFrame serializeToString).payload.length ≤ kMaxPayloadSize
  returned : ∀ rest, (waiting (FrameCodec.encode (frame.toFrame serializeToString) ++
    rest)).tryParseFrame = (some (withLength (frame.toFrame serializeToString)), waiting rest)

/-- **Frames.** The peer decodes exactly the frames within the limit. -/
theorem decodable_iff {serializeToString : OutFrame → Option (List UInt8)}
    (h : Serializes serializeToString) (frame : OutFrame) :
    Decodable serializeToString frame ↔ FitsFrame frame.wireSize := by
  rw [← h.length_payload_le_iff frame]
  exact ⟨Decodable.length_le, fun hle => ⟨hle, tryParseFrame_encode ⟨rfl, rfl, hle⟩⟩⟩

end ProtoMsgQueue
