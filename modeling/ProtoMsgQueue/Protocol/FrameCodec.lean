import ProtoMsgQueue.Common.Types
import ProtoMsgQueue.Lib.BigEndian

/-!
# Frames and their encoding

The wire format of `protocol/frame_protocol.h` and the encoders of
`protocol/frame_codec.cpp`. A frame is a ten-byte header (magic, version, message type,
length) followed by the payload. `encode` builds the whole byte string;
`encodeHeaderToBuffer` writes only the header, for the gathering send.
-/

namespace ProtoMsgQueue

open BigEndian

/-- The magic number every frame starts with. -/
def kFrameMagic : ℕ := 0xDEADBEEF

/-- The protocol version. -/
def kFrameVersion : UInt8 := 0x01

/-- Magic (4), version (1), message type (1), length (4). -/
def kFrameHeaderSize : ℕ := 10

/-- The message type of a frame: an enumeration over `uint8_t`, so a cast from the wire
can hold any byte. -/
structure FrameMessageType where
  /-- The byte on the wire. -/
  value : UInt8
deriving DecidableEq, Repr

namespace FrameMessageType

/-- Not a known message. -/
def unknown : FrameMessageType := ⟨0⟩

/-- Publish one message. -/
def publish : FrameMessageType := ⟨1⟩

/-- Subscribe to a topic. -/
def subscribe : FrameMessageType := ⟨2⟩

/-- End a subscription. -/
def unsubscribe : FrameMessageType := ⟨3⟩

/-- Pull messages. -/
def pull : FrameMessageType := ⟨4⟩

/-- Acknowledge a message. -/
def ack : FrameMessageType := ⟨5⟩

/-- Response to a request. -/
def response : FrameMessageType := ⟨6⟩

/-- One message pushed to a subscriber. -/
def push : FrameMessageType := ⟨7⟩

/-- Publish several messages. -/
def batchPublish : FrameMessageType := ⟨9⟩

/-- Several messages pushed to a subscriber. -/
def batchPush : FrameMessageType := ⟨10⟩

/-- Heartbeat. -/
def ping : FrameMessageType := ⟨11⟩

/-- Answer to a heartbeat. -/
def pong : FrameMessageType := ⟨12⟩

/-- Administration. -/
def admin : FrameMessageType := ⟨13⟩

end FrameMessageType

/-- A frame. The `length` field is only set by the decoders; the encoders write the size
of the payload. -/
structure Frame where
  /-- The magic number, 32 bits. -/
  magic : ℕ := kFrameMagic
  /-- The protocol version. -/
  version : UInt8 := kFrameVersion
  /-- The message type. -/
  msgType : FrameMessageType := FrameMessageType.unknown
  /-- The announced payload length, 32 bits. -/
  length : ℕ := 0
  /-- The payload. -/
  payload : List UInt8 := []
deriving DecidableEq, Repr

namespace FrameCodec

/-- Encode a frame as a byte string. The length field is the payload size cast to 32
bits. -/
def encode (frame : Frame) : List UInt8 :=
  let length := frame.payload.length % 2 ^ 32
  [UInt8.ofNat (frame.magic >>> 24), UInt8.ofNat (frame.magic >>> 16),
    UInt8.ofNat (frame.magic >>> 8), UInt8.ofNat frame.magic] ++
  [frame.version] ++
  [frame.msgType.value] ++
  [UInt8.ofNat (length >>> 24), UInt8.ofNat (length >>> 16),
    UInt8.ofNat (length >>> 8), UInt8.ofNat length] ++
  frame.payload

/-- Write the header into a caller's buffer, byte by byte; the number of bytes written,
and the buffer. A buffer that is too small is left alone. -/
def encodeHeaderToBuffer (frame : Frame) (buffer : List UInt8) : ℕ × List UInt8 :=
  if buffer.length < kFrameHeaderSize then (0, buffer)
  else
    let length := frame.payload.length % 2 ^ 32
    let buffer := buffer.set 0 (UInt8.ofNat (frame.magic >>> 24))
    let buffer := buffer.set 1 (UInt8.ofNat (frame.magic >>> 16))
    let buffer := buffer.set 2 (UInt8.ofNat (frame.magic >>> 8))
    let buffer := buffer.set 3 (UInt8.ofNat frame.magic)
    let buffer := buffer.set 4 frame.version
    let buffer := buffer.set 5 frame.msgType.value
    let buffer := buffer.set 6 (UInt8.ofNat (length >>> 24))
    let buffer := buffer.set 7 (UInt8.ofNat (length >>> 16))
    let buffer := buffer.set 8 (UInt8.ofNat (length >>> 8))
    let buffer := buffer.set 9 (UInt8.ofNat length)
    (10, buffer)

/-- The header both encoders write. -/
def headerBytes (frame : Frame) : List UInt8 :=
  beBytes 4 frame.magic ++ [frame.version, frame.msgType.value] ++
    beBytes 4 frame.payload.length

@[simp] theorem length_headerBytes (frame : Frame) :
    (headerBytes frame).length = kFrameHeaderSize := by
  simp [headerBytes, kFrameHeaderSize]

private theorem beBytes_four (n : ℕ) : beBytes 4 n =
    [UInt8.ofNat (n >>> 24), UInt8.ofNat (n >>> 16), UInt8.ofNat (n >>> 8), UInt8.ofNat n] := by
  simp [beBytes]

/-- The 32-bit cast of a length does not change the bytes written. -/
private theorem beBytes_four_length (n : ℕ) : beBytes 4 n = beBytes 4 (n % 2 ^ 32) := by
  rw [← beBytes_mod, show (256 : ℕ) ^ 4 = 2 ^ 32 by norm_num]

/-- `encode` writes the header and the payload. -/
theorem encode_eq (frame : Frame) : encode frame = headerBytes frame ++ frame.payload := by
  rw [headerBytes, beBytes_four_length frame.payload.length, beBytes_four, beBytes_four, encode]
  simp only [List.cons_append, List.nil_append]

@[simp] theorem length_encode (frame : Frame) :
    (encode frame).length = kFrameHeaderSize + frame.payload.length := by
  simp [encode_eq]

/-- The header replaces the first bytes of a buffer that is large enough. -/
theorem encodeHeaderToBuffer_eq (frame : Frame) {buffer : List UInt8}
    (h : kFrameHeaderSize ≤ buffer.length) : encodeHeaderToBuffer frame buffer =
      (kFrameHeaderSize, headerBytes frame ++ buffer.drop kFrameHeaderSize) := by
  obtain ⟨b₀, b₁, b₂, b₃, b₄, b₅, b₆, b₇, b₈, b₉, rest, rfl⟩ :
      ∃ b₀ b₁ b₂ b₃ b₄ b₅ b₆ b₇ b₈ b₉ rest,
        buffer = b₀ :: b₁ :: b₂ :: b₃ :: b₄ :: b₅ :: b₆ :: b₇ :: b₈ :: b₉ :: rest := by
    match buffer, h with
    | b₀ :: b₁ :: b₂ :: b₃ :: b₄ :: b₅ :: b₆ :: b₇ :: b₈ :: b₉ :: rest, _ =>
      exact ⟨_, _, _, _, _, _, _, _, _, _, _, rfl⟩
  rw [headerBytes, beBytes_four_length frame.payload.length, beBytes_four, beBytes_four,
    encodeHeaderToBuffer, if_neg (Nat.not_lt.mpr h)]
  rfl

/-- A buffer of exactly the header's size receives exactly the header. -/
theorem encodeHeaderToBuffer_of_length_eq (frame : Frame) {buffer : List UInt8}
    (h : buffer.length = kFrameHeaderSize) :
    encodeHeaderToBuffer frame buffer = (kFrameHeaderSize, headerBytes frame) := by
  rw [encodeHeaderToBuffer_eq frame h.ge, List.drop_eq_nil_of_le h.le, List.append_nil]

end FrameCodec

end ProtoMsgQueue
