import ProtoMsgQueue.Protocol.FrameCodec
import ProtoMsgQueue.Lib.WindowScan

/-!
# The streaming decoder

The state machine of `protocol/streaming_frame_codec.cpp`. The decoder waits for a magic
number, then for a complete header, then for the announced payload. `syncMagic`,
`parseHeader` and `parsePayload` return the Boolean (or frame) of the source together with
the codec they leave behind; `tryParseFrame` is the `while (true)` loop over the three
states. The loop ends because every iteration shortens the buffer or moves towards
`waitingPayload` (`loopMeasure`).
-/

namespace ProtoMsgQueue

open BigEndian WindowScan

/-- The states of the decoder. -/
inductive ParseState where
  /-- Looking for a magic number. -/
  | waitingMagic
  /-- The buffer starts with a magic number; waiting for ten bytes. -/
  | waitingHeader
  /-- The header is parsed; waiting for the payload. -/
  | waitingPayload
deriving DecidableEq, Repr

/-- The streaming decoder. -/
structure StreamingFrameCodec where
  /-- The parse state. -/
  state : ParseState := .waitingMagic
  /-- The bytes received and not yet consumed. -/
  buffer : List UInt8 := []
  /-- The header fields of the frame being parsed. -/
  partialFrame : Frame := {}
  /-- The payload length the header announced. -/
  payloadLength : ℕ := 0
deriving DecidableEq, Repr

namespace StreamingFrameCodec

/-- Append received data to the buffer. A null or empty chunk does nothing. -/
def appendData (c : StreamingFrameCodec) (data : List UInt8) : StreamingFrameCodec :=
  if 0 < data.length then { c with buffer := c.buffer ++ data } else c

/-- Does a four-byte window hold the magic number? -/
def isMagic (bytes : List UInt8) : Bool := beValue bytes == kFrameMagic

/-- Look for a magic number and drop the bytes before it. Without one, keep the last three
bytes: they may be the start of a magic number that is still arriving. -/
def syncMagic (c : StreamingFrameCodec) : Bool × StreamingFrameCodec :=
  if c.buffer.length < 4 then (false, c)
  else
    match (List.range (c.buffer.length - 4 + 1)).find?
        fun i => isMagic (window 4 c.buffer i) with
    | some i => (true, if 0 < i then { c with buffer := c.buffer.drop i } else c)
    | none =>
      (false, if 3 < c.buffer.length
        then { c with buffer := c.buffer.drop (c.buffer.length - 3) } else c)

/-- Parse the header of the frame at the front of the buffer. On a bad version or length
the first byte is dropped and the decoder looks for the next magic number. -/
def parseHeader (c : StreamingFrameCodec) : Bool × StreamingFrameCodec :=
  if c.buffer.length < kFrameHeaderSize then (false, c)
  else
    let version := c.buffer.getD 4 0
    if version ≠ kFrameVersion then
      (false, { c with buffer := c.buffer.drop 1, state := .waitingMagic })
    else
      let msgType : FrameMessageType := ⟨c.buffer.getD 5 0⟩
      let length := beValue (window 4 c.buffer 6)
      if kMaxPayloadSize < length then
        (false, { c with buffer := c.buffer.drop 1, state := .waitingMagic })
      else
        (true, { c with
          partialFrame := { c.partialFrame with
            magic := kFrameMagic, version := version, msgType := msgType, length := length }
          payloadLength := length })

/-- Take the payload of the frame whose header was parsed. -/
def parsePayload (c : StreamingFrameCodec) : Option Frame × StreamingFrameCodec :=
  let totalNeeded := kFrameHeaderSize + c.payloadLength
  if c.buffer.length < totalNeeded then (none, c)
  else
    let payload := (c.buffer.drop kFrameHeaderSize).take c.payloadLength
    (some { c.partialFrame with payload := payload },
      { c with buffer := c.buffer.drop totalNeeded, partialFrame := {}, payloadLength := 0 })

/-! ### The parsing loop -/

/-- What every iteration of the loop decreases. -/
def loopMeasure (c : StreamingFrameCodec) : ℕ :=
  3 * c.buffer.length +
    match c.state with
    | .waitingMagic => 2
    | .waitingHeader => 1
    | .waitingPayload => 0

theorem length_syncMagic_le (c : StreamingFrameCodec) :
    c.syncMagic.2.buffer.length ≤ c.buffer.length := by
  unfold syncMagic
  split
  · exact le_rfl
  · split <;> dsimp only <;> split <;> simp

/-- What `parseHeader` can do: wait, reject one byte, or accept the header and leave
buffer and state alone. -/
theorem parseHeader_cases (c : StreamingFrameCodec) :
    (c.buffer.length < kFrameHeaderSize ∧ c.parseHeader = (false, c)) ∨
    (kFrameHeaderSize ≤ c.buffer.length ∧
      c.parseHeader = (false, { c with buffer := c.buffer.drop 1, state := .waitingMagic })) ∨
    (kFrameHeaderSize ≤ c.buffer.length ∧
      ∃ f n, c.parseHeader = (true, { c with partialFrame := f, payloadLength := n })) := by
  unfold parseHeader
  split
  · next h => exact .inl ⟨h, rfl⟩
  · next h =>
    dsimp only
    split
    · exact .inr (.inl ⟨by omega, rfl⟩)
    · split
      · exact .inr (.inl ⟨by omega, rfl⟩)
      · exact .inr (.inr ⟨by omega, _, _, rfl⟩)

/-- Try to parse one frame: the loop runs until a frame is complete or data is missing. -/
def tryParseFrame (c : StreamingFrameCodec) : Option Frame × StreamingFrameCodec :=
  match _hs : c.state with
  | .waitingMagic =>
    match _h : c.syncMagic with
    | (false, c') => (none, c')
    | (true, c') => tryParseFrame { c' with state := .waitingHeader }
  | .waitingHeader =>
    match _h : c.parseHeader with
    | (false, c') =>
      -- a rejected header sends the decoder back to `waitingMagic`; otherwise data is missing
      if _hm : c'.state = .waitingMagic then tryParseFrame c' else (none, c')
    | (true, c') => tryParseFrame { c' with state := .waitingPayload }
  | .waitingPayload =>
    match c.parsePayload with
    | (none, c') => (none, c')
    | (some frame, c') => (some frame, { c' with state := .waitingMagic })
termination_by c.loopMeasure
decreasing_by
  · have hlen := c.length_syncMagic_le
    rw [_h] at hlen
    simp only [loopMeasure, _hs] at hlen ⊢
    omega
  · rcases c.parseHeader_cases with ⟨-, hp⟩ | ⟨hlen, hp⟩ | ⟨-, f, n, hp⟩ <;>
      rw [_h] at hp <;> cases hp
    · rw [_hs] at _hm
      cases _hm
    · simp only [loopMeasure, _hs, List.length_drop, kFrameHeaderSize] at hlen ⊢
      omega
  · rcases c.parseHeader_cases with ⟨-, hp⟩ | ⟨-, hp⟩ | ⟨-, f, n, hp⟩ <;>
      rw [_h] at hp <;> cases hp
    simp only [loopMeasure, _hs]
    omega

/-! ### What the three phases do -/

/-- `syncMagic` is a window scan: drop everything before the first magic number, or all
but the last three bytes. -/
theorem syncMagic_eq (c : StreamingFrameCodec) :
    c.syncMagic =
      match firstWindow isMagic 4 c.buffer with
      | some i => (true, { c with buffer := c.buffer.drop i })
      | none => (false, { c with buffer := c.buffer.drop (c.buffer.length - 3) }) := by
  unfold syncMagic firstWindow
  split
  · next h =>
    rw [show c.buffer.length + 1 - 4 = 0 by omega, show c.buffer.length - 3 = 0 by omega]
    rfl
  · next h =>
    rw [show c.buffer.length - 4 + 1 = c.buffer.length + 1 - 4 by omega]
    split
    · next i _ =>
      rcases Nat.eq_zero_or_pos i with rfl | hi
      · rfl
      · rw [if_pos hi]
    · rw [if_pos (by omega)]

theorem tryParseFrame_of_magic {c : StreamingFrameCodec} (hs : c.state = .waitingMagic)
    {i : ℕ} (h : firstWindow isMagic 4 c.buffer = some i) :
    c.tryParseFrame =
      tryParseFrame { c with buffer := c.buffer.drop i, state := .waitingHeader } := by
  rw [tryParseFrame]
  split
  · split
    · next _ h' => rw [syncMagic_eq, h] at h'; cases h'
    · next _ h' => rw [syncMagic_eq, h] at h'; cases h'; rfl
  all_goals next h' => rw [hs] at h'; cases h'

theorem tryParseFrame_of_no_magic {c : StreamingFrameCodec} (hs : c.state = .waitingMagic)
    (h : firstWindow isMagic 4 c.buffer = none) :
    c.tryParseFrame = (none, { c with buffer := c.buffer.drop (c.buffer.length - 3) }) := by
  rw [tryParseFrame]
  split
  · split
    · next _ h' => rw [syncMagic_eq, h] at h'; cases h'; rfl
    · next _ h' => rw [syncMagic_eq, h] at h'; cases h'
  all_goals next h' => rw [hs] at h'; cases h'

theorem tryParseFrame_of_short_header {c : StreamingFrameCodec} (hs : c.state = .waitingHeader)
    (h : c.buffer.length < kFrameHeaderSize) : c.tryParseFrame = (none, c) := by
  have hp : c.parseHeader = (false, c) := by rw [parseHeader, if_pos h]
  rw [tryParseFrame]
  split
  · next h' => rw [hs] at h'; cases h'
  · split
    · next _ h' =>
      rw [hp] at h'
      cases h'
      rw [dif_neg (by rw [hs]; simp)]
    · next _ h' => rw [hp] at h'; cases h'
  · next h' => rw [hs] at h'; cases h'

theorem tryParseFrame_of_bad_header {c c' : StreamingFrameCodec} (hs : c.state = .waitingHeader)
    (h : c.parseHeader = (false, c')) (hm : c'.state = .waitingMagic) :
    c.tryParseFrame = c'.tryParseFrame := by
  rw [tryParseFrame]
  split
  · next h' => rw [hs] at h'; cases h'
  · split
    · next _ h' => rw [h] at h'; cases h'; rw [dif_pos hm]
    · next _ h' => rw [h] at h'; cases h'
  · next h' => rw [hs] at h'; cases h'

theorem tryParseFrame_of_header {c c' : StreamingFrameCodec} (hs : c.state = .waitingHeader)
    (h : c.parseHeader = (true, c')) :
    c.tryParseFrame = tryParseFrame { c' with state := .waitingPayload } := by
  rw [tryParseFrame]
  split
  · next h' => rw [hs] at h'; cases h'
  · split
    · next _ h' => rw [h] at h'; cases h'
    · next _ h' => rw [h] at h'; cases h'; rfl
  · next h' => rw [hs] at h'; cases h'

theorem tryParseFrame_of_payload {c : StreamingFrameCodec} (hs : c.state = .waitingPayload) :
    c.tryParseFrame =
      match c.parsePayload with
      | (none, c') => (none, c')
      | (some frame, c') => (some frame, { c' with state := .waitingMagic }) := by
  rw [tryParseFrame]
  split
  · next h' => rw [hs] at h'; cases h'
  · next h' => rw [hs] at h'; cases h'
  · rfl

/-! ### The loop as a derivation

`Parses c r c'` lists the iterations of the loop from `c` to its result; it is the
induction the results about `tryParseFrame` go by. -/

/-- The loop, started in `c`, returns `r` and leaves `c'`. -/
inductive Parses : StreamingFrameCodec → Option Frame → StreamingFrameCodec → Prop where
  /-- No magic number in the buffer. -/
  | noMagic {c} (hs : c.state = .waitingMagic) (h : firstWindow isMagic 4 c.buffer = none) :
      Parses c none { c with buffer := c.buffer.drop (c.buffer.length - 3) }
  /-- A magic number at index `i`. -/
  | magic {c r c' i} (hs : c.state = .waitingMagic)
      (h : firstWindow isMagic 4 c.buffer = some i)
      (rest : Parses { c with buffer := c.buffer.drop i, state := .waitingHeader } r c') :
      Parses c r c'
  /-- The header has not arrived completely. -/
  | shortHeader {c} (hs : c.state = .waitingHeader) (h : c.buffer.length < kFrameHeaderSize) :
      Parses c none c
  /-- A header with a bad version or length. -/
  | badHeader {c r c'} (hs : c.state = .waitingHeader)
      (hlen : kFrameHeaderSize ≤ c.buffer.length)
      (h : c.parseHeader = (false, { c with buffer := c.buffer.drop 1, state := .waitingMagic }))
      (rest : Parses { c with buffer := c.buffer.drop 1, state := .waitingMagic } r c') :
      Parses c r c'
  /-- A good header. -/
  | header {c r c' f n} (hs : c.state = .waitingHeader)
      (hlen : kFrameHeaderSize ≤ c.buffer.length)
      (h : c.parseHeader = (true, { c with partialFrame := f, payloadLength := n }))
      (rest : Parses { c with partialFrame := f, payloadLength := n, state := .waitingPayload }
        r c') :
      Parses c r c'
  /-- The payload has not arrived completely. -/
  | shortPayload {c} (hs : c.state = .waitingPayload)
      (h : c.buffer.length < kFrameHeaderSize + c.payloadLength) : Parses c none c
  /-- The payload is there. -/
  | payload {c} (hs : c.state = .waitingPayload)
      (h : kFrameHeaderSize + c.payloadLength ≤ c.buffer.length) :
      Parses c
        (some { c.partialFrame with payload := window c.payloadLength c.buffer kFrameHeaderSize })
        { state := .waitingMagic, buffer := c.buffer.drop (kFrameHeaderSize + c.payloadLength),
          partialFrame := {}, payloadLength := 0 }

theorem parsePayload_of_short {c : StreamingFrameCodec}
    (h : c.buffer.length < kFrameHeaderSize + c.payloadLength) :
    c.parsePayload = (none, c) := by
  rw [parsePayload, if_pos h]

theorem parsePayload_of_le {c : StreamingFrameCodec}
    (h : kFrameHeaderSize + c.payloadLength ≤ c.buffer.length) :
    c.parsePayload =
      (some { c.partialFrame with payload := window c.payloadLength c.buffer kFrameHeaderSize },
        { c with
          buffer := c.buffer.drop (kFrameHeaderSize + c.payloadLength)
          partialFrame := {}
          payloadLength := 0 }) := by
  rw [parsePayload, if_neg (by omega)]
  rfl

/-- A derivation computes the result of the loop. -/
theorem Parses.tryParseFrame_eq {c c' : StreamingFrameCodec} {r : Option Frame}
    (h : Parses c r c') : c.tryParseFrame = (r, c') := by
  induction h with
  | noMagic hs h => exact tryParseFrame_of_no_magic hs h
  | magic hs h _ ih => rw [tryParseFrame_of_magic hs h, ih]
  | shortHeader hs h => exact tryParseFrame_of_short_header hs h
  | badHeader hs _ h _ ih => rw [tryParseFrame_of_bad_header hs h rfl, ih]
  | header hs _ h _ ih => rw [tryParseFrame_of_header hs h, ih]
  | shortPayload hs h => rw [tryParseFrame_of_payload hs, parsePayload_of_short h]
  | payload hs h => rw [tryParseFrame_of_payload hs, parsePayload_of_le h]

/-- The loop always ends: every codec has a derivation. -/
theorem exists_parses (c : StreamingFrameCodec) : ∃ r c', Parses c r c' := by
  induction hn : c.loopMeasure using Nat.strong_induction_on generalizing c with
  | _ n ih =>
    subst hn
    cases hs : c.state with
    | waitingMagic =>
      cases h : firstWindow isMagic 4 c.buffer with
      | none => exact ⟨_, _, .noMagic hs h⟩
      | some i =>
        obtain ⟨r, c', hrest⟩ := ih _ (by simp only [loopMeasure, hs, List.length_drop]; omega)
          { c with buffer := c.buffer.drop i, state := .waitingHeader } rfl
        exact ⟨r, c', .magic hs h hrest⟩
    | waitingHeader =>
      rcases c.parseHeader_cases with ⟨hlen, -⟩ | ⟨hlen, h⟩ | ⟨hlen, f, n, h⟩
      · exact ⟨_, _, .shortHeader hs hlen⟩
      · obtain ⟨r, c', hrest⟩ := ih _
          (by simp only [loopMeasure, hs, List.length_drop, kFrameHeaderSize] at hlen ⊢; omega)
          { c with buffer := c.buffer.drop 1, state := .waitingMagic } rfl
        exact ⟨r, c', .badHeader hs hlen h hrest⟩
      · obtain ⟨r, c', hrest⟩ := ih _ (by simp only [loopMeasure, hs]; omega)
          { c with partialFrame := f, payloadLength := n, state := .waitingPayload } rfl
        exact ⟨r, c', .header hs hlen h hrest⟩
    | waitingPayload =>
      rcases Nat.lt_or_ge c.buffer.length (kFrameHeaderSize + c.payloadLength) with h | h
      · exact ⟨_, _, .shortPayload hs h⟩
      · exact ⟨_, _, .payload hs h⟩

theorem parses_iff {c c' : StreamingFrameCodec} {r : Option Frame} :
    Parses c r c' ↔ c.tryParseFrame = (r, c') := by
  refine ⟨Parses.tryParseFrame_eq, fun h => ?_⟩
  obtain ⟨r₁, c₁, h₁⟩ := exists_parses c
  obtain ⟨rfl, rfl⟩ := Prod.mk.inj (h₁.tryParseFrame_eq.symm.trans h)
  exact h₁

end StreamingFrameCodec

end ProtoMsgQueue
