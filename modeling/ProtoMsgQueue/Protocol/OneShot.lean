import ProtoMsgQueue.Protocol.Resync

/-!
# The one-shot decoder

`TryDecode` of `protocol/frame_codec.cpp` decodes the frame at the front of a buffer.
`tryDecode_eq_some_iff` says that it inverts `Encode` exactly, and `tryParseFrame_eq_some_iff`
that the streaming decoder finds what `TryDecode` finds behind the bytes in front of the first
valid header. Both parsers accept the same headers, `BeginsValidHeader`.
-/

namespace ProtoMsgQueue

open BigEndian WindowScan StreamingFrameCodec

namespace FrameCodec

/-- Decode the frame at the front of a buffer: the frame, and the number of bytes it takes. -/
def tryDecode (buffer : List UInt8) : Option Frame × ℕ :=
  if buffer.length < kFrameHeaderSize then (none, 0)
  else
    let magic := beValue (window 4 buffer 0)
    if magic ≠ kFrameMagic then (none, 0)
    else
      let version := buffer.getD 4 0
      if version ≠ kFrameVersion then (none, 0)
      else
        let msgType : FrameMessageType := ⟨buffer.getD 5 0⟩
        let length := beValue (window 4 buffer 6)
        if kMaxPayloadSize < length then (none, 0)
        else if buffer.length < kFrameHeaderSize + length then (none, 0)
        else
          (some { magic := magic
                  version := version
                  msgType := msgType
                  length := length
                  payload := (buffer.drop kFrameHeaderSize).take length },
            kFrameHeaderSize + length)

/-- The length that the header at the front of a buffer announces. -/
def announcedLength (b : List UInt8) : ℕ := beValue (window 4 b 6)

/-- The frame that the header at the front of a buffer announces, with what there is of its
payload. -/
def announced (b : List UInt8) : Frame where
  msgType := ⟨b.getD 5 0⟩
  length := announcedLength b
  payload := window (announcedLength b) b kFrameHeaderSize

/-- A frame is decoded iff its header is valid and its payload is complete. -/
theorem tryDecode_eq (b : List UInt8) :
    tryDecode b =
      if BeginsValidHeader b 0 ∧ kFrameHeaderSize + announcedLength b ≤ b.length then
        (some (announced b), kFrameHeaderSize + announcedLength b)
      else (none, 0) := by
  rw [tryDecode]
  simp only [BeginsValidHeader, isMagic, beq_iff_eq, Nat.zero_add]
  split
  · rename_i hshort
    rw [if_neg fun h => Nat.not_le.mpr hshort h.1.1]
  split
  · rename_i hmagic
    rw [if_neg fun h => hmagic h.1.2.1]
  rename_i hmagic
  split
  · rename_i hversion
    rw [if_neg fun h => hversion h.1.2.2.1]
  rename_i hversion
  split
  · rename_i hlength
    rw [if_neg fun h => Nat.not_le.mpr hlength h.1.2.2.2]
  split
  · rename_i hincomplete
    rw [if_neg fun h => Nat.not_le.mpr hincomplete h.2]
  · rename_i hlen hlength hcomplete
    rw [not_not] at hmagic hversion
    rw [if_pos ⟨⟨Nat.not_lt.mp hlen, hmagic, hversion, Nat.not_lt.mp hlength⟩,
      Nat.not_lt.mp hcomplete⟩, hmagic, hversion]
    rfl

/-! ### Decoding inverts encoding -/

/-- The bytes of a buffer with a header, field by field. -/
theorem eq_header_append {b : List UInt8} (h : kFrameHeaderSize ≤ b.length) :
    b = beBytes 4 (beValue (window 4 b 0)) ++ [b.getD 4 0, b.getD 5 0] ++
      beBytes 4 (announcedLength b) ++ b.drop kFrameHeaderSize := by
  have hfour : ∀ w : List UInt8, w.length = 4 → beBytes 4 (beValue w) = w := by
    intro w hw
    rw [← hw]
    exact beBytes_beValue w
  rw [announcedLength, hfour, hfour]
  · match b, h with
    | b₀ :: b₁ :: b₂ :: b₃ :: b₄ :: b₅ :: b₆ :: b₇ :: b₈ :: b₉ :: rest, _ => rfl
  · rw [kFrameHeaderSize] at h
    rw [window, List.length_take, List.length_drop]
    omega
  · rw [kFrameHeaderSize] at h
    rw [window, List.length_take, List.length_drop]
    omega

/-- An encoded frame begins with a valid header that announces it. -/
theorem announced_encode {f : Frame} (hf : Encodable f) (rest : List UInt8) :
    BeginsValidHeader (encode f ++ rest) 0 ∧
      announcedLength (encode f ++ rest) = f.payload.length ∧
        announced (encode f ++ rest) = withLength f := by
  obtain ⟨l₀, l₁, l₂, l₃, hval, henc⟩ := encode_append hf rest
  obtain ⟨hmagic, hversion, hlen⟩ := hf
  have hlength : (encode f ++ rest).length = kFrameHeaderSize + f.payload.length + rest.length := by
    rw [List.length_append, length_encode]
  have hannounced : announcedLength (encode f ++ rest) = f.payload.length := by
    rw [announcedLength, henc, ← hval]
    rfl
  refine ⟨⟨by omega, ?_, ?_, ?_⟩, hannounced, ?_⟩
  · rw [henc]
    rfl
  · rw [henc]
    rfl
  · exact hannounced.trans_le hlen
  · have hpayload : window f.payload.length (encode f ++ rest) kFrameHeaderSize = f.payload := by
      rw [window, henc]
      exact List.take_left
    have htype : (encode f ++ rest).getD 5 0 = f.msgType.value := by
      rw [henc]
      rfl
    rw [announced, hannounced, hpayload, htype, withLength, hmagic, hversion]

/-- A valid header with its payload is an encoded frame. -/
theorem eq_encode_announced {b : List UInt8} (hvalid : BeginsValidHeader b 0)
    (hcomplete : kFrameHeaderSize + announcedLength b ≤ b.length) :
    b = encode (announced b) ++ b.drop (kFrameHeaderSize + announcedLength b) := by
  obtain ⟨hlen, hmagic, hversion, -⟩ := hvalid
  rw [Nat.zero_add] at hlen hversion
  have hpayload : (announced b).payload.length = announcedLength b := by
    rw [announced, window, List.length_take, List.length_drop]
    omega
  have hheader : headerBytes (announced b) =
      beBytes 4 (beValue (window 4 b 0)) ++ [b.getD 4 0, b.getD 5 0] ++
        beBytes 4 (announcedLength b) := by
    rw [headerBytes, hpayload, beq_iff_eq.mp hmagic, hversion]
    rfl
  have hrest : b.drop kFrameHeaderSize =
      (announced b).payload ++ b.drop (kFrameHeaderSize + announcedLength b) := by
    rw [← List.drop_drop]
    exact (List.take_append_drop _ _).symm
  rw [encode_eq, hheader, List.append_assoc, ← hrest]
  exact eq_header_append hlen

/-- **Decoding.** `tryDecode` returns exactly the encodable frames that a buffer begins with,
their length set, and how many bytes they take. -/
theorem tryDecode_eq_some_iff {b : List UInt8} {f : Frame} {n : ℕ} :
    tryDecode b = (some f, n) ↔ (f.magic = kFrameMagic ∧ f.version = kFrameVersion ∧
      f.length = f.payload.length ∧ f.length ≤ kMaxPayloadSize) ∧
        n = (encode f).length ∧ ∃ rest, b = encode f ++ rest := by
  rw [tryDecode_eq]
  constructor
  · intro h
    split at h
    swap
    · cases h
    rename_i hok
    obtain ⟨hvalid, hcomplete⟩ := hok
    obtain ⟨rfl, rfl⟩ : announced b = f ∧ kFrameHeaderSize + announcedLength b = n := by
      simpa using h
    have hpayload : (announced b).payload.length = announcedLength b := by
      rw [announced, window, List.length_take, List.length_drop]
      omega
    refine ⟨⟨rfl, rfl, hpayload.symm, hvalid.2.2.2⟩, ?_, _, eq_encode_announced hvalid hcomplete⟩
    rw [length_encode, hpayload]
  · rintro ⟨⟨hmagic, hversion, hlength, hle⟩, rfl, rest, rfl⟩
    obtain ⟨hvalid, hannounced, hframe⟩ :=
      announced_encode (f := f) ⟨hmagic, hversion, hlength ▸ hle⟩ rest
    have hcomplete : kFrameHeaderSize + f.payload.length ≤ (encode f ++ rest).length := by
      rw [List.length_append, length_encode]
      exact Nat.le_add_right _ _
    have hself : withLength f = f := by
      rw [withLength, ← hlength]
    rw [hannounced, if_pos ⟨hvalid, hcomplete⟩, hframe, hself, length_encode]

/-- **Codec.** `TryDecode` inverts `Encode` exactly: it returns a frame and its size iff the
frame is one of this protocol with its length set and the buffer begins with its encoding, and
otherwise takes nothing. And the header written into a buffer that is large enough, followed by
the payload, is the encoding. -/
theorem tryDecode_inverts_encode :
    (∀ (b : List UInt8) (f : Frame) (n : ℕ), tryDecode b = (some f, n) ↔
      (f.magic = kFrameMagic ∧ f.version = kFrameVersion ∧ f.length = f.payload.length ∧
        f.length ≤ kMaxPayloadSize) ∧ n = (encode f).length ∧ ∃ rest, b = encode f ++ rest) ∧
    (∀ b, (tryDecode b).1 = none → (tryDecode b).2 = 0) ∧
    ∀ (f : Frame) (buffer : List UInt8), kFrameHeaderSize ≤ buffer.length →
      let written := encodeHeaderToBuffer f buffer
      written.1 = kFrameHeaderSize ∧ written.2.take written.1 ++ f.payload = encode f := by
  refine ⟨fun b f n => tryDecode_eq_some_iff, fun b h => ?_, fun f buffer h => ?_⟩
  · rw [tryDecode_eq] at h ⊢
    split at h
    · cases h
    · rename_i hno
      rw [if_neg hno]
  · have hheader : (headerBytes f ++ buffer.drop kFrameHeaderSize).take kFrameHeaderSize =
        headerBytes f := List.take_left' (length_headerBytes f)
    rw [encodeHeaderToBuffer_eq f h, encode_eq]
    exact ⟨rfl, congrArg (· ++ f.payload) hheader⟩

end FrameCodec

namespace StreamingFrameCodec

open FrameCodec

/-! ### The streaming decoder finds the same frame -/

/-- The first position with a complete valid header. -/
def IsFirstHeader (b : List UInt8) (k : ℕ) : Prop :=
  BeginsValidHeader b k ∧ ∀ i < k, ¬BeginsValidHeader b i

theorem beginsValidHeader_drop {b : List UInt8} {k : ℕ} (h : BeginsValidHeader b k) :
    BeginsValidHeader (b.drop k) 0 := by
  obtain ⟨hlen, hmagic, hversion, hlength⟩ := h
  refine ⟨?_, ?_, ?_, ?_⟩
  · rw [List.length_drop]
    omega
  · rw [window_drop]
    exact hmagic
  · rw [List.getD_eq_getElem?_getD, List.getElem?_drop, ← List.getD_eq_getElem?_getD]
    exact hversion
  · rw [window_drop]
    exact hlength

/-- A valid header whose payload is not complete keeps the decoder waiting. -/
theorem tryParseFrame_incomplete {b : List UInt8} (hvalid : BeginsValidHeader b 0)
    (hshort : b.length < kFrameHeaderSize + announcedLength b) :
    (waiting b).tryParseFrame.1 = none := by
  obtain ⟨hlen, hmagic, hversion, hlength⟩ := hvalid
  rw [Nat.zero_add] at hlen hversion hlength
  have hscan : firstWindow isMagic 4 b = some 0 :=
    firstWindow_eq_some_iff.mpr ⟨hmagic, by rw [kFrameHeaderSize] at hlen; omega, by simp⟩
  have hheader : parseHeader { buffer := b, state := .waitingHeader } =
      (true, { buffer := b, state := .waitingHeader
               partialFrame := { msgType := ⟨b.getD 5 0⟩, length := announcedLength b }
               payloadLength := announcedLength b }) := by
    rw [parseHeader, if_neg (Nat.not_lt.mpr hlen)]
    dsimp only
    rw [if_neg (not_not.mpr hversion), if_neg (Nat.not_lt.mpr hlength), hversion]
    rfl
  rw [waiting, tryParseFrame_of_magic (c := { buffer := b }) rfl hscan, List.drop_zero,
    tryParseFrame_of_header rfl hheader, tryParseFrame_of_payload rfl, parsePayload_of_short hshort]

/-- At a valid header both decoders find the same. -/
theorem tryParseFrame_of_valid {b : List UInt8} (hvalid : BeginsValidHeader b 0) (f : Frame)
    (c : StreamingFrameCodec) : (waiting b).tryParseFrame = (some f, c) ↔
      ∃ n, tryDecode b = (some f, n) ∧ c = waiting (b.drop n) := by
  by_cases hcomplete : kFrameHeaderSize + announcedLength b ≤ b.length
  · have hdecode : tryDecode b = (some (announced b), kFrameHeaderSize + announcedLength b) := by
      rw [tryDecode_eq, if_pos ⟨hvalid, hcomplete⟩]
    obtain ⟨⟨hmagic, hversion, hlength, hle⟩, -, -⟩ := tryDecode_eq_some_iff.mp hdecode
    have hself : withLength (announced b) = announced b := by
      rw [withLength, ← hlength]
    have hparse := tryParseFrame_encode (f := announced b) ⟨hmagic, hversion, hlength ▸ hle⟩
      (b.drop (kFrameHeaderSize + announcedLength b))
    rw [← eq_encode_announced hvalid hcomplete, hself] at hparse
    rw [hparse, hdecode]
    simp [eq_comm]
  · refine iff_of_false ?_ ?_
    · intro h
      have hnone := tryParseFrame_incomplete hvalid (Nat.not_le.mp hcomplete)
      rw [h] at hnone
      cases hnone
    · rintro ⟨n, h, -⟩
      rw [tryDecode_eq, if_neg fun h => hcomplete h.2] at h
      cases h

/-- The bytes in front of the first valid header are skipped. -/
theorem IsFirstHeader.tryParseFrame_eq {b : List UInt8} {k : ℕ} (h : IsFirstHeader b k) :
    (waiting b).tryParseFrame = (waiting (b.drop k)).tryParseFrame := by
  have hle : k ≤ b.length := (Nat.le_add_right _ _).trans h.1.1
  have hskip := tryParseFrame_skip_garbage (g := b.take k) (t := b.drop k)
    (beginsValidHeader_drop h.1).1
  rw [List.take_append_drop, List.length_take, min_eq_left hle] at hskip
  exact hskip h.2

/-- **Streaming and one-shot decoding agree.** The first call on a fresh codec with a buffer
returns a frame iff there is a first valid header and `tryDecode` decodes what begins there. It
is that frame, and the codec keeps exactly the bytes behind it. -/
theorem tryParseFrame_eq_some_iff (b : List UInt8) (f : Frame) (c : StreamingFrameCodec) :
    (appendData {} b).tryParseFrame = (some f, c) ↔
      ∃ k n, IsFirstHeader b k ∧ tryDecode (b.drop k) = (some f, n) ∧
        c = { buffer := b.drop (k + n) } := by
  have hfeed : appendData {} b = waiting b := appendData_eq _ _
  have hat : ∀ k, IsFirstHeader b k → ((waiting b).tryParseFrame = (some f, c) ↔
      ∃ n, tryDecode (b.drop k) = (some f, n) ∧ c = { buffer := b.drop (k + n) }) := by
    intro k hk
    rw [hk.tryParseFrame_eq, tryParseFrame_of_valid (beginsValidHeader_drop hk.1)]
    simp only [List.drop_drop, waiting]
  rw [hfeed]
  constructor
  · intro h
    by_cases hex : ∃ k, BeginsValidHeader b k
    · classical
      have hfirst : IsFirstHeader b (Nat.find hex) :=
        ⟨Nat.find_spec hex, fun i hi => Nat.find_min hex hi⟩
      obtain ⟨n, hdecode, hc⟩ := (hat _ hfirst).mp h
      exact ⟨_, n, hfirst, hdecode, hc⟩
    · -- garbage only
      have hnone : (waiting b).tryParseFrame.1 = none :=
        tryParseFrame_garbage fun i _ hvalid => hex ⟨i, hvalid⟩
      rw [h] at hnone
      cases hnone
  · rintro ⟨k, n, hfirst, hdecode, hc⟩
    exact (hat k hfirst).mpr ⟨n, hdecode, hc⟩

end StreamingFrameCodec

end ProtoMsgQueue
