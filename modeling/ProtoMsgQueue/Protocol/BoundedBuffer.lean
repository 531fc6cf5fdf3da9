import ProtoMsgQueue.Protocol.Chunking
import ProtoMsgQueue.Lib.CheckedLoop

/-!
# The streaming decoder stays inside its buffer

The phases of the decoder once more, with every access to the buffer checked: a read at an
index, a copied range and an erased range that is not inside the buffer makes the phase
fail (`none`). The checked phases never fail and are the unchecked ones, because each
compares the size of the buffer before it reads. The loop over them therefore returns what
`tryParseFrame` does, after a number of turns bounded by `loopMeasure`.

What a call without a result leaves behind is bounded as well: three bytes, an incomplete
header, or a header with an incomplete payload. In the last case the announced length has
passed the check of `parseHeader`, however many calls ago that was (`Bounded`).
-/

namespace ProtoMsgQueue

open BigEndian WindowScan CheckedLoop

namespace StreamingFrameCodec

/-! ### Checked accesses -/

/-- `buffer[i]`. -/
def readByte (buffer : List UInt8) (i : ℕ) : Option UInt8 := buffer[i]?

/-- The four bytes from index `i`, most significant first. -/
def readWord (buffer : List UInt8) (i : ℕ) : Option ℕ := do
  let b₀ ← readByte buffer i
  let b₁ ← readByte buffer (i + 1)
  let b₂ ← readByte buffer (i + 2)
  let b₃ ← readByte buffer (i + 3)
  return b₀.toNat <<< 24 ||| b₁.toNat <<< 16 ||| b₂.toNat <<< 8 ||| b₃.toNat

/-- Copy the range of `n` bytes from index `i`. -/
def readRange (buffer : List UInt8) (i n : ℕ) : Option (List UInt8) :=
  if i + n ≤ buffer.length then some (window n buffer i) else none

/-- Erase the first `k` bytes. -/
def eraseFront (buffer : List UInt8) (k : ℕ) : Option (List UInt8) :=
  if k ≤ buffer.length then some (buffer.drop k) else none

/-- The search loop of `syncMagic`: the next `n` indices from `i`. -/
def findMagic (buffer : List UInt8) (i : ℕ) : ℕ → Option (Option ℕ)
  | 0 => some none
  | n + 1 => do
    let magic ← readWord buffer i
    if magic = kFrameMagic then some (some i) else findMagic buffer (i + 1) n

/-- `syncMagic` with checked accesses. -/
def checkedSyncMagic (c : StreamingFrameCodec) : Option (Bool × StreamingFrameCodec) :=
  if c.buffer.length < 4 then some (false, c)
  else do
    match ← findMagic c.buffer 0 (c.buffer.length - 4 + 1) with
    | some i =>
      if 0 < i then return (true, { c with buffer := ← eraseFront c.buffer i })
      else return (true, c)
    | none =>
      if 3 < c.buffer.length then
        return (false, { c with buffer := ← eraseFront c.buffer (c.buffer.length - 3) })
      else return (false, c)

/-- `parseHeader` with checked accesses. -/
def checkedParseHeader (c : StreamingFrameCodec) : Option (Bool × StreamingFrameCodec) :=
  if c.buffer.length < kFrameHeaderSize then some (false, c)
  else do
    let version ← readByte c.buffer 4
    if version ≠ kFrameVersion then
      return (false, { c with buffer := ← eraseFront c.buffer 1, state := .waitingMagic })
    else
      let msgType : FrameMessageType := ⟨← readByte c.buffer 5⟩
      let length ← readWord c.buffer 6
      if kMaxPayloadSize < length then
        return (false, { c with buffer := ← eraseFront c.buffer 1, state := .waitingMagic })
      else
        return (true, { c with
          partialFrame := { c.partialFrame with
            magic := kFrameMagic, version := version, msgType := msgType, length := length }
          payloadLength := length })

/-- `parsePayload` with checked accesses. -/
def checkedParsePayload (c : StreamingFrameCodec) :
    Option (Option Frame × StreamingFrameCodec) :=
  let totalNeeded := kFrameHeaderSize + c.payloadLength
  if c.buffer.length < totalNeeded then some (none, c)
  else do
    let payload ← readRange c.buffer kFrameHeaderSize c.payloadLength
    let buffer ← eraseFront c.buffer totalNeeded
    return (some { c.partialFrame with payload := payload },
      { c with buffer := buffer, partialFrame := {}, payloadLength := 0 })

/-- One turn of the loop of `tryParseFrame`, with checked accesses. -/
def turn (c : StreamingFrameCodec) :
    Option (Turn StreamingFrameCodec (Option Frame × StreamingFrameCodec)) :=
  match c.state with
  | .waitingMagic => do
    match ← c.checkedSyncMagic with
    | (false, c') => return .done (none, c')
    | (true, c') => return .again { c' with state := .waitingHeader }
  | .waitingHeader => do
    match ← c.checkedParseHeader with
    | (false, c') =>
      if c'.state = .waitingMagic then return .again c' else return .done (none, c')
    | (true, c') => return .again { c' with state := .waitingPayload }
  | .waitingPayload => do
    match ← c.checkedParsePayload with
    | (none, c') => return .done (none, c')
    | (some frame, c') => return .done (some frame, { c' with state := .waitingMagic })

/-! ### No access fails -/

theorem readByte_of_lt {buffer : List UInt8} {i : ℕ} (h : i < buffer.length) :
    readByte buffer i = some (buffer.getD i 0) := by
  rw [readByte, List.getD_eq_getElem _ _ h, List.getElem?_eq_getElem h]

/-- The word read is the big-endian value of the window. -/
theorem readWord_of_le {buffer : List UInt8} {i : ℕ} (h : i + 4 ≤ buffer.length) :
    readWord buffer i = some (beValue (window 4 buffer i)) := by
  have hwin : window 4 buffer i =
      [buffer.getD i 0, buffer.getD (i + 1) 0, buffer.getD (i + 2) 0, buffer.getD (i + 3) 0] := by
    rw [window, List.drop_eq_getElem_cons (by omega), List.drop_eq_getElem_cons (by omega),
      List.drop_eq_getElem_cons (by omega), List.drop_eq_getElem_cons (by omega)]
    simp only [List.take_succ_cons, List.take_zero]
    repeat rw [List.getD_eq_getElem _ _ (by omega)]
  rw [hwin, readWord, readByte_of_lt (by omega), readByte_of_lt (by omega),
    readByte_of_lt (by omega), readByte_of_lt (by omega)]
  simp only [beValue, List.foldl_cons, List.foldl_nil, Nat.shiftLeft_or_distrib,
    ← Nat.shiftLeft_add, Nat.zero_shiftLeft, Nat.zero_or]
  rfl

theorem eraseFront_of_le {buffer : List UInt8} {k : ℕ} (h : k ≤ buffer.length) :
    eraseFront buffer k = some (buffer.drop k) := if_pos h

/-- The search loop reads inside the buffer as long as its last window does. -/
theorem findMagic_eq {buffer : List UInt8} {n : ℕ} : ∀ {i : ℕ}, i + n + 3 ≤ buffer.length →
    findMagic buffer i n =
      some ((List.range' i n).find? fun j => isMagic (window 4 buffer j)) := by
  induction n with
  | zero => exact fun _ => rfl
  | succ n ih =>
    intro i h
    rw [findMagic, readWord_of_le (by omega), List.range'_succ, Option.bind_eq_bind,
      Option.bind_some]
    by_cases hm : beValue (window 4 buffer i) = kFrameMagic
    · rw [if_pos hm, List.find?_cons_of_pos (by simpa [isMagic] using hm)]
    · rw [if_neg hm, ih (by omega), List.find?_cons_of_neg (by simpa [isMagic] using hm)]

theorem checkedSyncMagic_eq (c : StreamingFrameCodec) :
    c.checkedSyncMagic = some c.syncMagic := by
  unfold checkedSyncMagic syncMagic
  split
  · rfl
  · next h =>
    rw [findMagic_eq (by omega), ← List.range_eq_range']
    simp only [Option.bind_eq_bind, Option.bind_some]
    cases hi : (List.range (c.buffer.length - 4 + 1)).find?
        fun j => isMagic (window 4 c.buffer j) with
    | none =>
      simp only [if_pos (show 3 < c.buffer.length by omega)]
      rw [eraseFront_of_le (by omega)]
      rfl
    | some i =>
      have hlt : i < c.buffer.length - 4 + 1 := List.mem_range.mp (List.mem_of_find?_eq_some hi)
      dsimp only
      rw [eraseFront_of_le (by omega)]
      split <;> rfl

theorem checkedParseHeader_eq (c : StreamingFrameCodec) :
    c.checkedParseHeader = some c.parseHeader := by
  unfold checkedParseHeader parseHeader
  split
  · rfl
  · next h =>
    have hlen : 10 ≤ c.buffer.length := Nat.not_lt.mp h
    rw [readByte_of_lt (by omega), readByte_of_lt (by omega), readWord_of_le (by omega),
      eraseFront_of_le (by omega)]
    simp only [Option.bind_eq_bind, Option.bind_some]
    split
    · rfl
    · split <;> rfl

theorem checkedParsePayload_eq (c : StreamingFrameCodec) :
    c.checkedParsePayload = some c.parsePayload := by
  unfold checkedParsePayload parsePayload
  dsimp only
  split
  · rfl
  · next h =>
    rw [readRange, if_pos (by omega), eraseFront_of_le (by omega)]
    rfl

/-! ### The loop ends -/

/-- What a turn does: it never fails, and agrees with `tryParseFrame`. -/
theorem turn_cases (c : StreamingFrameCodec) :
    (∃ c', c.turn = some (.again c') ∧ c'.loopMeasure < c.loopMeasure ∧
      c.tryParseFrame = c'.tryParseFrame) ∨ c.turn = some (.done c.tryParseFrame) := by
  unfold turn
  cases hs : c.state with
  | waitingMagic =>
    simp only [checkedSyncMagic_eq, syncMagic_eq, Option.bind_eq_bind, Option.bind_some]
    cases h : firstWindow isMagic 4 c.buffer with
    | none => exact .inr (by rw [tryParseFrame_of_no_magic hs h]; rfl)
    | some i =>
      refine .inl ⟨_, rfl, ?_, tryParseFrame_of_magic hs h⟩
      simp only [loopMeasure, hs, List.length_drop]
      omega
  | waitingHeader =>
    simp only [checkedParseHeader_eq, Option.bind_eq_bind, Option.bind_some]
    rcases c.parseHeader_cases with ⟨hlen, h⟩ | ⟨hlen, h⟩ | ⟨hlen, f, n, h⟩
    · rw [h, tryParseFrame_of_short_header hs hlen]
      exact .inr (if_neg (by rw [hs]; decide))
    · rw [h]
      refine .inl ⟨_, if_pos rfl, ?_, tryParseFrame_of_bad_header hs h rfl⟩
      simp only [loopMeasure, hs, List.length_drop, kFrameHeaderSize] at hlen ⊢
      omega
    · rw [h]
      refine .inl ⟨_, rfl, ?_, tryParseFrame_of_header hs h⟩
      simp only [loopMeasure, hs]
      omega
  | waitingPayload =>
    simp only [checkedParsePayload_eq, Option.bind_eq_bind, Option.bind_some]
    rw [tryParseFrame_of_payload hs]
    rcases c.parsePayload with ⟨_ | frame, c'⟩
    · exact .inr rfl
    · exact .inr rfl

/-- From every codec the loop returns, and none of its accesses fails. -/
theorem exists_turns_tryParseFrame (c : StreamingFrameCodec) :
    ∃ n ≤ c.loopMeasure + 1, turns turn n c = .returned c.tryParseFrame :=
  exists_turns_eq turn_cases c

/-! ### What a codec keeps -/

/-- Forget everything. -/
def reset (_c : StreamingFrameCodec) : StreamingFrameCodec :=
  { state := .waitingMagic, buffer := [], partialFrame := {}, payloadLength := 0 }

/-- A call on the codec. -/
inductive CodecCall where
  /-- `appendData` with the bytes `data`. -/
  | appendData (data : List UInt8)
  /-- `tryParseFrame`. -/
  | tryParseFrame
  /-- `reset`. -/
  | reset

/-- The codec as a machine: only `tryParseFrame` returns something. -/
def codec : StepMachine StreamingFrameCodec CodecCall (Option Frame) where
  step c
    | .appendData data => (c.appendData data, none)
    | .tryParseFrame => (c.tryParseFrame.2, c.tryParseFrame.1)
    | .reset => (c.reset, none)

/-- The bytes a codec has received since the last `reset`. -/
def received (calls : List CodecCall) : List UInt8 :=
  calls.foldl
    (fun bytes call =>
      match call with
      | .appendData data => bytes ++ data
      | .tryParseFrame => bytes
      | .reset => [])
    []

/-- The bytes in the buffer are the last ones of `bytes`, and no payload is awaited that is
longer than `kMaxPayloadSize`. -/
structure Bounded (bytes : List UInt8) (c : StreamingFrameCodec) : Prop where
  buffer_suffix : c.buffer <:+ bytes
  payloadLength_le : c.payloadLength ≤ kMaxPayloadSize

theorem Bounded.drop {bytes : List UInt8} {c : StreamingFrameCodec} (h : Bounded bytes c)
    (k : ℕ) (s : ParseState) : Bounded bytes { c with buffer := c.buffer.drop k, state := s } :=
  ⟨(List.drop_suffix k c.buffer).trans h.buffer_suffix, h.payloadLength_le⟩

theorem Bounded.appendData {bytes : List UInt8} {c : StreamingFrameCodec} (h : Bounded bytes c)
    (data : List UInt8) : Bounded (bytes ++ data) (c.appendData data) := by
  rw [appendData_eq]
  obtain ⟨front, hfront⟩ := h.buffer_suffix
  refine ⟨⟨front, ?_⟩, h.payloadLength_le⟩
  rw [← List.append_assoc, hfront]

/-- An accepted header announces a payload of at most `kMaxPayloadSize` bytes. -/
theorem payloadLength_le_of_parseHeader {c : StreamingFrameCodec} {f : Frame} {n : ℕ}
    (h : c.parseHeader = (true, { c with partialFrame := f, payloadLength := n })) :
    n ≤ kMaxPayloadSize := by
  unfold parseHeader at h
  split at h
  · cases h
  · dsimp only at h
    split at h
    · cases h
    · split at h
      · cases h
      · next hle =>
        simp only [Prod.mk.injEq, true_and, StreamingFrameCodec.mk.injEq] at h
        omega

/-- A call of `tryParseFrame` keeps the bound; without a result it leaves less than a
header and the longest payload. -/
theorem Parses.bounded {bytes : List UInt8} {c c' : StreamingFrameCodec} {r : Option Frame}
    (h : Parses c r c') (hc : Bounded bytes c) :
    Bounded bytes c' ∧
      (r = none → c'.buffer.length < kFrameHeaderSize + kMaxPayloadSize) := by
  have h10 : kFrameHeaderSize = 10 := rfl
  induction h with
  | @noMagic c hs _ =>
    refine ⟨?_, fun _ => ?_⟩
    · have hdrop := hc.drop (c.buffer.length - 3) .waitingMagic
      rwa [← hs] at hdrop
    · rw [List.length_drop]
      omega
  | @magic c r c' i _ _ _ ih => exact ih (hc.drop i _)
  | shortHeader _ hlen => exact ⟨hc, fun _ => by omega⟩
  | badHeader _ _ _ _ ih => exact ih (hc.drop 1 _)
  | header _ _ h _ ih =>
    exact ih ⟨hc.buffer_suffix, payloadLength_le_of_parseHeader h⟩
  | shortPayload _ hlen =>
    have hle := hc.payloadLength_le
    exact ⟨hc, fun _ => by omega⟩
  | payload _ _ =>
    exact ⟨⟨(List.drop_suffix _ _).trans hc.buffer_suffix, Nat.zero_le _⟩, nofun⟩

/-- Every run of calls keeps the bound. -/
theorem bounded_run (calls : List CodecCall) :
    Bounded (received calls) (codec.run {} calls) := by
  induction calls using List.reverseRecOn with
  | nil => exact ⟨List.suffix_refl _, Nat.zero_le _⟩
  | append_singleton calls call ih =>
    rw [StepMachine.run_concat, received, List.foldl_append]
    cases call with
    | appendData data => exact ih.appendData data
    | tryParseFrame => exact ((parses_iff.mpr rfl).bounded ih).1
    | reset => exact ⟨List.suffix_refl _, Nat.zero_le _⟩

/-- **Termination and bounded memory.** In every state reached by calls on a fresh codec,
the loop of `tryParseFrame` returns after finitely many turns, every index it reads, copies
or erases lies inside the buffer (no turn fails), and when it returns nothing, the codec
keeps a suffix of the bytes received that is shorter than a header and the longest
payload. -/
theorem tryParseFrame_bounded (calls : List CodecCall) :
    let c := codec.run {} calls
    (∃ n ≤ c.loopMeasure + 1, turns turn n c = .returned c.tryParseFrame) ∧
      (c.tryParseFrame.1 = none →
        c.tryParseFrame.2.buffer <:+ received calls ∧
          c.tryParseFrame.2.buffer.length < kFrameHeaderSize + kMaxPayloadSize) := by
  intro c
  obtain ⟨hbounded, hshort⟩ := (parses_iff.mpr rfl : Parses c _ _).bounded (bounded_run calls)
  exact ⟨exists_turns_tryParseFrame c, fun hnone => ⟨hbounded.buffer_suffix, hshort hnone⟩⟩

end StreamingFrameCodec

end ProtoMsgQueue
