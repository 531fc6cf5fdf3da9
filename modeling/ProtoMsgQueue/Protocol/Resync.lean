import ProtoMsgQueue.Protocol.Chunking

/-!
# Resynchronisation

What the encoder writes, the streaming decoder reads back, also behind garbage: bytes none
of which begins a valid header are skipped one by one, whether they hold no magic number,
a magic number with a bad version, or one with a bad length, and a candidate that overlaps
the first real frame is rejected without eating into it.
-/

namespace ProtoMsgQueue

open BigEndian WindowScan FrameCodec

namespace StreamingFrameCodec

/-- Position `i` of `b` begins a valid header: ten bytes with the magic number, version 1
and a length of at most `kMaxPayloadSize`. -/
def BeginsValidHeader (b : List UInt8) (i : ℕ) : Prop :=
  i + kFrameHeaderSize ≤ b.length ∧ isMagic (window 4 b i) = true ∧
    b.getD (i + 4) 0 = kFrameVersion ∧ beValue (window 4 b (i + 6)) ≤ kMaxPayloadSize

instance (b : List UInt8) (i : ℕ) : Decidable (BeginsValidHeader b i) := by
  unfold BeginsValidHeader
  infer_instance

theorem beginsValidHeader_cons {x : UInt8} {b : List UInt8} {i : ℕ} :
    BeginsValidHeader (x :: b) (i + 1) ↔ BeginsValidHeader b i := by
  simp only [BeginsValidHeader, List.length_cons, window, Nat.add_right_comm i 1,
    List.drop_succ_cons, List.getD_cons_succ]
  exact and_congr_left fun _ => by omega

/-! ### Skipping garbage -/

/-- A header at the front of the buffer that is not valid is rejected. -/
private theorem parseHeader_of_not_valid {c : StreamingFrameCodec}
    (hlen : kFrameHeaderSize ≤ c.buffer.length) (hm : isMagic (window 4 c.buffer 0) = true)
    (h : ¬ BeginsValidHeader c.buffer 0) :
    c.parseHeader = (false, { c with buffer := c.buffer.drop 1, state := .waitingMagic }) := by
  rw [parseHeader, if_neg (by omega)]
  dsimp only
  split
  · rfl
  · next hv =>
    rw [if_pos]
    by_contra hle
    exact h ⟨by omega, hm, not_not.mp hv, not_lt.mp hle⟩

/-- **One byte.** A byte that does not begin a valid header is skipped, provided the
decoder can see that. -/
private theorem tryParseFrame_skip {c : StreamingFrameCodec} {x : UInt8} {b : List UInt8}
    (hs : c.state = .waitingMagic) (hb : c.buffer = x :: b)
    (hlen : kFrameHeaderSize ≤ c.buffer.length) (h : ¬ BeginsValidHeader c.buffer 0) :
    c.tryParseFrame = tryParseFrame { c with buffer := b } := by
  have hlen' : 9 ≤ b.length := by
    rw [hb, List.length_cons, kFrameHeaderSize] at hlen
    omega
  have hdrop : c.buffer.drop 1 = b := by rw [hb]; rfl
  cases hm : isMagic (window 4 c.buffer 0) with
  | true =>
    -- a magic number at the front: the header behind it is rejected
    have hscan : firstWindow isMagic 4 c.buffer = some 0 :=
      firstWindow_eq_some_iff.mpr ⟨hm, by rw [hb, List.length_cons]; omega, by simp⟩
    rw [tryParseFrame_of_magic hs hscan]
    have hbad := parseHeader_of_not_valid (c := { c with state := .waitingHeader }) hlen hm h
    rw [List.drop_zero, tryParseFrame_of_bad_header rfl hbad rfl, hdrop, hs]
  | false =>
    -- no magic number at the front: both scans find the same one, or none
    have hscan : firstWindow isMagic 4 c.buffer = (firstWindow isMagic 4 b).map (1 + ·) := by
      rw [← hdrop]
      refine firstWindow_drop (by rw [hb, List.length_cons]; omega) fun i hi => ?_
      obtain rfl : i = 0 := by omega
      exact hm
    cases hj : firstWindow isMagic 4 b with
    | none =>
      rw [hj, Option.map_none] at hscan
      rw [tryParseFrame_of_no_magic hs hscan,
        tryParseFrame_of_no_magic (c := { c with buffer := b }) hs hj]
      have hkeep : c.buffer.drop (c.buffer.length - 3) = b.drop (b.length - 3) := by
        rw [hb, List.length_cons, show b.length + 1 - 3 = b.length - 3 + 1 by omega,
          List.drop_succ_cons]
      rw [hkeep]
    | some j =>
      rw [hj, Option.map_some] at hscan
      rw [tryParseFrame_of_magic hs hscan,
        tryParseFrame_of_magic (c := { c with buffer := b }) hs hj]
      rw [← hdrop, List.drop_drop]

/-- A decoder that waits for a magic number, with the given buffer. -/
def waiting (b : List UInt8) : StreamingFrameCodec := { buffer := b }

/-- **Garbage in front of a frame.** -/
theorem tryParseFrame_skip_garbage {g t : List UInt8} (ht : kFrameHeaderSize ≤ t.length)
    (hg : ∀ i < g.length, ¬ BeginsValidHeader (g ++ t) i) :
    (waiting (g ++ t)).tryParseFrame = (waiting t).tryParseFrame := by
  induction g with
  | nil => rfl
  | cons x g ih =>
    rw [← ih fun i hi => ?_]
    · refine tryParseFrame_skip rfl rfl ?_ (hg 0 (by simp))
      simp only [waiting, List.cons_append, List.length_cons, List.length_append]
      omega
    · rw [← beginsValidHeader_cons (x := x)]
      exact hg (i + 1) (by rw [List.length_cons]; omega)

/-- **Garbage only.** Without a valid header no frame comes out. -/
theorem tryParseFrame_garbage {g : List UInt8}
    (hg : ∀ i < g.length, ¬ BeginsValidHeader g i) : (waiting g).tryParseFrame.1 = none := by
  induction g with
  | nil => rw [tryParseFrame_of_no_magic rfl rfl]
  | cons x g ih =>
    rcases Nat.lt_or_ge (x :: g).length kFrameHeaderSize with hshort | hlen
    -- fewer bytes than a header: a magic number among them waits for more
    · cases hscan : firstWindow isMagic 4 (x :: g) with
      | none => rw [tryParseFrame_of_no_magic rfl hscan]
      | some i =>
        rw [tryParseFrame_of_magic rfl hscan, tryParseFrame_of_short_header rfl]
        simp only [waiting, List.length_drop]
        omega
    · rw [tryParseFrame_skip rfl rfl hlen (hg 0 (by simp))]
      refine ih fun i hi => ?_
      rw [← beginsValidHeader_cons (x := x)]
      exact hg (i + 1) (by rw [List.length_cons]; omega)

/-! ### Reading back what was encoded -/

/-- The frame as a decoder reports it: with its length field set. -/
def withLength (f : Frame) : Frame := { f with length := f.payload.length }

/-- An encoder input the decoder accepts: default magic and version, any message type,
and a payload within the limit. -/
def Encodable (f : Frame) : Prop :=
  f.magic = kFrameMagic ∧ f.version = kFrameVersion ∧ f.payload.length ≤ kMaxPayloadSize

instance (f : Frame) : Decidable (Encodable f) := by
  unfold Encodable
  infer_instance

private theorem kMaxPayloadSize_lt : kMaxPayloadSize < 256 ^ 4 := by decide

/-- The bytes of an encodable frame, header field by header field. -/
theorem encode_append {f : Frame} (hf : Encodable f) (rest : List UInt8) :
    ∃ l₀ l₁ l₂ l₃ : UInt8, beValue [l₀, l₁, l₂, l₃] = f.payload.length ∧
      encode f ++ rest = 0xDE :: 0xAD :: 0xBE :: 0xEF :: kFrameVersion :: f.msgType.value ::
        l₀ :: l₁ :: l₂ :: l₃ :: (f.payload ++ rest) := by
  obtain ⟨hmagic, hversion, hlen⟩ := hf
  have hval : beValue (beBytes 4 f.payload.length) = f.payload.length :=
    beValue_beBytes_of_lt (lt_of_le_of_lt hlen kMaxPayloadSize_lt)
  obtain ⟨l₀, l₁, l₂, l₃, hl⟩ : ∃ l₀ l₁ l₂ l₃ : UInt8,
      beBytes 4 f.payload.length = [l₀, l₁, l₂, l₃] := ⟨_, _, _, _, rfl⟩
  refine ⟨l₀, l₁, l₂, l₃, by rw [← hl, hval], ?_⟩
  rw [encode_eq, headerBytes, hmagic, hversion, hl]
  rfl

/-- The header of an encodable frame, as `parseHeader` stores it. -/
private def parsedHeader (f : Frame) : Frame :=
  { msgType := f.msgType, length := f.payload.length }

/-- **One frame.** A decoder at the start of an encoded frame returns that frame and keeps
exactly what follows it. -/
theorem tryParseFrame_encode {f : Frame} (hf : Encodable f) (rest : List UInt8) :
    (waiting (encode f ++ rest)).tryParseFrame = (some (withLength f), waiting rest) := by
  obtain ⟨l₀, l₁, l₂, l₃, hval, henc⟩ := encode_append hf rest
  obtain ⟨hmagic, hversion, hlen⟩ := hf
  set b := encode f ++ rest with hb
  have hblen : b.length = 10 + f.payload.length + rest.length := by
    rw [hb, List.length_append, length_encode, kFrameHeaderSize]
  have hscan : firstWindow isMagic 4 b = some 0 := by
    refine firstWindow_eq_some_iff.mpr ⟨?_, by omega, by simp⟩
    rw [henc]
    rfl
  have hheader : parseHeader { buffer := b, state := .waitingHeader } =
      (true, { buffer := b, state := .waitingHeader, partialFrame := parsedHeader f,
               payloadLength := f.payload.length }) := by
    have hv : b.getD 4 0 = kFrameVersion := by rw [henc]; rfl
    have ht : b.getD 5 0 = f.msgType.value := by rw [henc]; rfl
    have hl : beValue (window 4 b 6) = f.payload.length := by rw [henc, ← hval]; rfl
    rw [parseHeader, if_neg (by simp only [hblen, kFrameHeaderSize]; omega)]
    simp only [hv, ht, hl, ne_eq, not_true_eq_false, if_false, if_neg (not_lt.mpr hlen)]
    rfl
  have hpayload : window f.payload.length b kFrameHeaderSize = f.payload := by
    rw [window, henc]
    exact List.take_left
  have hrest : b.drop (kFrameHeaderSize + f.payload.length) = rest := by
    rw [← List.drop_drop, henc]
    exact List.drop_left
  rw [waiting, tryParseFrame_of_magic (c := { buffer := b }) rfl hscan, List.drop_zero,
    tryParseFrame_of_header rfl hheader]
  have hp := Parses.payload
    (c := { buffer := b, state := .waitingPayload, partialFrame := parsedHeader f,
            payloadLength := f.payload.length })
    rfl (by simp only [hblen, kFrameHeaderSize]; omega)
  have hframe : withLength f = { parsedHeader f with payload := f.payload } := by
    rw [withLength, hmagic, hversion]
    rfl
  rw [hp.tryParseFrame_eq, hpayload, hrest, hframe]
  rfl

/-- Draining what follows no garbage: one frame after the other, down to an empty buffer. -/
private theorem parseAll_encoded (fs : List Frame) (hfs : ∀ f ∈ fs, Encodable f) :
    parseAll (waiting (fs.flatMap encode)) = (fs.map withLength, waiting []) := by
  induction fs with
  | nil => exact parser.drain_of_none (tryParseFrame_of_no_magic rfl rfl)
  | cons f fs ih =>
    have hstep := tryParseFrame_encode (hfs f (by simp)) (fs.flatMap encode)
    rw [List.flatMap_cons, parseAll, parser.drain_of_some hstep]
    have hrest := ih fun f' hf' => hfs f' (List.mem_cons_of_mem _ hf')
    rw [parseAll] at hrest
    rw [hrest, List.map_cons]

/-- **Encoder and decoder agree, behind any garbage.** Let no position of `g` begin a
valid header in `g` followed by the encoded frames. Then a fresh decoder yields exactly
the frames, each with its length set, and with at least one frame its buffer ends empty. -/
theorem parseAll_encode (g : List UInt8) (fs : List Frame) (hfs : ∀ f ∈ fs, Encodable f)
    (hg : ∀ i < g.length, ¬ BeginsValidHeader (g ++ fs.flatMap encode) i) :
    let result := parseAll (appendData {} (g ++ fs.flatMap encode))
    result.1 = fs.map withLength ∧ (fs ≠ [] → result.2.buffer = []) := by
  have hfeed : appendData {} (g ++ fs.flatMap encode) = waiting (g ++ fs.flatMap encode) :=
    appendData_eq _ _
  rw [hfeed]
  cases fs with
  | nil =>
    rw [List.flatMap_nil, List.append_nil] at hg ⊢
    have hnone : parser.poll (waiting g) = (none, (waiting g).tryParseFrame.2) :=
      Prod.ext (tryParseFrame_garbage hg) rfl
    rw [parseAll, parser.drain_of_none hnone]
    exact ⟨rfl, fun h => absurd rfl h⟩
  | cons f fs =>
    have hlen : kFrameHeaderSize ≤ ((f :: fs).flatMap encode).length := by
      rw [List.flatMap_cons, List.length_append, length_encode]
      omega
    have hskip : parseAll (waiting (g ++ (f :: fs).flatMap encode))
        = parseAll (waiting ((f :: fs).flatMap encode)) :=
      parser.drain_congr (tryParseFrame_skip_garbage hlen hg)
    rw [hskip, parseAll_encoded _ hfs]
    exact ⟨rfl, fun _ => rfl⟩

/-- The decoder's own resynchronisation test: an acknowledgement behind `00 DE AD`. -/
theorem parseAll_encode_partial_magic :
    let ack : Frame := { msgType := ⟨5⟩, payload := [0x11, 0x22] }
    let result := parseAll (appendData {} ([0x00, 0xDE, 0xAD] ++ [ack].flatMap encode))
    result.1 = [withLength ack] ∧ ([ack] ≠ [] → result.2.buffer = []) :=
  parseAll_encode [0x00, 0xDE, 0xAD] [{ msgType := ⟨5⟩, payload := [0x11, 0x22] }]
    (by decide) (by decide)

/-! ### Streams that end inside a frame -/

/-- A frame that has not arrived as a whole is not returned. -/
theorem tryParseFrame_of_cut {f : Frame} (hf : Encodable f) {part rest : List UInt8}
    (hpart : part ++ rest = encode f) (hrest : rest ≠ []) :
    (waiting part).tryParseFrame.1 = none := by
  rcases h : (waiting part).tryParseFrame with ⟨_ | a, c⟩
  · rfl
  · -- the rest of the frame would be left over behind the frame
    have hfed := parser.poll_some_feed (s := waiting part) h rest
    have hwhole : parser.feed (waiting part) rest = waiting (encode f) := by
      rw [← hpart]
      exact appendData_eq _ _
    have henc := tryParseFrame_encode hf []
    rw [List.append_nil] at henc
    rw [hwhole] at hfed
    have hleft := congrArg Prod.snd (henc.symm.trans hfed)
    have hbuffer : ([] : List UInt8) = c.buffer ++ rest :=
      (congrArg StreamingFrameCodec.buffer hleft).trans
        (congrArg StreamingFrameCodec.buffer (appendData_eq c rest))
    exact absurd (List.append_eq_nil_iff.mp hbuffer.symm).2 hrest

/-- **A stream that ends inside a frame** yields the frames before it. -/
theorem parseAll_cut {fs : List Frame} (hfs : ∀ f ∈ fs, Encodable f) {part : List UInt8}
    (hpart : (waiting part).tryParseFrame.1 = none) :
    (parseAll (appendData {} (fs.flatMap encode ++ part))).1 = fs.map withLength := by
  have hfeed : appendData {} (fs.flatMap encode ++ part) =
      appendData (waiting (fs.flatMap encode)) part := by
    rw [appendData_eq, appendData_eq]
    rfl
  have hdrain := parser.drain_feed (waiting (fs.flatMap encode)) part
  have hnil := (parser.drain_fst_eq_nil_iff (waiting part)).mpr hpart
  have hlast : parser.feed (waiting []) part = waiting part := appendData_eq _ _
  have hall := parseAll_encoded fs hfs
  rw [parseAll] at hall
  rw [hall, hlast, hnil, List.append_nil] at hdrain
  rw [hfeed]
  exact congrArg Prod.fst hdrain

/-- Where a stream of encoded frames is cut: behind some of them, or inside the next one. -/
theorem exists_cut (fs : List Frame) {fed rest : List UInt8} (h : fed ++ rest = fs.flatMap encode) :
    ∃ fs₁ fs₂ part, fs = fs₁ ++ fs₂ ∧ fed = fs₁.flatMap encode ++ part ∧
      (part = [] ∨ ∃ f ∈ fs₂, ∃ rest', rest' ≠ [] ∧ part ++ rest' = encode f) := by
  induction fs generalizing fed with
  | nil =>
    obtain ⟨rfl, -⟩ := List.append_eq_nil_iff.mp h
    exact ⟨[], [], [], rfl, rfl, Or.inl rfl⟩
  | cons f fs ih =>
    rw [List.flatMap_cons] at h
    rcases List.append_eq_append_iff.mp h with ⟨a, hf, -⟩ | ⟨a, hfed, ha⟩
    · by_cases hnil : a = []
      · rw [hnil, List.append_nil] at hf
        refine ⟨[f], fs, [], rfl, ?_, Or.inl rfl⟩
        rw [← hf, List.flatMap_singleton, List.append_nil]
      · exact ⟨[], f :: fs, fed, rfl, rfl, Or.inr ⟨f, List.mem_cons_self, a, hnil, hf.symm⟩⟩
    · obtain ⟨fs₁, fs₂, part, rfl, rfl, hpart⟩ := ih ha.symm
      exact ⟨f :: fs₁, fs₂, part, rfl, by rw [hfed, List.flatMap_cons, List.append_assoc], hpart⟩

end StreamingFrameCodec

end ProtoMsgQueue
