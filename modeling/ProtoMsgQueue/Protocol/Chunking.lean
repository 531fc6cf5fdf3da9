import ProtoMsgQueue.Protocol.StreamingFrameCodec
import ProtoMsgQueue.Lib.IncrementalParser

/-!
# The streaming decoder does not see chunk borders

The streaming decoder is an incremental parser: each of its three phases, once it has
made progress, makes the same progress when more bytes have arrived, and a phase that
stops for want of data leaves a codec that cannot be told from the old one by what comes
later. For `syncMagic` this is the retention of the last three bytes; for the other two
phases nothing is dropped on waiting. The laws of `IncrementalParser` follow, and with
them the invariance of the decoded frames and of the final codec under every way of
cutting the stream.
-/

namespace ProtoMsgQueue

open BigEndian WindowScan

namespace StreamingFrameCodec

/-! ### Phases and later data -/

theorem appendData_eq (c : StreamingFrameCodec) (data : List UInt8) :
    c.appendData data = { c with buffer := c.buffer ++ data } := by
  unfold appendData
  split
  · rfl
  · next h =>
    obtain rfl : data = [] := List.eq_nil_of_length_eq_zero (by omega)
    rw [List.append_nil]

/-- A header that has arrived completely is parsed the same with more data behind it. -/
theorem parseHeader_appendData {c : StreamingFrameCodec} (h : kFrameHeaderSize ≤ c.buffer.length)
    (x : List UInt8) :
    (c.appendData x).parseHeader = (c.parseHeader.1, c.parseHeader.2.appendData x) := by
  have h10 : 10 ≤ c.buffer.length := h
  have hget (i : ℕ) (hi : i < 10) : (c.buffer ++ x).getD i 0 = c.buffer.getD i 0 := by
    rw [List.getD_append _ _ _ _ (by omega)]
  have hwin : window 4 (c.buffer ++ x) 6 = window 4 c.buffer 6 := window_append h10
  have hdrop : (c.buffer ++ x).drop 1 = c.buffer.drop 1 ++ x :=
    List.drop_append_of_le_length (by omega)
  simp only [appendData_eq, parseHeader, kFrameHeaderSize, List.length_append,
    if_neg (show ¬ c.buffer.length + x.length < 10 by omega),
    if_neg (show ¬ c.buffer.length < 10 by omega), hget 4 (by omega), hget 5 (by omega), hwin,
    hdrop]
  split
  · rfl
  · split <;> rfl

/-! ### The loop and later data -/

/-- A search for a magic number that failed may be forgotten: on more data, the codec with
the full buffer and the one that kept three bytes behave alike. -/
theorem tryParseFrame_retain {c : StreamingFrameCodec} (hs : c.state = .waitingMagic)
    (h : firstWindow isMagic 4 c.buffer = none) (x : List UInt8) :
    (c.appendData x).tryParseFrame =
      (appendData { c with buffer := c.buffer.drop (c.buffer.length - 3) } x).tryParseFrame := by
  have hscan := firstWindow_retain (by omega) h x
  rw [show c.buffer.length + 1 - 4 = c.buffer.length - 3 by omega] at hscan
  -- the three bytes kept and the new ones are the tail of the full buffer
  have hdrop (j : ℕ) : (c.buffer ++ x).drop (c.buffer.length - 3 + j)
      = (c.buffer.drop (c.buffer.length - 3) ++ x).drop j := by
    rw [← List.drop_drop, List.drop_append_of_le_length (by omega)]
  rw [appendData_eq, appendData_eq]
  cases hj : firstWindow isMagic 4 (c.buffer.drop (c.buffer.length - 3) ++ x) with
  | none =>
    rw [hj, Option.map_none] at hscan
    rw [tryParseFrame_of_no_magic (c := { c with buffer := c.buffer ++ x }) hs hscan,
      tryParseFrame_of_no_magic
        (c := { c with buffer := c.buffer.drop (c.buffer.length - 3) ++ x }) hs hj]
    simp only [List.length_append, List.length_drop, ← hdrop]
    congr 3
    omega
  | some j =>
    rw [hj, Option.map_some] at hscan
    rw [tryParseFrame_of_magic (c := { c with buffer := c.buffer ++ x }) hs hscan,
      tryParseFrame_of_magic
        (c := { c with buffer := c.buffer.drop (c.buffer.length - 3) ++ x }) hs hj]
    simp only [hdrop]

/-- What becomes of the result `r`, `c'` of a call when `x` had been there before it. -/
private def resume (r : Option Frame) (c' : StreamingFrameCodec) (x : List UInt8) :
    Option Frame × StreamingFrameCodec :=
  match r with
  | some frame => (some frame, c'.appendData x)
  | none => (c'.appendData x).tryParseFrame

/-- **Polling early is harmless.** A frame that was found is found with more data behind
it; a codec that found none behaves on more data as the codec before the attempt. -/
private theorem Parses.resume {c c' : StreamingFrameCodec} {r : Option Frame}
    (h : Parses c r c') (x : List UInt8) : (c.appendData x).tryParseFrame = resume r c' x := by
  induction h with
  | noMagic hs h => exact tryParseFrame_retain hs h x
  | @magic c r c' i hs h _ ih =>
    have hle : i ≤ c.buffer.length := by
      have := firstWindow_eq_some_iff.mp h
      omega
    rw [← ih, appendData_eq, appendData_eq,
      tryParseFrame_of_magic (c := { c with buffer := c.buffer ++ x }) hs (firstWindow_append h x)]
    simp only [List.drop_append_of_le_length hle]
  | shortHeader _ _ => rfl
  | badHeader hs hlen h _ ih =>
    -- the header was there whole, so it is rejected again
    have happ := parseHeader_appendData hlen x
    rw [h] at happ
    rw [← ih]
    exact tryParseFrame_of_bad_header (by rw [appendData_eq]; exact hs) happ
      (by rw [appendData_eq])
  | header hs hlen h _ ih =>
    have happ := parseHeader_appendData hlen x
    rw [h] at happ
    rw [← ih, tryParseFrame_of_header (by rw [appendData_eq]; exact hs) happ]
    simp only [appendData_eq]
  | shortPayload _ _ => rfl
  | @payload c hs h =>
    have hle : kFrameHeaderSize + c.payloadLength ≤ (c.buffer ++ x).length := by
      rw [List.length_append]
      omega
    have happ := (Parses.payload (c := { c with buffer := c.buffer ++ x }) hs hle).tryParseFrame_eq
    rw [StreamingFrameCodec.resume, appendData_eq, appendData_eq, happ, window_append h,
      List.drop_append_of_le_length h]

/-- A frame that was found has left the buffer. -/
theorem Parses.length_lt {c c' : StreamingFrameCodec} {r : Option Frame} (h : Parses c r c') :
    c'.buffer.length + (if r.isSome then 1 else 0) ≤ c.buffer.length := by
  induction h with
  | noMagic _ _ => simp
  | magic _ _ _ ih =>
    simp only [List.length_drop] at ih
    omega
  | shortHeader _ _ => simp
  | badHeader _ _ _ _ ih =>
    simp only [List.length_drop] at ih
    omega
  | header _ _ _ _ ih => exact ih
  | shortPayload _ _ => simp
  | payload _ h =>
    simp only [kFrameHeaderSize, List.length_drop, Option.isSome_some, if_true] at h ⊢
    omega

/-! ### The decoder as an incremental parser -/

/-- The streaming decoder, fed by `appendData` and polled by `tryParseFrame`. -/
def parser : IncrementalParser StreamingFrameCodec UInt8 Frame where
  feed := appendData
  poll := tryParseFrame
  size c := c.buffer.length
  feed_nil c := by rw [appendData_eq, List.append_nil]
  feed_feed c x y := by simp only [appendData_eq, List.append_assoc]
  size_poll h := (parses_iff.mpr h).length_lt
  poll_some_feed h x := (parses_iff.mpr h).resume x
  poll_none_feed h x := (parses_iff.mpr h).resume x

/-- Call `tryParseFrame` until it returns nothing: the frames in order, and the codec
left behind. -/
def parseAll (c : StreamingFrameCodec) : List Frame × StreamingFrameCodec := parser.drain c

/-- **Chunking invariance.** Let any sequence of `appendData` and `tryParseFrame` calls
run on a fresh codec, and let `s` be the data appended so far followed by any data still
to come. The frames returned so far are a prefix of the frames a fresh codec yields when
`s` is appended whole; and when all of `s` is appended and a `tryParseFrame` call returns
nothing, the frames and the codec are those of the whole stream. -/
theorem chunking_invariance (calls : List (IncrementalParser.Call UInt8)) (rest : List UInt8) :
    let whole := parseAll (appendData {} (IncrementalParser.fed calls ++ rest))
    let frames := parser.returned {} calls
    let codec := parser.machine.run {} calls
    frames <+: whole.1 ∧
      ∀ codec', rest = [] → codec.tryParseFrame = (none, codec') → whole = (frames, codec') := by
  refine ⟨parser.returned_prefix {} calls rest, ?_⟩
  rintro codec' rfl h
  rw [List.append_nil]
  exact parser.drain_of_run_poll_none h

end StreamingFrameCodec

end ProtoMsgQueue
