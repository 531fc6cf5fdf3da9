import ProtoMsgQueue.Network.Connection

/-!
# The limit of the write buffer

The buffered path of `sendFrame` refuses a frame that does not fit behind the bytes already
waiting; the gathered path copies what the kernel did not take whatever the limit. So the
write buffer stays within its limit exactly as long as no gathered send leaves more than the
limit (`always_withinLimit_iff`).

The test of the buffered path stands before the only loop that sends waiting bytes. A frame
that does not fit therefore does not get the waiting bytes out either, even if the kernel
would take everything (`flushes_iff`).
-/

namespace ProtoMsgQueue

open FrameCodec

namespace Connection

/-- Does the next `sendFrame` take the gathered path? -/
def Gathers (c : Connection) : Prop :=
  c.closed = false ∧ c.writeBuffer = [] ∧ c.useZeroCopy = true

instance (c : Connection) : Decidable c.Gathers :=
  inferInstanceAs (Decidable (_ ∧ _ ∧ _))

/-- What a gathered send of `total` bytes leaves to be copied into the write buffer. When the
kernel fails, or takes nothing without asking to wait, the connection is closed and nothing
is copied. -/
def leftover (total : ℕ) : KernelAnswer → ℕ
  | .sent 0 => 0
  | .sent (n + 1) => total - (n + 1)
  | .again => total
  | .error => 0

/-! ### One call -/

/-- A call keeps the configuration. -/
theorem config_sendFrame (c : Connection) (frame : Frame) (answers : List KernelAnswer) :
    (c.sendFrame frame answers).conn.config = c.config := by
  unfold sendFrame
  split
  · rfl
  split
  · unfold sendBuffered
    dsimp only
    split
    · rfl
    · split <;> rfl
  · unfold sendGathered
    dsimp only
    split
    · rfl
    · split
      · split
        · rfl
        · split <;> rfl
      · rfl
      · rfl

theorem maxWriteBuffer_sendFrame (c : Connection) (frame : Frame) (answers : List KernelAnswer) :
    (c.sendFrame frame answers).conn.maxWriteBuffer = c.maxWriteBuffer := by
  rw [maxWriteBuffer, config_sendFrame, maxWriteBuffer]

/-- The buffered path keeps the limit. -/
theorem length_sendBuffered_le {c : Connection} (frame : Frame) (answers : List KernelAnswer)
    (h : c.writeBuffer.length ≤ c.maxWriteBuffer) :
    (c.sendBuffered frame answers).conn.writeBuffer.length ≤ c.maxWriteBuffer := by
  unfold sendBuffered
  dsimp only
  split
  · exact h
  · next hroom =>
    have hbuffer : (c.writeBuffer ++ encode frame).length ≤ c.maxWriteBuffer := by
      rw [List.length_append]
      omega
    split
    · dsimp only
      split
      · rw [List.length_drop]
        omega
      · exact hbuffer
    · exact hbuffer

/-- The gathered path leaves what the kernel did not take. -/
theorem length_sendGathered {c : Connection} (frame : Frame) (answers : List KernelAnswer)
    (hempty : c.writeBuffer = []) : (c.sendGathered frame answers).conn.writeBuffer.length =
      leftover (encode frame).length (answers.headD .again) := by
  have hheader := encodeHeaderToBuffer_of_length_eq frame
    (List.length_replicate : (List.replicate kFrameHeaderSize (0 : UInt8)).length = _)
  have hiov : headerBytes frame ++ frame.payload = encode frame := (encode_eq frame).symm
  have hlen : kFrameHeaderSize + frame.payload.length = (encode frame).length :=
    (length_encode frame).symm
  have hpos : 0 < (encode frame).length := by
    rw [length_encode, kFrameHeaderSize]
    omega
  unfold sendGathered
  rw [hheader]
  dsimp only
  rw [if_neg (by decide), hlen]
  cases answers.headD .again with
  | sent n =>
    dsimp only
    rcases n with - | n
    · rw [if_neg (by omega), if_neg (by omega)]
      exact congrArg List.length hempty
    · split
      · next hall =>
        rw [hempty, leftover]
        exact (Nat.sub_eq_zero_of_le (by omega)).symm
      · rw [if_pos (by omega), hempty, List.nil_append, residue_eq, hiov, List.length_drop,
          leftover]
        omega
  | again =>
    dsimp only
    rw [hempty, List.nil_append, hiov]
    rfl
  | error => exact congrArg List.length hempty

/-- From a buffer within its limit, a call leaves one within its limit exactly if it is not a
gathered send that leaves more. -/
theorem length_sendFrame_le_iff {c : Connection} (frame : Frame) (answers : List KernelAnswer)
    (h : c.writeBuffer.length ≤ c.maxWriteBuffer) :
    (c.sendFrame frame answers).conn.writeBuffer.length ≤ c.maxWriteBuffer ↔
      (c.Gathers →
        leftover (encode frame).length (answers.headD .again) ≤ c.maxWriteBuffer) := by
  by_cases hg : c.Gathers
  · obtain ⟨hopen, hempty, hzero⟩ := hg
    rw [sendFrame, if_neg (by rw [hopen]; exact Bool.false_ne_true),
      if_neg (by simp [hempty, hzero]), length_sendGathered frame answers hempty]
    exact ⟨fun hle _ => hle, fun hle => hle ⟨hopen, hempty, hzero⟩⟩
  · refine iff_of_true ?_ fun hg' => absurd hg' hg
    unfold sendFrame
    split
    · exact h
    · next hopen =>
      rw [if_pos]
      · exact length_sendBuffered_le frame answers h
      · by_contra hpath
        rw [not_or, not_not, not_not] at hpath
        exact hg ⟨eq_false_of_ne_true hopen, hpath⟩

/-! ### Every run of calls -/

/-- The write buffer is within its limit. -/
def WithinLimit (s : Connection × List UInt8) : Prop :=
  s.1.writeBuffer.length ≤ s.1.maxWriteBuffer

/-- A call is not a gathered send that leaves more than the limit. -/
def LeavesLittle
    (e : StepMachine.Event (Connection × List UInt8) (Frame × List KernelAnswer) Bool) : Prop :=
  e.pre.1.Gathers →
    leftover (encode e.input.1).length (e.input.2.headD .again) ≤ e.pre.1.maxWriteBuffer

/-- **The limit of the write buffer.** Start with an empty write buffer, zero copy on or
off, and let any frames be sent under any answers of the kernel. The write buffer is within
its limit after every call exactly if no call is a gathered send of which the kernel leaves
more than the limit. -/
theorem always_withinLimit_iff (config : Option BrokerConfig)
    (calls : List (Frame × List KernelAnswer)) :
    sender.Always (fun _ => WithinLimit) ({ config := config }, []) calls ↔
      sender.Along (fun _ => LeavesLittle) ({ config := config }, []) calls := by
  refine sender.always_iff_along (J := fun _ _ => True) (A := fun _ _ => True) trivial
    (Nat.zero_le _) (fun _ _ _ _ _ => trivial) ?_ fun _ _ _ _ => trivial
  rintro h ⟨c, kernel⟩ ⟨frame, answers⟩ - - hnow
  change _ ≤ (c.sendFrame frame answers).conn.maxWriteBuffer ↔ _
  rw [maxWriteBuffer_sendFrame]
  exact length_sendFrame_le_iff frame answers hnow

/-- With a limit of 32 bytes, a gathered send of 40 bytes that the kernel asks to repeat later
fills the write buffer with all 40. -/
theorem not_withinLimit_gathered :
    ¬ sender.Always (fun _ => WithinLimit) ({ config := some { maxWriteBufferSize := 32 } }, [])
      [({ msgType := .push, payload := List.replicate 30 0 }, [.again])] := by
  intro h
  exact absurd h.run (by unfold WithinLimit; decide)

/-! ### Waiting bytes and a kernel that takes everything -/

/-- The kernel takes all bytes the next `sendFrame` offers: those waiting and the frame. -/
def AcceptsAll (c : Connection) (frame : Frame) (answers : List KernelAnswer) : Prop :=
  ∃ n rest, answers = .sent n :: rest ∧ c.writeBuffer.length + (encode frame).length ≤ n

/-- The loop ends when everything was taken at once. -/
theorem sendLoop_of_le {data : List UInt8} (hpos : 0 < data.length) {n : ℕ}
    (h : data.length ≤ n) (answers : List KernelAnswer) :
    sendLoop data 0 (.sent n :: answers) = (data.length, true) := by
  have hall : min n (data.length - 0) = data.length := by omega
  rw [sendLoop, if_pos hpos]
  dsimp only
  rw [hall, if_pos hpos, Nat.zero_add]
  cases answers with
  | nil => rfl
  | cons _ _ =>
    unfold sendLoop
    exact if_neg (lt_irrefl _)

/-- A gathered send whose bytes are all taken leaves nothing. -/
theorem sendGathered_of_acceptsAll {c : Connection} {frame : Frame} {answers : List KernelAnswer}
    (h : AcceptsAll c frame answers) : ∃ accepted,
      c.sendGathered frame answers = { ok := true, conn := c, accepted := accepted } := by
  obtain ⟨n, rest, rfl, hn⟩ := h
  have hheader := encodeHeaderToBuffer_of_length_eq frame
    (List.length_replicate : (List.replicate kFrameHeaderSize (0 : UInt8)).length = _)
  have hlen : kFrameHeaderSize + frame.payload.length = (encode frame).length :=
    (length_encode frame).symm
  unfold sendGathered
  rw [hheader]
  dsimp only
  rw [if_neg (by decide), hlen, List.headD_cons]
  exact ⟨_, if_pos (by omega)⟩

/-- The buffered path takes the frame and everything waiting out, if the frame fits behind
what is waiting; otherwise it refuses. -/
theorem sendBuffered_of_acceptsAll {c : Connection} {frame : Frame} {answers : List KernelAnswer}
    (h : AcceptsAll c frame answers) :
    (c.sendBuffered frame answers).ok = true ∧
        (c.sendBuffered frame answers).conn.writeBuffer = [] ↔
      c.writeBuffer.length + (encode frame).length ≤ c.maxWriteBuffer := by
  obtain ⟨n, rest, rfl, hn⟩ := h
  have hpos : 0 < (encode frame).length := by
    rw [length_encode, kFrameHeaderSize]
    omega
  unfold sendBuffered
  dsimp only
  split
  · exact iff_of_false (fun hok => Bool.false_ne_true hok.1) (by omega)
  · next hroom =>
    rw [← List.length_append] at hn
    rw [sendLoop_of_le (by rw [List.length_append]; omega) hn]
    refine iff_of_true ⟨rfl, ?_⟩ (by omega)
    dsimp only
    rw [if_pos (by rw [List.length_append]; omega), List.drop_length]

/-- **Backpressure and the socket.** In every state of an open connection reached by sends
under any answers of the kernel, let a frame whose encoding is within the limit be sent while
the kernel takes all bytes offered. The call returns true and leaves the write buffer empty
exactly if the frame fits into the write buffer behind the bytes waiting there. -/
theorem flushes_iff (config : Option BrokerConfig) (calls : List (Frame × List KernelAnswer))
    (frame : Frame) (answers : List KernelAnswer)
    (hopen : (sender.run ({ config := config }, []) calls).1.closed = false)
    (hsize : (encode frame).length ≤ (sender.run ({ config := config }, []) calls).1.maxWriteBuffer)
    (hkernel : AcceptsAll (sender.run ({ config := config }, []) calls).1 frame answers) :
    let c := (sender.run ({ config := config }, []) calls).1
    (c.sendFrame frame answers).ok = true ∧ (c.sendFrame frame answers).conn.writeBuffer = [] ↔
      c.writeBuffer.length + (encode frame).length ≤ c.maxWriteBuffer := by
  intro c
  rw [sendFrame, if_neg (by rw [hopen]; exact Bool.false_ne_true)]
  split
  · exact sendBuffered_of_acceptsAll hkernel
  · next hpath =>
    rw [not_or, not_not] at hpath
    obtain ⟨accepted, hsent⟩ := sendGathered_of_acceptsAll hkernel
    rw [hsent, hpath.1]
    refine iff_of_true ⟨rfl, rfl⟩ ?_
    rwa [List.length_nil, Nat.zero_add]

/-- With a limit of 32 bytes and 20 waiting, a frame of 12 bytes takes them out. -/
theorem flushes_when_fitting :
    let c := (sender.run ({ config := some { maxWriteBufferSize := 32 } }, [])
      [({ msgType := .push, payload := List.replicate 10 0 }, [.again])]).1
    (c.sendFrame { payload := [1, 2] } [.sent 32]).ok = true ∧
      (c.sendFrame { payload := [1, 2] } [.sent 32]).conn.writeBuffer = [] :=
  (flushes_iff (some { maxWriteBufferSize := 32 })
    [({ msgType := .push, payload := List.replicate 10 0 }, [.again])]
    { payload := [1, 2] } [.sent 32] (by decide) (by decide)
    ⟨32, [], rfl, by decide⟩).mpr (by decide)

/-- With the same 20 bytes waiting, a frame of 13 bytes is refused although the kernel would
take everything, and the 20 bytes stay. -/
theorem not_flushes_when_not_fitting :
    let c := (sender.run ({ config := some { maxWriteBufferSize := 32 } }, [])
      [({ msgType := .push, payload := List.replicate 10 0 }, [.again])]).1
    c.closed = false ∧ (encode { payload := [1, 2, 3] }).length ≤ c.maxWriteBuffer ∧
      AcceptsAll c { payload := [1, 2, 3] } [.sent 33] ∧
      (c.sendFrame { payload := [1, 2, 3] } [.sent 33]).ok = false ∧
      (c.sendFrame { payload := [1, 2, 3] } [.sent 33]).conn.writeBuffer ≠ [] :=
  ⟨by decide, by decide, ⟨33, [], rfl, by decide⟩, by decide, by decide⟩

end Connection

end ProtoMsgQueue
