import ProtoMsgQueue.Common.Config
import ProtoMsgQueue.Protocol.FrameCodec
import ProtoMsgQueue.Lib.StepMachine

/-!
# Outgoing frames of a connection

`Connection::SendFrame` of `network/connection.cpp`. A frame leaves a connection by one of
two paths: it is encoded into the write buffer and the buffer is offered to `send`, or,
with zero copy and an empty buffer, header and payload are offered to `writev` and what
the kernel did not take is copied into the buffer. The answers of the kernel are an input
of the call, one for each system call it makes; what the kernel accepted is an output.

`outgoing_stream` shows that both paths build one stream: accepted bytes followed by the
write buffer are the encodings of the frames whose `sendFrame` returned true, in order.
-/

namespace ProtoMsgQueue

open FrameCodec

/-- The kernel's answer to one `send` or `writev`. -/
inductive KernelAnswer where
  /-- `n` bytes were accepted (of those offered, if `n` is larger). -/
  | sent (n : ℕ)
  /-- `EAGAIN` or `EWOULDBLOCK`. -/
  | again
  /-- Any other error. -/
  | error
deriving DecidableEq, Repr

/-- The sending side of a connection. -/
structure Connection where
  /-- The configuration, absent for a null pointer. -/
  config : Option BrokerConfig := none
  /-- Has the connection been closed? -/
  closed : Bool := false
  /-- Encoded bytes not yet accepted by the kernel. -/
  writeBuffer : List UInt8 := []
deriving DecidableEq, Repr

namespace Connection

/-- What one `sendFrame` does: its result, the connection it leaves, and the bytes the
kernel accepted during the call. -/
structure SendResult where
  ok : Bool
  conn : Connection
  accepted : List UInt8
deriving DecidableEq, Repr

/-- Close the connection. -/
def close (c : Connection) : Connection := { c with closed := true }

/-- Is the gathering send in use? -/
def useZeroCopy (c : Connection) : Bool :=
  match c.config with
  | some config => config.zeroCopyEnabled
  | none => true

/-- The limit of the write buffer. -/
def maxWriteBuffer (c : Connection) : ℕ :=
  match c.config with
  | some config => config.maxWriteBufferSize.toNat
  | none => 8 * 1024 * 1024

/-- The loop that offers the write buffer to `send`: the bytes sent in total, and whether
the loop ended without an error. A system call past the listed answers gets `EAGAIN`. -/
def sendLoop (data : List UInt8) : ℕ → List KernelAnswer → ℕ × Bool
  | totalSent, [] => (totalSent, true)
  | totalSent, answer :: answers =>
    if totalSent < data.length then
      match answer with
      | .sent n =>
        let sent := min n (data.length - totalSent)
        if 0 < sent then sendLoop data (totalSent + sent) answers else (totalSent, false)
      | .again => (totalSent, true)
      | .error => (totalSent, false)
    else (totalSent, true)

/-- The buffered path: append the encoded frame, then send as much as possible. -/
def sendBuffered (c : Connection) (frame : Frame) (answers : List KernelAnswer) : SendResult :=
  let encoded := encode frame
  if c.maxWriteBuffer < c.writeBuffer.length + encoded.length then
    -- backpressure
    { ok := false, conn := c, accepted := [] }
  else
    let buffer := c.writeBuffer ++ encoded
    match sendLoop buffer 0 answers with
    | (totalSent, true) =>
      { ok := true
        conn := { c with writeBuffer := if 0 < totalSent then buffer.drop totalSent else buffer }
        accepted := buffer.take totalSent }
    | (totalSent, false) =>
      { ok := false
        conn := { c with writeBuffer := buffer }.close
        accepted := buffer.take totalSent }

/-- The part of a partially accepted gathering send that is copied into the write buffer:
what remains of the header, then what remains of the payload. -/
def residue (header payload : List UInt8) (sent : ℕ) : List UInt8 :=
  let headerSize := header.length
  let remainingHeader := if sent < headerSize then headerSize - sent else 0
  let payloadSent := if headerSize < sent then sent - headerSize else 0
  let remainingPayload := payload.length - payloadSent
  (if 0 < remainingHeader then header.drop (headerSize - remainingHeader) else []) ++
    (if 0 < remainingPayload then payload.drop payloadSent else [])

/-- The zero-copy path: offer header and payload to `writev` and copy the rest. -/
def sendGathered (c : Connection) (frame : Frame) (answers : List KernelAnswer) : SendResult :=
  let (headerSize, header) :=
    encodeHeaderToBuffer frame (List.replicate kFrameHeaderSize 0)
  if headerSize = 0 then { ok := false, conn := c, accepted := [] }
  else
    let iov := header ++ frame.payload
    let totalToSend := headerSize + frame.payload.length
    match answers.headD .again with
    | .sent n =>
      let sent := min n totalToSend
      if sent = totalToSend then { ok := true, conn := c, accepted := iov.take sent }
      else if 0 < sent then
        { ok := true
          conn := { c with writeBuffer := c.writeBuffer ++ residue header frame.payload sent }
          accepted := iov.take sent }
      else { ok := false, conn := c.close, accepted := [] }
    | .again =>
      { ok := true
        conn := { c with writeBuffer := c.writeBuffer ++ header ++ frame.payload }
        accepted := [] }
    | .error => { ok := false, conn := c.close, accepted := [] }

/-- Send a frame. Data already waiting must leave first, so a non-empty write buffer
forces the buffered path. -/
def sendFrame (c : Connection) (frame : Frame) (answers : List KernelAnswer) : SendResult :=
  if c.closed then { ok := false, conn := c, accepted := [] }
  else if c.writeBuffer ≠ [] ∨ ¬ c.useZeroCopy then c.sendBuffered frame answers
  else c.sendGathered frame answers

/-! ### One call -/

/-- What a call may do: refuse and change nothing, close the connection, or queue the
frame behind what is already on its way. -/
inductive SendSpec (c : Connection) (frame : Frame) : SendResult → Prop where
  /-- Refused, nothing changed. -/
  | refused : SendSpec c frame { ok := false, conn := c, accepted := [] }
  /-- Failed, and the connection is closed. -/
  | failed {r} (hok : r.ok = false) (hclosed : r.conn.closed = true) : SendSpec c frame r
  /-- Queued or sent; nothing is lost and nothing is out of order. -/
  | queued {r} (hok : r.ok = true) (hclosed : r.conn.closed = c.closed)
      (hstream : r.accepted ++ r.conn.writeBuffer = c.writeBuffer ++ encode frame) :
      SendSpec c frame r

theorem sendBuffered_spec (c : Connection) (frame : Frame) (answers : List KernelAnswer) :
    SendSpec c frame (c.sendBuffered frame answers) := by
  unfold sendBuffered
  dsimp only
  split
  · exact .refused
  · split
    · next totalSent _ =>
      refine .queued rfl rfl ?_
      dsimp only
      split
      · exact List.take_append_drop _ _
      · next h =>
        obtain rfl : totalSent = 0 := by omega
        rfl
    · exact .failed rfl rfl

/-- The source's cutting arithmetic drops exactly the accepted bytes. -/
theorem residue_eq (header payload : List UInt8) (sent : ℕ) :
    residue header payload sent = (header ++ payload).drop sent := by
  unfold residue
  dsimp only
  rcases Nat.lt_or_ge sent header.length with h | h
  · -- the cut is inside the header
    rw [if_pos h, if_pos (by omega), if_neg (show ¬ header.length < sent by omega),
      List.drop_append_of_le_length h.le, show header.length - (header.length - sent) = sent by omega]
    congr 1
    split
    · exact List.drop_zero
    · exact (List.eq_nil_of_length_eq_zero (by omega)).symm
  · -- the header is out; the cut is between the two or inside the payload
    have hcut : (if header.length < sent then sent - header.length else 0) = sent - header.length := by
      split <;> omega
    rw [if_neg (show ¬ sent < header.length by omega), if_neg (lt_irrefl 0), hcut,
      List.nil_append, List.drop_append, List.drop_eq_nil_of_le h, List.nil_append]
    split
    · rfl
    · exact (List.drop_eq_nil_of_le (by omega)).symm

theorem sendGathered_spec (c : Connection) (frame : Frame) (answers : List KernelAnswer)
    (hempty : c.writeBuffer = []) : SendSpec c frame (c.sendGathered frame answers) := by
  have hheader := encodeHeaderToBuffer_of_length_eq frame
    (List.length_replicate : (List.replicate kFrameHeaderSize (0 : UInt8)).length = _)
  have hiov : headerBytes frame ++ frame.payload = encode frame := (encode_eq frame).symm
  have hlen : kFrameHeaderSize + frame.payload.length = (encode frame).length :=
    (length_encode frame).symm
  unfold sendGathered
  rw [hheader]
  dsimp only
  rw [if_neg (by decide), hiov, hlen]
  split
  · next n _ =>
    split
    · next hall =>
      refine .queued rfl rfl ?_
      rw [hall, List.take_length, hempty, List.append_nil, List.nil_append]
    · split
      -- partly accepted: what the kernel took and what is copied make up the frame
      · refine .queued rfl rfl ?_
        dsimp only
        rw [residue_eq, hempty, hiov]
        exact List.take_append_drop _ _
      · exact .failed rfl rfl
  -- nothing accepted yet: the whole frame is copied
  · refine .queued rfl rfl ?_
    rw [List.append_assoc, hiov]
    rfl
  · exact .failed rfl rfl

theorem sendFrame_spec (c : Connection) (frame : Frame) (answers : List KernelAnswer) :
    SendSpec c frame (c.sendFrame frame answers) := by
  unfold sendFrame
  split
  · exact .refused
  · split
    · exact sendBuffered_spec c frame answers
    · next h =>
      rw [not_or, not_not] at h
      exact sendGathered_spec c frame answers h.1

/-! ### Every run of calls -/

/-- A connection and all bytes the kernel has accepted from it; an input is a frame with
the kernel's answers during the call, the output its result. -/
def sender : StepMachine (Connection × List UInt8) (Frame × List KernelAnswer) Bool where
  step s call :=
    let r := s.1.sendFrame call.1 call.2
    ((r.conn, s.2 ++ r.accepted), r.ok)

/-- The frames whose `sendFrame` returned true, in call order. -/
def acceptedFrames
    (trace : List (StepMachine.Event (Connection × List UInt8) (Frame × List KernelAnswer) Bool)) :
    List Frame :=
  trace.filterMap fun e => if e.output then some e.input.1 else none

/-- **One stream.** Start with an open connection with an empty write buffer, zero copy on
or off, and let any frames be sent under any answers of the kernel. While the connection
is open, the bytes the kernel accepted followed by the write buffer are the encodings of
the frames whose `sendFrame` returned true, in call order. A call that returns false and
leaves the connection open changed nothing. -/
theorem outgoing_stream (config : Option BrokerConfig) (calls : List (Frame × List KernelAnswer)) :
    let start : Connection × List UInt8 := ({ config := config }, [])
    let trace := sender.trace start calls
    let final := sender.run start calls
    (final.1.closed = false →
      final.2 ++ final.1.writeBuffer = (acceptedFrames trace).flatMap encode) ∧
    ∀ e ∈ trace, e.output = false → (sender.step e.pre e.input).1.1.closed = false →
      (sender.step e.pre e.input).1 = e.pre := by
  refine ⟨?_, fun e he hout hopen => ?_⟩
  · refine sender.history_induction
      (P := fun h s => s.1.closed = false →
        s.2 ++ s.1.writeBuffer = (acceptedFrames h).flatMap encode) (fun _ => rfl) ?_ calls
    rintro h ⟨c, kernel⟩ ⟨frame, answers⟩ ih hopen
    have hspec := sendFrame_spec c frame answers
    simp only [acceptedFrames, List.filterMap_append, List.flatMap_append] at ih ⊢
    simp only [sender, StepMachine.event] at hopen ⊢
    generalize c.sendFrame frame answers = r at hspec hopen ⊢
    cases hspec with
    | refused => simpa using ih hopen
    | failed _ hclosed => rw [hclosed] at hopen; cases hopen
    | queued hok hclosed hstream =>
      rw [hclosed] at hopen
      rw [List.append_assoc, hstream, ← List.append_assoc, ih hopen]
      simp [hok]
  · rw [sender.output_of_mem_trace he] at hout
    obtain ⟨⟨c, kernel⟩, ⟨frame, answers⟩, _⟩ := e
    have hspec := sendFrame_spec c frame answers
    simp only [sender] at hout hopen ⊢
    generalize c.sendFrame frame answers = r at hspec hout hopen ⊢
    cases hspec with
    | refused => simp
    | failed _ hclosed => rw [hclosed] at hopen; cases hopen
    | queued hok _ _ => rw [hok] at hout; cases hout

end Connection

end ProtoMsgQueue
