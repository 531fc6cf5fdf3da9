import ProtoMsgQueue.Network.LockSafety
import ProtoMsgQueue.Protocol.Resync

/-!
# Incoming frames of a connection

The reading side of a connection without its locks: `OnRead` collects what `recv` returns until
it would block, gives it to the decoder and dispatches the frames. A close by the peer, or an
error, ends the call at once, with what the call has collected still in the read buffer.
`dispatched_iff` says when that loses frames, and `receiver_onRead` that the computation
with locks reads the same.
-/

namespace ProtoMsgQueue

open StreamingFrameCodec

/-- A connection as its reads see it. -/
structure Receiver where
  /-- Has the connection been closed? -/
  closed : Bool := false
  /-- The receiving side. -/
  reader : Reader := {}

namespace Receiver

/-- The loop around `recv`: the bytes it appends to the read buffer, and whether it ends because
the next call would block. A system call past the listed answers gets `EAGAIN`. -/
def recvLoop : List RecvAnswer → List UInt8 × Bool
  | [] => ([], true)
  | .received bytes :: answers =>
    -- no bytes: the peer has closed the connection
    if bytes = [] then ([], false) else (bytes ++ (recvLoop answers).1, (recvLoop answers).2)
  | .again :: _ => ([], true)
  | .error :: _ => ([], false)

/-- `OnRead`: the connection after it, and the frames it gives to the frame handler. -/
def onRead (c : Receiver) (answers : List RecvAnswer) : Receiver × List Frame :=
  if c.closed then (c, [])
  else
    let (bytes, goesOn) := recvLoop answers
    let readBuffer := c.reader.readBuffer ++ bytes
    if goesOn then
      let (frames, streamingCodec) := (c.reader.streamingCodec.appendData readBuffer).parseAll
      ({ c with reader := { readBuffer := [], streamingCodec := streamingCodec } }, frames)
    else ({ closed := true, reader := { c.reader with readBuffer := readBuffer } }, [])

/-- A call on the connection. -/
inductive Call where
  /-- `OnRead`, with the answers of the kernel. -/
  | onRead (answers : List RecvAnswer)
  /-- `Close`, by the server or the frame handler. -/
  | close

/-- The reading side as a machine. It shows the frames that are dispatched. -/
def receiver : StepMachine Receiver Call (List Frame) where
  step c
    | .onRead answers => c.onRead answers
    | .close => ({ c with closed := true }, [])

/-- A recorded call. -/
abbrev Event := StepMachine.Event Receiver Call (List Frame)

/-- The frames that were dispatched. -/
def dispatched (h : List Event) : List Frame := h.flatMap fun e => e.output

/-- The bytes that a call receives. -/
def receivedBy (e : Event) : List UInt8 :=
  match e.input with
  | .onRead answers => if e.pre.closed then [] else (recvLoop answers).1
  | .close => []

/-- The bytes that were received. -/
def received (h : List Event) : List UInt8 := h.flatMap receivedBy

/-- If the call finds the connection closed by the peer, or an error, the bytes that it received
before complete no frame. -/
def ClosesQuietly (e : Event) : Prop :=
  match e.input with
  | .onRead answers =>
    e.pre.closed = true ∨ (recvLoop answers).2 = true ∨
      (e.pre.reader.streamingCodec.appendData (recvLoop answers).1).tryParseFrame.1 = none
  | .close => True

instance (e : Event) : Decidable (ClosesQuietly e) := by
  unfold ClosesQuietly
  cases e.input <;> infer_instance

theorem dispatched_concat (h : List Event) (e : Event) :
    dispatched (h ++ [e]) = dispatched h ++ e.output := by
  simp [dispatched]

theorem received_concat (h : List Event) (e : Event) :
    received (h ++ [e]) = received h ++ receivedBy e := by
  simp [received]

/-! ### The invariant -/

/-- The bytes left in the read buffer complete no frame. -/
def Quiet (c : Receiver) : Prop :=
  (c.reader.streamingCodec.appendData c.reader.readBuffer).tryParseFrame.1 = none

/-- What was dispatched are the frames of the bytes given to the decoder: all that were
received but those that are left in the read buffer. -/
structure Consistent (h : List Event) (c : Receiver) : Prop where
  parsed : ∃ fed, received h = fed ++ c.reader.readBuffer ∧
    (appendData {} fed).parseAll = (dispatched h, c.reader.streamingCodec)
  readBuffer_eq : c.closed = false → c.reader.readBuffer = []

theorem consistent_init : Consistent [] {} where
  parsed := ⟨[], rfl, parser.drain_of_none (tryParseFrame_of_no_magic rfl rfl)⟩
  readBuffer_eq _ := rfl

variable {h : List Event} {c : Receiver}

/-- As long as the connection is open, nothing is left. -/
theorem Consistent.quiet (hc : Consistent h c) (hopen : c.closed = false) : c.Quiet := by
  obtain ⟨fed, -, hparse⟩ := hc.parsed
  have hdrained := parser.poll_drain (appendData {} fed)
  change (tryParseFrame (appendData {} fed).parseAll.2).1 = none at hdrained
  rw [hparse] at hdrained
  rw [Quiet, hc.readBuffer_eq hopen, appendData_eq, List.append_nil]
  exact hdrained

/-- The decoder may be drained in between. -/
theorem parseAll_appendData_append (fed bytes : List UInt8) :
    (appendData {} (fed ++ bytes)).parseAll =
      ((appendData {} fed).parseAll.1 ++ ((appendData {} fed).parseAll.2.appendData bytes).parseAll.1,
        ((appendData {} fed).parseAll.2.appendData bytes).parseAll.2) := by
  have hfeed : appendData {} (fed ++ bytes) = appendData (appendData {} fed) bytes :=
    (parser.feed_feed {} fed bytes).symm
  rw [hfeed]
  exact parser.drain_feed (appendData {} fed) bytes

/-- The frames that are missing are those that the bytes left in the read buffer complete. -/
theorem Consistent.dispatched_eq_iff (hc : Consistent h c) :
    dispatched h = (appendData {} (received h)).parseAll.1 ↔ c.Quiet := by
  obtain ⟨fed, hreceived, hparse⟩ := hc.parsed
  have hnil := parser.drain_fst_eq_nil_iff
    (c.reader.streamingCodec.appendData c.reader.readBuffer)
  rw [hreceived, parseAll_appendData_append, hparse, List.self_eq_append_right]
  exact hnil

/-! ### One call -/

/-- A call that ends because nothing more is there gives all to the decoder. -/
theorem onRead_of_goesOn (hopen : c.closed = false) (hempty : c.reader.readBuffer = [])
    {answers : List RecvAnswer} (hgoes : (recvLoop answers).2 = true) :
    c.onRead answers =
      ({ reader :=
          { streamingCodec :=
              (c.reader.streamingCodec.appendData (recvLoop answers).1).parseAll.2 } },
        (c.reader.streamingCodec.appendData (recvLoop answers).1).parseAll.1) := by
  simp [onRead, hopen, hempty, hgoes]

/-- A call that ends with a close gives nothing to it. -/
theorem onRead_of_closes (hopen : c.closed = false) (hempty : c.reader.readBuffer = [])
    {answers : List RecvAnswer} (hcloses : (recvLoop answers).2 = false) :
    c.onRead answers =
      ({ closed := true, reader := { c.reader with readBuffer := (recvLoop answers).1 } }, []) := by
  simp [onRead, hopen, hempty, hcloses]

theorem receivedBy_onRead (hopen : c.closed = false) (answers : List RecvAnswer) :
    receivedBy (receiver.event c (.onRead answers)) = (recvLoop answers).1 := by
  rw [receivedBy, StepMachine.event_input, StepMachine.event_pre]
  exact if_neg (by rw [hopen]; exact Bool.false_ne_true)

/-- A call on a closed connection does nothing. -/
theorem onRead_of_closed (hclosed : c.closed = true) (answers : List RecvAnswer) :
    c.onRead answers = (c, []) :=
  if_pos hclosed

/-- Every call keeps the invariant. -/
theorem Consistent.step (hc : Consistent h c) (call : Call) :
    Consistent (h ++ [receiver.event c call]) (receiver.step c call).1 := by
  obtain ⟨fed, hreceived, hparse⟩ := hc.parsed
  cases call with
  | close =>
    refine ⟨⟨fed, ?_, ?_⟩, nofun⟩
    · rw [received_concat, hreceived]
      exact List.append_nil _
    · rw [dispatched_concat, hparse]
      exact congrArg (Prod.mk · _) (List.append_nil _).symm
  | onRead answers =>
    have hout : (receiver.event c (.onRead answers)).output = (c.onRead answers).2 := rfl
    change Consistent _ (c.onRead answers).1
    cases hclosed : c.closed with
    | true =>
      have hbytes : receivedBy (receiver.event c (.onRead answers)) = [] := if_pos hclosed
      rw [onRead_of_closed hclosed] at hout ⊢
      refine ⟨⟨fed, ?_, ?_⟩, hc.readBuffer_eq⟩
      · rw [received_concat, hbytes, List.append_nil, hreceived]
      · rw [dispatched_concat, hout, List.append_nil, hparse]
    | false =>
      have hempty := hc.readBuffer_eq hclosed
      have hbytes := receivedBy_onRead hclosed answers
      rw [hempty, List.append_nil] at hreceived
      cases hgoes : (recvLoop answers).2 with
      | true =>
        -- the decoder gets what was received
        rw [onRead_of_goesOn hclosed hempty hgoes] at hout ⊢
        refine ⟨⟨fed ++ (recvLoop answers).1, ?_, ?_⟩, fun _ => rfl⟩
        · rw [received_concat, hreceived, hbytes, List.append_nil]
        · rw [parseAll_appendData_append, hparse, dispatched_concat, hout]
      | false =>
        -- what was received stays in the read buffer
        rw [onRead_of_closes hclosed hempty hgoes] at hout ⊢
        refine ⟨⟨fed, ?_, ?_⟩, nofun⟩
        · rw [received_concat, hreceived, hbytes]
        · rw [dispatched_concat, hout, List.append_nil, hparse]

/-- A call leaves bytes that complete a frame exactly if it finds the connection closed and had
received such bytes before. -/
theorem Consistent.quiet_step_iff (hc : Consistent h c) (call : Call) :
    (receiver.step c call).1.Quiet ↔ c.Quiet ∧ ClosesQuietly (receiver.event c call) := by
  cases call with
  | close => exact (and_iff_left trivial).symm
  | onRead answers =>
    change (c.onRead answers).1.Quiet ↔ _ ∧ (c.closed = true ∨ _)
    cases hclosed : c.closed with
    | true =>
      rw [onRead_of_closed hclosed]
      exact (and_iff_left (Or.inl rfl)).symm
    | false =>
      have hempty := hc.readBuffer_eq hclosed
      rw [and_iff_right (hc.quiet hclosed), or_iff_right Bool.false_ne_true]
      cases hgoes : (recvLoop answers).2 with
      | true =>
        have hnext := (hc.step (.onRead answers)).quiet
        have hstep : (receiver.step c (.onRead answers)).1 = (c.onRead answers).1 := rfl
        rw [hstep, onRead_of_goesOn hclosed hempty hgoes] at hnext
        rw [onRead_of_goesOn hclosed hempty hgoes]
        exact iff_of_true (hnext rfl) (Or.inl rfl)
      | false =>
        rw [onRead_of_closes hclosed hempty hgoes, or_iff_right Bool.false_ne_true]
        rfl

theorem consistent_run (calls : List Call) :
    Consistent (receiver.trace {} calls) (receiver.run {} calls) :=
  receiver.history_induction consistent_init (fun _ _ call hc => hc.step call) calls

/-- **No frame is lost**, exactly if the close comes alone. Over the life of a connection the
frames that are dispatched are those that a fresh decoder yields on all bytes received, iff no
call that found the connection closed had received bytes before that complete a frame. -/
theorem dispatched_iff (calls : List Call) :
    dispatched (receiver.trace {} calls) =
        (appendData {} (received (receiver.trace {} calls))).parseAll.1 ↔
      receiver.Along (fun _ e => ClosesQuietly e) {} calls := by
  rw [(consistent_run calls).dispatched_eq_iff]
  induction calls using List.reverseRecOn with
  | nil => exact iff_of_true (consistent_init.quiet rfl) (receiver.along_nil _ _)
  | append_singleton calls call ih =>
    rw [StepMachine.run_concat, StepMachine.along_concat]
    exact ((consistent_run calls).quiet_step_iff call).trans (and_congr_left' ih)

/-- A heartbeat and the close behind it, seen by one call. -/
theorem not_dispatched_with_close :
    dispatched (receiver.trace {}
        [.onRead [.received (FrameCodec.encode { msgType := .ping }), .received []]]) ≠
      (appendData {} (received (receiver.trace {}
        [.onRead [.received (FrameCodec.encode { msgType := .ping }), .received []]]))).parseAll.1 := by
  rw [Ne, (consistent_run _).dispatched_eq_iff]
  intro hquiet
  have hparse := tryParseFrame_encode (f := { msgType := .ping }) (by decide) []
  have hbytes : (appendData {} (FrameCodec.encode { msgType := .ping })).tryParseFrame.1 = none :=
    hquiet
  rw [appendData_eq] at hbytes
  rw [List.append_nil] at hparse
  change (waiting (FrameCodec.encode { msgType := .ping })).tryParseFrame.1 = none at hbytes
  rw [hparse] at hbytes
  cases hbytes

end Receiver

/-! ### The computation with locks -/

namespace TcpServer

open LockM

/-- A connection of the server as its reads see it. -/
def receiver (id : ConnectionId) (st : TcpServer) : Receiver := ⟨(st.conns id).closed, st.readers id⟩

/-- Closing an open connection, for its reads. -/
theorem ends_close_receiver {id : ConnectionId} {st : TcpServer}
    (hopen : (st.conns id).closed = false) :
    ∃ st', Ends (close id) [] st () st' ∧ st'.receiver id = ⟨true, st.readers id⟩ := by
  refine ⟨(st.setConn id (st.conns id).close).eraseConnection id, Ends.bind (ends_look _ _ _) ?_, ?_⟩
  · rw [if_neg (by rw [hopen]; exact Bool.false_ne_true)]
    exact Ends.bind (ends_update _ _ _) (Ends.withLock List.not_mem_nil (ends_update _ _ _))
  · simp [receiver, setConn, eraseConnection, Connection.close]

/-- The loop around `recv` collects the same bytes. -/
theorem ends_recvLoop_receiver {id : ConnectionId} {st : TcpServer} (answers : List RecvAnswer)
    (hopen : (st.conns id).closed = false) :
    ∃ st', Ends (recvLoop id answers) [] st (Receiver.recvLoop answers).2 st' ∧
      st'.receiver id =
        { closed := !(Receiver.recvLoop answers).2
          reader :=
            { st.readers id with
              readBuffer := (st.readers id).readBuffer ++ (Receiver.recvLoop answers).1 } } := by
  induction answers generalizing st with
  | nil => exact ⟨st, ends_pure _ _ _, by simp [receiver, Receiver.recvLoop, hopen]⟩
  | cons answer answers ih =>
    obtain ⟨stClosed, hclose, hreader⟩ := ends_close_receiver hopen
    cases answer with
    | received bytes =>
      by_cases hbytes : bytes = []
      · refine ⟨stClosed, ?_, ?_⟩
        · rw [recvLoop, Receiver.recvLoop, if_pos hbytes, if_pos hbytes]
          exact Ends.bind hclose (ends_pure _ _ _)
        · simp [Receiver.recvLoop, hbytes, hreader]
      · have hopen' : ((receive id bytes st).conns id).closed = false := hopen
        obtain ⟨st', hloop, hst'⟩ := ih hopen'
        refine ⟨st', ?_, ?_⟩
        · rw [recvLoop, Receiver.recvLoop, if_neg hbytes, if_neg hbytes]
          exact Ends.bind (Ends.withLock List.not_mem_nil (ends_update _ _ _)) hloop
        · rw [hst']
          simp [Receiver.recvLoop, hbytes, receive, setReader]
    | again => exact ⟨st, ends_pure _ _ _, by simp [receiver, Receiver.recvLoop, hopen]⟩
    | error =>
      exact ⟨stClosed, Ends.bind hclose (ends_pure _ _ _), by simp [Receiver.recvLoop, hreader]⟩

/-- **Reading.** Up to the calls of the frame handler, `OnRead` leaves the connection and finds
the frames as the reads alone do. -/
theorem receiver_onRead {id : ConnectionId} {st : TcpServer} (answers : List RecvAnswer)
    (hopen : (st.conns id).closed = false) :
    ∃ st', Ends (recvLoop id answers) [] st (Receiver.recvLoop answers).2 st' ∧
      (st.receiver id).onRead answers =
        if (Receiver.recvLoop answers).2 then ((st'.feed id).receiver id, st'.feedFrames id)
        else (st'.receiver id, []) := by
  obtain ⟨st', hloop, hst'⟩ := ends_recvLoop_receiver answers hopen
  refine ⟨st', hloop, ?_⟩
  obtain ⟨hclosed, hreader⟩ := Receiver.mk.inj hst'
  cases hgoes : (Receiver.recvLoop answers).2 <;>
    simp [Receiver.onRead, receiver, feed, feedFrames, setReader, hopen, hclosed, hreader, hgoes]

end TcpServer

end ProtoMsgQueue
