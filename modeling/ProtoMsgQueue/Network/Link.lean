import ProtoMsgQueue.Network.Receiving

/-!
# From one connection to the other

The two ends of a TCP connection, in one direction: `SendFrame` at one end, `OnRead` at the
other, and between them the bytes that the sender's kernel has taken and the receiver has not
read. How many bytes a `send` takes, how they are cut into the answers of `recv`, when either
end is closed and when an error cuts the connection are inputs.

`fifo` says that this is a queue of frames: what has been dispatched at one end are the first
of the frames that `SendFrame` accepted at the other, none lost in between, doubled or out of
order, and while both ends are open the frames that the bytes under way decode to are exactly
those that are missing.
-/

namespace ProtoMsgQueue

open FrameCodec StreamingFrameCodec

/-- The size of the buffer that `OnRead` gives to `recv`. -/
def kRecvBufferSize : ℕ := 4096

/-- What the network does when `OnRead` calls `recv`. -/
inductive RecvChoice where
  /-- Up to `n` of the bytes under way have arrived, at least one. Without any, the close of a
  sender that is closed has. -/
  | arrived (n : ℕ)
  /-- Nothing has arrived. -/
  | again
  /-- The connection is reset. -/
  | error
deriving DecidableEq, Repr

/-- Two connections, from the first to the second. -/
structure Link where
  /-- The connection at the one end. -/
  sender : Connection
  /-- The bytes under way. -/
  wire : List UInt8 := []
  /-- The connection at the other end. -/
  receiver : Receiver := {}

/-- A call at one of the ends. -/
inductive LinkOp where
  /-- `SendFrame`, with the answers of the kernel. -/
  | sendFrame (frame : Frame) (answers : List KernelAnswer)
  /-- `Close` of the sender. -/
  | closeSender
  /-- `OnRead`. -/
  | onRead (choices : List RecvChoice)
  /-- `Close` of the receiver. -/
  | closeReceiver

/-- Does a frame not fit behind the bytes that wait? `SendFrame` refuses it then. -/
def Connection.overflows (c : Connection) (frame : Frame) : Bool :=
  !c.closed && (c.writeBuffer ≠ [] ∨ ¬c.useZeroCopy) &&
    c.maxWriteBuffer < c.writeBuffer.length + (encode frame).length

/-- What a call shows. -/
structure LinkResult where
  /-- The result of `SendFrame`. -/
  accepted : Bool := false
  /-- The frames given to the frame handler. -/
  frames : List Frame := []

namespace Link

/-- The answers of `recv` to one `OnRead`, and the bytes that are still under way. -/
def recvAnswers (senderClosed : Bool) : List UInt8 → List RecvChoice → List RecvAnswer × List UInt8
  | wire, [] => ([], wire)
  | wire, .again :: _ => ([.again], wire)
  | wire, .error :: _ => ([.error], wire)
  | wire, .arrived n :: choices =>
    if wire = [] then ([if senderClosed then .received [] else .again], [])
    else
      let count := max 1 (min n kRecvBufferSize)
      let (answers, rest) := recvAnswers senderClosed (wire.drop count) choices
      (.received (wire.take count) :: answers, rest)

variable (l : Link)

/-- A new connection. -/
def ofConfig (config : Option BrokerConfig) : Link where
  sender := { config := config }

/-- `SendFrame` at the one end. -/
def sendFrame (frame : Frame) (answers : List KernelAnswer) : Link × Bool :=
  let r := l.sender.sendFrame frame answers
  ({ l with sender := r.conn, wire := l.wire ++ r.accepted }, r.ok)

/-- `OnRead` at the other. -/
def onRead (choices : List RecvChoice) : Link × List Frame :=
  if l.receiver.closed then (l, [])
  else
    let (answers, wire) := recvAnswers l.sender.closed l.wire choices
    let (receiver, frames) := l.receiver.onRead answers
    ({ l with wire := wire, receiver := receiver }, frames)

/-- The frames that the bytes under way decode to, those in the write buffer included. -/
def inFlight : List Frame :=
  (l.receiver.reader.streamingCodec.appendData (l.wire ++ l.sender.writeBuffer)).parseAll.1

/-- The two ends as a machine. -/
def link : StepMachine Link LinkOp LinkResult where
  step l
    | .sendFrame frame answers =>
      let (l, ok) := l.sendFrame frame answers
      (l, { accepted := ok })
    | .closeSender => ({ l with sender := l.sender.close }, {})
    | .onRead choices =>
      let (l, frames) := l.onRead choices
      (l, { frames := frames })
    | .closeReceiver => ({ l with receiver := { l.receiver with closed := true } }, {})

/-- A recorded call. -/
abbrev Event := StepMachine.Event Link LinkOp LinkResult

/-- The frame that a call accepts, if any. -/
def sentFrame? (e : Event) : Option Frame :=
  match e.input with
  | .sendFrame frame _ => if e.output.accepted then some frame else none
  | _ => none

/-- The frames that `SendFrame` accepted. -/
def sentFrames (h : List Event) : List Frame := h.filterMap sentFrame?

/-- The frames that were given to the frame handler. -/
def delivered (h : List Event) : List Frame := h.flatMap fun e => e.output.frames

theorem sentFrames_concat (h : List Event) (e : Event) :
    sentFrames (h ++ [e]) = sentFrames h ++ (sentFrame? e).toList := by
  rw [sentFrames, sentFrames, List.filterMap_append]
  cases hsent : sentFrame? e <;> simp [hsent]

theorem delivered_concat (h : List Event) (e : Event) :
    delivered (h ++ [e]) = delivered h ++ e.output.frames := by
  simp [delivered]

/-! ### The bytes of the sender -/

/-- What the kernel has taken is the beginning of the encodings of the accepted frames, or it
ends inside the frame behind them, and then that is the last. While the sender is open, the rest
is in its write buffer. -/
structure Taken (sent : List Frame) (taken : List UInt8) (c : Connection) : Prop where
  exists_rest : ∃ fs rest, taken ++ rest = fs.flatMap encode ∧
    (fs = sent ∨ ∃ f, fs = sent ++ [f] ∧ StreamingFrameCodec.Encodable f ∧ rest ≠ [])
  of_open : c.closed = false → taken ++ c.writeBuffer = sent.flatMap encode

theorem Taken.of_eq {sent : List Frame} {taken : List UInt8} {c : Connection}
    (h : taken ++ c.writeBuffer = sent.flatMap encode) : Taken sent taken c :=
  ⟨⟨sent, c.writeBuffer, h, Or.inl rfl⟩, fun _ => h⟩

/-- A loop that fails has not sent everything. -/
theorem sendLoop_lt {data : List UInt8} {answers : List KernelAnswer} {sent totalSent : ℕ}
    (h : Connection.sendLoop data sent answers = (totalSent, false)) : totalSent < data.length := by
  induction answers generalizing sent with
  | nil => cases h
  | cons answer answers ih =>
    unfold Connection.sendLoop at h
    split at h
    · next hlt =>
      cases answer with
      | sent n =>
        dsimp only at h
        split at h
        · exact ih h
        · obtain ⟨rfl, -⟩ := Prod.mk.inj h
          exact hlt
      | again => cases h
      | error =>
        obtain ⟨rfl, -⟩ := Prod.mk.inj h
        exact hlt
    · cases h

/-- A call that fails leaves a part of its frame unsent. -/
theorem accepted_of_failed {c : Connection} {frame : Frame} {answers : List KernelAnswer}
    (h : (c.sendFrame frame answers).ok = false) :
    ∃ rest ≠ [], (c.sendFrame frame answers).accepted ++ rest = c.writeBuffer ++ encode frame := by
  have hne : c.writeBuffer ++ encode frame ≠ [] := by
    rw [← List.length_pos_iff, List.length_append, length_encode]
    exact Nat.lt_add_left _ (Nat.lt_add_right _ (by decide))
  have hnone : ([] : List UInt8) ++ (c.writeBuffer ++ encode frame) =
      c.writeBuffer ++ encode frame :=
    rfl
  unfold Connection.sendFrame at h ⊢
  split
  · exact ⟨_, hne, hnone⟩
  next hopen =>
  rw [if_neg hopen] at h
  split
  · next hpath =>
    rw [if_pos hpath] at h
    unfold Connection.sendBuffered at h ⊢
    dsimp only at h ⊢
    split
    · exact ⟨_, hne, hnone⟩
    · next hroom =>
      rw [if_neg hroom] at h
      split
      · next hloop => rw [hloop] at h; cases h
      · next totalSent hloop =>
        refine ⟨_, ?_, List.take_append_drop totalSent _⟩
        exact List.ne_nil_of_length_pos (by rw [List.length_drop]; have := sendLoop_lt hloop; omega)
  · next hpath =>
    rw [if_neg hpath] at h
    have hheader := encodeHeaderToBuffer_of_length_eq frame
      (List.length_replicate : (List.replicate kFrameHeaderSize (0 : UInt8)).length = _)
    unfold Connection.sendGathered at h ⊢
    rw [hheader] at h ⊢
    dsimp only at h ⊢
    rw [if_neg (by decide)] at h ⊢
    split
    · next n hanswer =>
      rw [hanswer] at h
      dsimp only at h
      split at h
      · cases h
      · next hpart =>
        rw [if_neg hpart]
        split at h
        · cases h
        · next hzero => rw [if_neg hzero]; exact ⟨_, hne, hnone⟩
    · next hanswer => rw [hanswer] at h; cases h
    · exact ⟨_, hne, hnone⟩

/-- A closed connection takes nothing. -/
theorem sendFrame_of_closed {c : Connection} (hclosed : c.closed = true) (frame : Frame)
    (answers : List KernelAnswer) :
    c.sendFrame frame answers = { ok := false, conn := c, accepted := [] } :=
  if_pos hclosed

/-- Every call keeps the beginning. -/
theorem Taken.sendFrame {sent : List Frame} {taken : List UInt8} {c : Connection}
    (h : Taken sent taken c) {frame : Frame} (hframe : StreamingFrameCodec.Encodable frame)
    (answers : List KernelAnswer) :
    let r := c.sendFrame frame answers
    Taken (sent ++ if r.ok then [frame] else []) (taken ++ r.accepted) r.conn := by
  intro r
  cases hclosed : c.closed with
  | true =>
    have hr : r = { ok := false, conn := c, accepted := [] } := sendFrame_of_closed hclosed _ _
    rw [hr, List.append_nil]
    exact (List.append_nil sent).symm ▸ h
  | false =>
    have hstream := h.of_open hclosed
    have hspec : Connection.SendSpec c frame r := Connection.sendFrame_spec c frame answers
    have hfailed : r.ok = false → ∃ rest ≠ [], r.accepted ++ rest = c.writeBuffer ++ encode frame :=
      accepted_of_failed
    clear_value r
    cases hspec with
    | refused =>
      rw [List.append_nil]
      exact (List.append_nil sent).symm ▸ h
    | failed hok hconn =>
      obtain ⟨rest, hrest, haccepted⟩ := hfailed hok
      rw [hok, if_neg Bool.false_ne_true, List.append_nil]
      refine ⟨⟨sent ++ [frame], rest, ?_, Or.inr ⟨frame, rfl, hframe, hrest⟩⟩, fun hopen => ?_⟩
      · rw [List.append_assoc, haccepted, ← List.append_assoc, hstream, List.flatMap_append,
          List.flatMap_singleton]
      · rw [hconn] at hopen
        cases hopen
    | queued hok _ hqueued =>
      rw [hok, if_pos rfl]
      refine Taken.of_eq ?_
      rw [List.append_assoc, hqueued, ← List.append_assoc, hstream, List.flatMap_append,
        List.flatMap_singleton]

theorem Taken.close {sent : List Frame} {taken : List UInt8} {c : Connection}
    (h : Taken sent taken c) : Taken sent taken c.close :=
  ⟨h.exists_rest, nofun⟩

/-! ### The bytes under way -/

/-- What the answers give to the read buffer and what is still under way make up what was. -/
theorem recvLoop_recvAnswers (senderClosed : Bool) (wire : List UInt8) (choices : List RecvChoice) :
    (Receiver.recvLoop (recvAnswers senderClosed wire choices).1).1 ++
      (recvAnswers senderClosed wire choices).2 = wire := by
  induction choices generalizing wire with
  | nil => rfl
  | cons choice choices ih =>
    cases choice with
    | again => rfl
    | error => rfl
    | arrived n =>
      rw [recvAnswers]
      split
      · next hwire =>
        cases senderClosed <;> exact hwire.symm
      · next hwire =>
        have hchunk : wire.take (max 1 (min n kRecvBufferSize)) ≠ [] := by
          rw [Ne, List.take_eq_nil_iff, not_or]
          exact ⟨by omega, hwire⟩
        dsimp only
        rw [Receiver.recvLoop, if_neg hchunk, List.append_assoc, ih, List.take_append_drop]

/-- The state of the two ends after the calls `h`: what the kernel of the sender has taken was
received or is under way. -/
structure Consistent (h : List Event) (l : Link) : Prop where
  exists_calls : ∃ calls taken, Taken (sentFrames h) taken l.sender ∧
    Receiver.Consistent calls l.receiver ∧ Receiver.dispatched calls = delivered h ∧
    taken = Receiver.received calls ++ l.wire

theorem consistent_ofConfig (config : Option BrokerConfig) : Consistent [] (ofConfig config) :=
  ⟨[], [], Taken.of_eq rfl, Receiver.consistent_init, rfl, rfl⟩

variable {h : List Event} {l : Link}

/-- Every call keeps the invariant. -/
theorem Consistent.step (hl : Consistent h l) {op : LinkOp}
    (hop : ∀ frame answers, op = .sendFrame frame answers → StreamingFrameCodec.Encodable frame) :
    Consistent (h ++ [link.event l op]) (link.step l op).1 := by
  obtain ⟨calls, taken, htaken, hcalls, hdelivered, hwire⟩ := hl.exists_calls
  cases op with
  | sendFrame frame answers =>
    refine ⟨calls, taken ++ (l.sender.sendFrame frame answers).accepted, ?_, hcalls, ?_, ?_⟩
    · have hsent : (sentFrame? (link.event l (.sendFrame frame answers))).toList =
          if (l.sender.sendFrame frame answers).ok then [frame] else [] := by
        change (if (l.sender.sendFrame frame answers).ok then some frame else none).toList = _
        split <;> rfl
      rw [sentFrames_concat, hsent]
      exact htaken.sendFrame (hop frame answers rfl) answers
    · rw [delivered_concat, hdelivered]
      exact (List.append_nil _).symm
    · rw [hwire, List.append_assoc]
      rfl
  | closeSender =>
    refine ⟨calls, taken, ?_, hcalls, ?_, hwire⟩
    · rw [sentFrames_concat]
      exact (List.append_nil (sentFrames h)).symm ▸ htaken.close
    · rw [delivered_concat, hdelivered]
      exact (List.append_nil _).symm
  | closeReceiver =>
    refine ⟨calls ++ [Receiver.receiver.event l.receiver .close], taken, ?_, hcalls.step .close, ?_,
      ?_⟩
    · rw [sentFrames_concat]
      exact (List.append_nil (sentFrames h)).symm ▸ htaken
    · rw [Receiver.dispatched_concat, delivered_concat, hdelivered]
      rfl
    · rw [Receiver.received_concat, hwire]
      exact congrArg (· ++ l.wire) (List.append_nil _).symm
  | onRead choices =>
    have hsent : sentFrames (h ++ [link.event l (.onRead choices)]) = sentFrames h := by
      rw [sentFrames_concat]
      exact List.append_nil _
    have hout : (link.event l (.onRead choices)).output.frames = (l.onRead choices).2 := rfl
    change Consistent _ (l.onRead choices).1
    cases hclosed : l.receiver.closed with
    | true =>
      have hread : l.onRead choices = (l, []) := if_pos hclosed
      rw [hread] at hout ⊢
      refine ⟨calls, taken, hsent ▸ htaken, hcalls, ?_, hwire⟩
      rw [delivered_concat, hout, List.append_nil, hdelivered]
    | false =>
      let answers := (recvAnswers l.sender.closed l.wire choices).1
      have hread : l.onRead choices =
          ({ l with
              wire := (recvAnswers l.sender.closed l.wire choices).2
              receiver := (l.receiver.onRead answers).1 },
            (l.receiver.onRead answers).2) :=
        if_neg (by rw [hclosed]; exact Bool.false_ne_true)
      rw [hread] at hout ⊢
      refine ⟨calls ++ [Receiver.receiver.event l.receiver (.onRead answers)], taken,
        hsent ▸ htaken, hcalls.step (.onRead answers), ?_, ?_⟩
      · rw [Receiver.dispatched_concat, delivered_concat, hout, hdelivered]
        rfl
      · rw [Receiver.received_concat, Receiver.receivedBy_onRead hclosed, List.append_assoc,
          recvLoop_recvAnswers, hwire]

theorem consistent_run (config : Option BrokerConfig) {ops : List LinkOp}
    (hops : ∀ frame answers, .sendFrame frame answers ∈ ops → StreamingFrameCodec.Encodable frame) :
    Consistent (link.trace (ofConfig config) ops) (link.run (ofConfig config) ops) := by
  induction ops using List.reverseRecOn with
  | nil => exact consistent_ofConfig config
  | append_singleton ops op ih =>
    rw [StepMachine.trace_concat, StepMachine.run_concat]
    refine (ih fun frame answers hmem => hops frame answers (List.mem_append_left _ hmem)).step ?_
    rintro frame answers rfl
    exact hops frame answers (List.mem_append_right _ List.mem_cons_self)

/-! ### A queue of frames -/

/-- What a cut stream of frames decodes to is the beginning of the accepted frames. -/
theorem Consistent.delivered_isPrefix (hl : Consistent h l)
    (hsent : ∀ f ∈ sentFrames h, StreamingFrameCodec.Encodable f) :
    delivered h <+: (sentFrames h).map withLength := by
  obtain ⟨calls, taken, htaken, hcalls, hdelivered, hwire⟩ := hl.exists_calls
  obtain ⟨fs, rest, hrest, hfs⟩ := htaken.exists_rest
  obtain ⟨fed, hreceived, hparse⟩ := hcalls.parsed
  have hfsEncodable : ∀ f ∈ fs, StreamingFrameCodec.Encodable f := by
    rcases hfs with rfl | ⟨f, rfl, hf, -⟩
    · exact hsent
    · intro f' hf'
      rcases List.mem_append.mp hf' with hf' | hf'
      · exact hsent f' hf'
      · rwa [List.mem_singleton.mp hf']
  have hfed : fed ++ (l.receiver.reader.readBuffer ++ (l.wire ++ rest)) = fs.flatMap encode := by
    rw [← hrest, hwire, hreceived, List.append_assoc, List.append_assoc]
  obtain ⟨fs₁, fs₂, part, hsplit, hpart, hcut⟩ := exists_cut fs hfed
  have hnone : (waiting part).tryParseFrame.1 = none := by
    rcases hcut with rfl | ⟨f, hf, rest', hrest', hencode⟩
    · exact congrArg Prod.fst (tryParseFrame_of_no_magic rfl rfl)
    · exact tryParseFrame_of_cut
        (hfsEncodable f (hsplit ▸ List.mem_append_right _ hf)) hencode hrest'
  have hfirst : delivered h = fs₁.map withLength := by
    have hdispatched : (appendData {} fed).parseAll.1 = Receiver.dispatched calls :=
      congrArg Prod.fst hparse
    rw [← hdelivered, ← hdispatched, hpart]
    exact parseAll_cut (fun f hf => hfsEncodable f (hsplit ▸ List.mem_append_left _ hf)) hnone
  rw [hfirst]
  refine List.IsPrefix.map _ ?_
  rcases hfs with rfl | ⟨f, rfl, -, hne⟩
  · exact ⟨fs₂, hsplit.symm⟩
  · -- the last frame has not been taken as a whole
    rcases List.eq_nil_or_concat fs₂ with rfl | ⟨fs₂', f', rfl⟩
    · exfalso
      rcases hcut with rfl | ⟨f, hf, -⟩
      · rw [List.append_nil] at hsplit hpart
        rw [hpart, ← hsplit, List.append_right_eq_self] at hfed
        exact hne (List.append_eq_nil_iff.mp (List.append_eq_nil_iff.mp hfed).2).2
      · cases hf
    · rw [List.concat_eq_append, ← List.append_assoc] at hsplit
      exact ⟨fs₂', (List.append_inj' hsplit rfl).1.symm⟩

/-- While both ends are open, nothing is missing but the frames under way. -/
theorem Consistent.delivered_inFlight (hl : Consistent h l)
    (hsent : ∀ f ∈ sentFrames h, StreamingFrameCodec.Encodable f)
    (hsender : l.sender.closed = false) (hreceiver : l.receiver.closed = false) :
    delivered h ++ l.inFlight = (sentFrames h).map withLength := by
  obtain ⟨calls, taken, htaken, hcalls, hdelivered, hwire⟩ := hl.exists_calls
  obtain ⟨fed, hreceived, hparse⟩ := hcalls.parsed
  have hstream : fed ++ (l.wire ++ l.sender.writeBuffer) = (sentFrames h).flatMap encode := by
    rw [← htaken.of_open hsender, hwire, hreceived, hcalls.readBuffer_eq hreceiver, List.append_nil,
      List.append_assoc]
  have hall : (appendData {} ((sentFrames h).flatMap encode ++ [])).parseAll.1 =
      (sentFrames h).map withLength :=
    parseAll_cut hsent (congrArg Prod.fst (tryParseFrame_of_no_magic rfl rfl))
  rw [List.append_nil, ← hstream, Receiver.parseAll_appendData_append, hparse] at hall
  rw [← hdelivered]
  exact hall

/-- Nothing under way, no frames under way. -/
theorem Consistent.inFlight_eq_nil (hl : Consistent h l) (hreceiver : l.receiver.closed = false)
    (hbuffer : l.sender.writeBuffer = []) (hwire : l.wire = []) : l.inFlight = [] := by
  obtain ⟨calls, -, -, hcalls, -, -⟩ := hl.exists_calls
  have hquiet := hcalls.quiet hreceiver
  rw [Receiver.Quiet, hcalls.readBuffer_eq hreceiver] at hquiet
  rw [inFlight, hbuffer, hwire, List.append_nil]
  exact (parser.drain_fst_eq_nil_iff _).mpr hquiet

/-- The frames that were accepted had been handed to `SendFrame`. -/
theorem mem_sentFrames {l : Link} {ops : List LinkOp} {f : Frame}
    (hf : f ∈ sentFrames (link.trace l ops)) : ∃ answers, .sendFrame f answers ∈ ops := by
  obtain ⟨e, he, hsent⟩ := List.mem_filterMap.mp hf
  obtain ⟨before, after, hops, -⟩ := link.mem_trace he
  have hmem : e.input ∈ ops := hops ▸ List.mem_append_right _ List.mem_cons_self
  rw [sentFrame?] at hsent
  split at hsent
  · next frame answers hinput =>
    split at hsent
    · obtain rfl := Option.some_inj.mp hsent
      exact ⟨answers, hinput ▸ hmem⟩
    · cases hsent
  · cases hsent

/-! ### Calls that show nothing -/

/-- A call of `SendFrame` alone. -/
theorem sentFrames_singleton (l : Link) (frame : Frame) (answers : List KernelAnswer) :
    sentFrames (link.trace l [.sendFrame frame answers]) =
      if (l.sender.sendFrame frame answers).ok then [frame] else [] := by
  have hsent : sentFrame? (link.event l (.sendFrame frame answers)) =
      if (l.sender.sendFrame frame answers).ok then some frame else none := rfl
  rw [StepMachine.trace_cons, StepMachine.trace_nil, sentFrames, List.filterMap_cons, hsent]
  cases (l.sender.sendFrame frame answers).ok <;> rfl

/-- Calls that send no frame with a property accept none. -/
theorem filterMap_sentFrames_eq_nil {β : Type*} {g : Frame → Option β} {l : Link}
    {ops : List LinkOp} (h : ∀ frame answers, .sendFrame frame answers ∈ ops → g frame = none) :
    (sentFrames (link.trace l ops)).filterMap g = [] :=
  List.filterMap_eq_nil_iff.mpr fun frame hframe =>
    have ⟨answers, hmem⟩ := mem_sentFrames hframe
    h frame answers hmem

/-- Calls without `OnRead` deliver nothing. -/
theorem delivered_eq_nil {l : Link} {ops : List LinkOp} (h : ∀ choices, .onRead choices ∉ ops) :
    delivered (link.trace l ops) = [] := by
  rw [delivered, List.flatMap_eq_nil_iff]
  intro e he
  obtain ⟨before, after, hops, hevent⟩ := link.mem_trace he
  have hmem : e.input ∈ ops := hops ▸ List.mem_append_right _ List.mem_cons_self
  rw [hevent, StepMachine.event_output]
  cases hinput : e.input with
  | onRead choices => exact absurd (hinput ▸ hmem) (h choices)
  | sendFrame | closeSender | closeReceiver => rfl

/-- The calls that close the ends. -/
def closes (sender receiver : Bool) : List LinkOp :=
  (if sender then [.closeSender] else []) ++ if receiver then [.closeReceiver] else []

theorem sentFrames_closes (l : Link) (sender receiver : Bool) :
    sentFrames (link.trace l (closes sender receiver)) = [] := by
  cases sender <;> cases receiver <;> rfl

theorem delivered_closes (l : Link) (sender receiver : Bool) :
    delivered (link.trace l (closes sender receiver)) = [] := by
  cases sender <;> cases receiver <;> rfl

/-- Closing the ends after some calls accepts nothing more. -/
theorem sentFrames_append_closes (l : Link) (ops : List LinkOp) (sender receiver : Bool) :
    sentFrames (link.trace l (ops ++ closes sender receiver)) = sentFrames (link.trace l ops) := by
  rw [StepMachine.trace_append, sentFrames, List.filterMap_append, ← sentFrames, ← sentFrames,
    sentFrames_closes, List.append_nil]

theorem delivered_append_closes (l : Link) (ops : List LinkOp) (sender receiver : Bool) :
    delivered (link.trace l (ops ++ closes sender receiver)) = delivered (link.trace l ops) := by
  rw [StepMachine.trace_append, delivered, List.flatMap_append, ← delivered, ← delivered,
    delivered_closes, List.append_nil]

theorem not_mem_closes {frame : Frame} {answers : List KernelAnswer} {sender receiver : Bool} :
    .sendFrame frame answers ∉ closes sender receiver := by
  cases sender <;> cases receiver <;> simp [closes]

/-! ### Nothing missing -/

/-- Both ends are open, and nothing is on the way. -/
structure Drained (l : Link) : Prop where
  sender_open : l.sender.closed = false
  receiver_open : l.receiver.closed = false
  writeBuffer_eq : l.sender.writeBuffer = []
  wire_eq : l.wire = []

/-- Everything accepted has been delivered. -/
theorem Consistent.delivered_of_drained (hl : Consistent h l)
    (hsent : ∀ f ∈ sentFrames h, StreamingFrameCodec.Encodable f) (hdrained : l.Drained) :
    delivered h = (sentFrames h).map withLength := by
  rw [← hl.delivered_inFlight hsent hdrained.sender_open hdrained.receiver_open,
    hl.inFlight_eq_nil hdrained.receiver_open hdrained.writeBuffer_eq hdrained.wire_eq,
    List.append_nil]

/-! ### Frames without room -/

/-- The frames handed to `SendFrame`. -/
def handedFrames (ops : List LinkOp) : List Frame :=
  ops.filterMap fun op =>
    match op with
    | .sendFrame frame _ => some frame
    | _ => none

/-- Is there room for the frame that a call hands over, if any? -/
def hasRoom (e : Event) : Bool :=
  match e.input with
  | .sendFrame frame _ => !e.pre.sender.overflows frame
  | _ => true

/-- There is room for every frame. -/
def Roomy (h : List Event) : Prop := ∀ e ∈ h, hasRoom e = true

instance (h : List Event) : Decidable (Roomy h) := inferInstanceAs (Decidable (∀ e ∈ h, _))

/-- A frame for which there is room is accepted, or the connection is closed. -/
theorem sendFrame_of_fits {c : Connection} {frame : Frame} (h : c.overflows frame = false)
    (answers : List KernelAnswer) : (c.sendFrame frame answers).ok = true ∨
      (c.sendFrame frame answers).ok = false ∧ (c.sendFrame frame answers).conn.closed = true := by
  unfold Connection.sendFrame
  split
  · next hclosed => exact Or.inr ⟨rfl, hclosed⟩
  next hopen =>
  split
  · next hpath =>
    unfold Connection.sendBuffered
    dsimp only
    split
    · next hlt =>
      rw [Connection.overflows, eq_false_of_ne_true hopen, decide_eq_true hpath,
        decide_eq_true hlt] at h
      cases h
    · split
      · exact Or.inl rfl
      · exact Or.inr ⟨rfl, rfl⟩
  · have hheader := encodeHeaderToBuffer_of_length_eq frame
      (List.length_replicate : (List.replicate kFrameHeaderSize (0 : UInt8)).length = _)
    unfold Connection.sendGathered
    rw [hheader]
    dsimp only
    rw [if_neg (by decide)]
    split
    · split
      · exact Or.inl rfl
      · split
        · exact Or.inl rfl
        · exact Or.inr ⟨rfl, rfl⟩
    · exact Or.inl rfl
    · exact Or.inr ⟨rfl, rfl⟩

theorem sender_onRead (l : Link) (choices : List RecvChoice) :
    (l.onRead choices).1.sender = l.sender := by
  rw [onRead]
  split <;> rfl

/-- With room for every frame, the accepted frames are the first of those handed over, and all of
them while the sender is open. -/
theorem sentFrames_of_roomy {l : Link} {ops : List LinkOp} (hroom : Roomy (link.trace l ops)) :
    sentFrames (link.trace l ops) <+: handedFrames ops ∧
    ((link.run l ops).sender.closed = false →
      sentFrames (link.trace l ops) = handedFrames ops) := by
  induction ops using List.reverseRecOn with
  | nil => exact ⟨List.prefix_refl _, fun _ => rfl⟩
  | append_singleton ops op ih =>
    rw [StepMachine.trace_concat] at hroom
    obtain ⟨hfirst, heq⟩ := ih fun e he => hroom e (List.mem_append_left _ he)
    rw [StepMachine.trace_concat, StepMachine.run_concat, sentFrames_concat, handedFrames,
      List.filterMap_append, ← handedFrames]
    have hquiet : ∀ sent : Option Frame, sent = none →
        sentFrames (link.trace l ops) ++ sent.toList <+: handedFrames ops ++ [] ∧
        ((link.run l ops).sender.closed = false →
          sentFrames (link.trace l ops) ++ sent.toList = handedFrames ops ++ []) := by
      rintro _ rfl
      rw [Option.toList_none, List.append_nil, List.append_nil]
      exact ⟨hfirst, heq⟩
    cases op with
    | sendFrame frame answers =>
      have hsent : sentFrame? (link.event (link.run l ops) (.sendFrame frame answers)) =
          if ((link.run l ops).sender.sendFrame frame answers).ok then some frame else none := rfl
      have hfits : (link.run l ops).sender.overflows frame = false := by
        rw [← Bool.not_eq_true']
        exact hroom _ (List.mem_append_right _ List.mem_cons_self)
      rw [hsent]
      rcases sendFrame_of_fits hfits answers with hok | ⟨hok, hclosed⟩
      · have hopen : (link.run l ops).sender.closed = false := by
          by_contra hclosed
          rw [sendFrame_of_closed (eq_true_of_ne_false hclosed)] at hok
          cases hok
        rw [hok, if_pos rfl, heq hopen]
        exact ⟨List.prefix_refl _, fun _ => rfl⟩
      · rw [hok, if_neg Bool.false_ne_true, Option.toList_none, List.append_nil]
        refine ⟨hfirst.trans (List.prefix_append _ _), fun hopen => ?_⟩
        have hafter : ((link.run l ops).sender.sendFrame frame answers).conn.closed = false := hopen
        rw [hclosed] at hafter
        cases hafter
    | closeSender =>
      exact ⟨(hquiet _ rfl).1, nofun⟩
    | onRead choices =>
      refine ⟨(hquiet _ rfl).1, fun hopen => (hquiet _ rfl).2 ?_⟩
      rw [← sender_onRead (link.run l ops) choices]
      exact hopen
    | closeReceiver => exact hquiet _ rfl

/-- **A queue of frames.** Let any frames within the payload limit be sent over a connection,
under any answers of the kernels, any cuts of the stream and any closes of the two ends. The
frames that have been dispatched at the one end are always the first ones of those that
`SendFrame` accepted at the other. While both ends are open, those that are missing are the
frames that the bytes under way decode to; with no bytes under way, none is missing. -/
theorem fifo (config : Option BrokerConfig) {ops : List LinkOp}
    (hops : ∀ frame answers, .sendFrame frame answers ∈ ops → StreamingFrameCodec.Encodable frame) :
    let h := link.trace (ofConfig config) ops
    let l := link.run (ofConfig config) ops
    delivered h <+: (sentFrames h).map withLength ∧
    (l.sender.closed = false → l.receiver.closed = false →
      delivered h ++ l.inFlight = (sentFrames h).map withLength ∧
      (l.sender.writeBuffer = [] → l.wire = [] → delivered h = (sentFrames h).map withLength)) := by
  intro h l
  have hl : Consistent h l := consistent_run config hops
  have hsent : ∀ f ∈ sentFrames h, StreamingFrameCodec.Encodable f := fun f hf =>
    have ⟨answers, hmem⟩ := mem_sentFrames hf
    hops f answers hmem
  refine ⟨hl.delivered_isPrefix hsent, fun hsender hreceiver => ?_⟩
  have hqueue := hl.delivered_inFlight hsent hsender hreceiver
  refine ⟨hqueue, fun hbuffer hwire => ?_⟩
  rw [← hqueue, hl.inFlight_eq_nil hreceiver hbuffer hwire, List.append_nil]

/-- A heartbeat of which the kernel first takes four bytes, and the frame behind it. -/
theorem fifo_cutHeartbeat :
    let ops : List LinkOp := [.sendFrame { msgType := .ping } [.sent 4], .onRead [.arrived 3],
      .sendFrame { msgType := .ack, payload := [0x11, 0x22] } [.sent 18], .onRead [.arrived 20]]
    let h := link.trace (ofConfig none) ops
    let l := link.run (ofConfig none) ops
    delivered h <+: (sentFrames h).map withLength ∧
    (l.sender.closed = false → l.receiver.closed = false →
      delivered h ++ l.inFlight = (sentFrames h).map withLength ∧
      (l.sender.writeBuffer = [] → l.wire = [] → delivered h = (sentFrames h).map withLength)) :=
  fifo none fun frame answers hmem => by
    simp only [List.mem_cons, LinkOp.sendFrame.injEq, reduceCtorEq, List.not_mem_nil, false_or,
      or_false] at hmem
    rcases hmem with ⟨rfl, -⟩ | ⟨rfl, -⟩ <;> decide

end Link

end ProtoMsgQueue
