import ProtoMsgQueue.Mq.Deduplication
import ProtoMsgQueue.Mq.OutFrames
import ProtoMsgQueue.Mq.ProducerOrder
import ProtoMsgQueue.Network.Link
import ProtoMsgQueue.Network.TcpClient

/-!
# A client and the broker

The whole way of a request and of its reply: a client with its connection, the broker behind the
other end, and the two directions of the connection between them. A step is a call of the client,
a turn of one of its threads, a read of the broker's event thread with the frames handled in it,
or any other step of the broker, which may push to the client as well.

A step is given by the calls that it makes on the parts: on the direction to the broker (`upOps`),
on the broker (`brokerOps`) and on the direction to the client (`downOps`). An end that is closed
in one direction is closed in the other.
-/

namespace ProtoMsgQueue

open FrameCodec StreamingFrameCodec

/-- A client and the broker. -/
structure Conversation (α : Type*) where
  client : TcpClient
  /-- From the client to the broker. -/
  up : Link
  broker : Broker α
  /-- From the broker to the client. -/
  down : Link

/-- The code around a conversation that is not in the repository, and its place in it. -/
structure ConversationSetting where
  lib : Libraries
  /-- The connection of the client at the broker. -/
  connId : ConnectionId
  /-- The generated serializer of publish requests. -/
  serializeRequest : PublishRequest → List UInt8
  /-- The generated serializers of what the broker sends. -/
  serializeToString : OutFrame → Option (List UInt8)

/-- A step of a conversation. -/
inductive ConversationOp where
  /-- The client publishes: it makes a request with the next number and sends it. -/
  | publish (topic : TopicName) (payload : Payload) (ttlMs : UInt32) (compressed : Bool)
      (answers : List KernelAnswer)
  /-- The client sends another frame. -/
  | send (frame : Frame) (answers : List KernelAnswer)
  /-- A turn of `PingLoop`. -/
  | ping (nowMs : ℤ) (answers : List KernelAnswer)
  /-- A turn of `ReadLoop`. -/
  | clientRead (choices : List RecvChoice) (nowMs : ℤ) (answers : ℕ → List KernelAnswer)
  /-- `Disconnect`. -/
  | disconnect
  /-- The event thread of the broker reads the connection and handles the frames it finds. -/
  | serverRead (choices : List RecvChoice) (env : ℕ → HandlerEnv) (answers : ℕ → List KernelAnswer)
  /-- The broker closes the connection. -/
  | serverClose
  /-- Another step of the broker. -/
  | brokerStep (op : BrokerOp) (answers : ℕ → List KernelAnswer)

/-- The frame of a publish request. -/
def ConversationSetting.publishFrame (set : ConversationSetting) (req : PublishRequest) :
    Frame where
  msgType := .publish
  payload := set.serializeRequest req

/-- Does the step handle a frame of the connection? -/
def BrokerOp.isFrameOf (connId : ConnectionId) : BrokerOp → Bool
  | .frame connId' _ _ => connId' = connId
  | _ => false

/-- Where the index does not matter. -/
theorem filterMap_mapIdx {β γ δ : Type*} {f : ℕ → β → γ} {g : γ → Option δ} {k : β → Option δ}
    (h : ∀ n a, g (f n a) = k a) (l : List β) : (l.mapIdx f).filterMap g = l.filterMap k := by
  induction l using List.reverseRecOn with
  | nil => rfl
  | append_singleton l a ih =>
    rw [List.mapIdx_concat, List.filterMap_append, List.filterMap_append, ih, List.filterMap_cons,
      List.filterMap_cons, h]
    rfl

namespace Conversation

variable {α : Type*} [TokenCount α] (set : ConversationSetting) (c : Conversation α)

/-- The request that the client makes next. -/
def nextRequest (topic : TopicName) (payload : Payload) (ttlMs : UInt32) (compressed : Bool) :
    PublishRequest where
  topic := topic
  payload := payload
  ttlMs := ttlMs
  compressed := compressed
  producerId := c.client.producerId
  sequenceId := c.client.getNextSequenceId.2

/-- The frames that a turn of `ReadLoop` finds. -/
def framesRead (choices : List RecvChoice) : List Frame := (c.down.onRead choices).2

/-- The client after a step. -/
def clientAfter : ConversationOp → TcpClient
  | .publish _ _ _ _ _ => c.client.getNextSequenceId.1
  | .ping nowMs answers => (c.client.pingStep c.up.sender answers nowMs).1
  | .clientRead choices nowMs _ =>
    (c.framesRead choices).foldl (fun client frame => (client.onFrame frame nowMs).1) c.client
  | .disconnect => c.client.disconnect
  | _ => c.client

/-- The calls of a step on the direction to the broker. -/
def upCalls : ConversationOp → List LinkOp
  | .publish topic payload ttlMs compressed answers =>
    if c.client.connected then
      [.sendFrame (set.publishFrame (c.nextRequest topic payload ttlMs compressed)) answers]
    else []
  | .send frame answers => if c.client.connected then [.sendFrame frame answers] else []
  | .ping nowMs answers =>
    if c.client.pinging && c.client.connected then
      .sendFrame TcpClient.pingFrame answers ::
        if (c.client.pingStep c.up.sender answers nowMs).2.conn.closed then [.closeSender] else []
    else []
  | .clientRead choices nowMs answers =>
    if c.client.connected then
      ((c.framesRead choices).filterMap fun frame => (c.client.onFrame frame nowMs).2).mapIdx
        fun n frame => .sendFrame frame (answers n)
    else []
  | .disconnect => [.closeSender]
  | .serverRead choices _ _ => [.onRead choices]
  | .serverClose => [.closeReceiver]
  | .brokerStep _ _ => []

/-- The steps that the broker makes. -/
def brokerOps : ConversationOp → List BrokerOp
  | .serverRead choices env _ =>
    (c.up.onRead choices).2.mapIdx fun n frame => .frame set.connId frame (env n)
  | .brokerStep op _ => if op.isFrameOf set.connId then [] else [op]
  | _ => []

/-- The recorded steps that the broker makes in a step. -/
def brokerEvents (op : ConversationOp) : List (BrokerEvent α) :=
  (ProtoMsgQueue.broker α set.lib).trace c.broker (c.brokerOps set op)

/-- What the broker hands to the connection in a step. -/
def framesHanded (op : ConversationOp) : List OutFrame :=
  (((c.brokerEvents set op).flatMap fun e => e.output.sent).filter fun s =>
    s.connId = set.connId).map Sent.frame

/-- The calls of a step on the direction to the client. -/
def downCalls : ConversationOp → List LinkOp
  | .serverRead choices env answers =>
    (c.framesHanded set (.serverRead choices env answers)).mapIdx fun n frame =>
      .sendFrame (frame.toFrame set.serializeToString) (answers n)
  | .brokerStep op answers =>
    (c.framesHanded set (.brokerStep op answers)).mapIdx fun n frame =>
      .sendFrame (frame.toFrame set.serializeToString) (answers n)
  | .clientRead choices _ _ => [.onRead choices]
  | .disconnect => [.closeReceiver]
  | .serverClose => [.closeSender]
  | _ => []

/-- Has the client's end been closed when these calls were made? -/
def clientCloses (op : ConversationOp) : Bool :=
  (Link.link.run c.up (c.upCalls set op)).sender.closed ||
    (Link.link.run c.down (c.downCalls set op)).receiver.closed

/-- Has the broker's? -/
def serverCloses (op : ConversationOp) : Bool :=
  (Link.link.run c.up (c.upCalls set op)).receiver.closed ||
    (Link.link.run c.down (c.downCalls set op)).sender.closed

/-- The calls on the direction to the broker, with those that close an end there that was closed
in the other direction. -/
def upOps (op : ConversationOp) : List LinkOp :=
  c.upCalls set op ++ Link.closes (c.clientCloses set op) (c.serverCloses set op)

/-- The same for the direction to the client. -/
def downOps (op : ConversationOp) : List LinkOp :=
  c.downCalls set op ++ Link.closes (c.serverCloses set op) (c.clientCloses set op)

/-- The conversation as a machine. -/
def conversation (α : Type*) [TokenCount α] (set : ConversationSetting) :
    StepMachine (Conversation α) ConversationOp Unit where
  step c op :=
    ({ client := c.clientAfter op
       up := Link.link.run c.up (c.upOps set op)
       broker := (ProtoMsgQueue.broker α set.lib).run c.broker (c.brokerOps set op)
       down := Link.link.run c.down (c.downOps set op) }, ())

/-- A recorded step. -/
abbrev Event (α : Type*) := StepMachine.Event (Conversation α) ConversationOp Unit

/-- A client that has just connected to a running broker. -/
def ofBroker (config : Option BrokerConfig) (producerId : String) (nowMs : ℤ) (b : Broker α) :
    Conversation α where
  client := .connect config producerId nowMs
  up := .ofConfig config
  broker := b
  down := .ofConfig (some b.serverConfig)

/-- The request that a step of the client makes, if any. -/
def request? (e : Event α) : Option PublishRequest :=
  match e.input with
  | .publish topic payload ttlMs compressed _ =>
    some (e.pre.nextRequest topic payload ttlMs compressed)
  | _ => none

/-- The request that a step of the client sends, if `SendFrame` accepts it. -/
def acceptedRequest? (e : Event α) : Option PublishRequest :=
  match e.input with
  | .publish topic payload ttlMs compressed answers =>
    let req := e.pre.nextRequest topic payload ttlMs compressed
    if (e.pre.client.sendFrame e.pre.up.sender (set.publishFrame req) answers).ok then some req
    else none
  | _ => none

/-- The requests of the client. -/
def requests (h : List (Event α)) : List PublishRequest := h.filterMap request?

/-- Those that `SendFrame` accepted. -/
def acceptedRequests (h : List (Event α)) : List PublishRequest :=
  h.filterMap (acceptedRequest? set)

/-! ### The parts of a conversation -/

/-- What happened on the direction to the broker. -/
def upTrace (h : List (Event α)) : List Link.Event :=
  h.flatMap fun e => Link.link.trace e.pre.up (e.pre.upOps set e.input)

/-- What happened at the broker. -/
def brokerTrace (h : List (Event α)) : List (BrokerEvent α) :=
  h.flatMap fun e => e.pre.brokerEvents set e.input

/-- What happened on the direction to the client. -/
def downTrace (h : List (Event α)) : List Link.Event :=
  h.flatMap fun e => Link.link.trace e.pre.down (e.pre.downOps set e.input)

theorem upTrace_eq (ops : List ConversationOp) :
    upTrace set ((conversation α set).trace c ops) = Link.link.trace c.up
      (((conversation α set).trace c ops).flatMap fun e => e.pre.upOps set e.input) :=
  ((conversation α set).trace_component (π := Conversation.up)
    (f := fun c op => c.upOps set op) (fun _ _ => rfl) c ops).symm

theorem brokerTrace_eq (ops : List ConversationOp) :
    brokerTrace set ((conversation α set).trace c ops) =
      (ProtoMsgQueue.broker α set.lib).trace c.broker
        (((conversation α set).trace c ops).flatMap fun e => e.pre.brokerOps set e.input) :=
  ((conversation α set).trace_component (π := Conversation.broker)
    (f := fun c op => c.brokerOps set op) (fun _ _ => rfl) c ops).symm

/-- The recorded outputs are those of the broker's steps. -/
theorem brokerTrace_output (ops : List ConversationOp) :
    ∀ e ∈ brokerTrace set ((conversation α set).trace c ops),
      e.output = ((ProtoMsgQueue.broker α set.lib).step e.pre e.input).2 := by
  rw [brokerTrace_eq]
  exact fun e he => (ProtoMsgQueue.broker α set.lib).output_of_mem_trace he

theorem downTrace_eq (ops : List ConversationOp) :
    downTrace set ((conversation α set).trace c ops) = Link.link.trace c.down
      (((conversation α set).trace c ops).flatMap fun e => e.pre.downOps set e.input) :=
  ((conversation α set).trace_component (π := Conversation.down)
    (f := fun c op => c.downOps set op) (fun _ _ => rfl) c ops).symm

/-! ### The calls on the direction to the broker -/

variable {set c}

/-- A step sends no frame of the type but its own: a request, another frame of the client, or a
heartbeat. -/
theorem mem_upOps {op : ConversationOp} {frame : Frame} {answers : List KernelAnswer}
    (h : .sendFrame frame answers ∈ c.upOps set op) :
    (∃ req, request? ⟨c, op, ()⟩ = some req ∧ frame = set.publishFrame req) ∨
    (∃ answers', op = .send frame answers') ∨ frame = { msgType := .ping } ∨
    frame = { msgType := .pong } := by
  rcases List.mem_append.mp h with h | h
  swap
  · exact absurd h Link.not_mem_closes
  cases op with
  | publish topic payload ttlMs compressed answers' =>
    rw [upCalls] at h
    split at h
    · obtain ⟨rfl, -⟩ := LinkOp.sendFrame.inj (List.mem_singleton.mp h)
      exact Or.inl ⟨_, rfl, rfl⟩
    · cases h
  | send frame' answers' =>
    rw [upCalls] at h
    split at h
    · obtain ⟨rfl, -⟩ := LinkOp.sendFrame.inj (List.mem_singleton.mp h)
      exact Or.inr (Or.inl ⟨answers', rfl⟩)
    · cases h
  | ping nowMs answers' =>
    rw [upCalls] at h
    split at h
    · rcases List.mem_cons.mp h with h | h
      · obtain ⟨rfl, -⟩ := LinkOp.sendFrame.inj h
        exact Or.inr (Or.inr (Or.inl rfl))
      · split at h
        · cases List.mem_singleton.mp h
        · cases h
    · cases h
  | clientRead choices nowMs answers' =>
    rw [upCalls] at h
    split at h
    · obtain ⟨n, hn, heq⟩ := List.mem_mapIdx.mp h
      obtain ⟨rfl, -⟩ := LinkOp.sendFrame.inj heq
      obtain ⟨frame', -, hpong⟩ := List.mem_filterMap.mp (List.getElem_mem hn)
      refine Or.inr (Or.inr (Or.inr ?_))
      rw [TcpClient.onFrame] at hpong
      split at hpong
      · exact (Option.some_inj.mp hpong).symm
      · split at hpong <;> cases hpong
    · cases h
  | disconnect | serverRead | serverClose => cases List.mem_singleton.mp h
  | brokerStep => cases h

omit [TokenCount α] in
/-- Only the event thread of the broker reads the direction. -/
theorem onRead_mem_upCalls {op : ConversationOp} {choices : List RecvChoice}
    (h : .onRead choices ∈ c.upCalls set op) :
    ∃ env answers, op = .serverRead choices env answers := by
  cases op with
  | serverRead choices' env answers =>
    obtain rfl := LinkOp.onRead.inj (List.mem_singleton.mp h)
    exact ⟨env, answers, rfl⟩
  | publish | send =>
    rw [upCalls] at h
    split at h
    · cases List.mem_singleton.mp h
    · cases h
  | ping nowMs answers =>
    rw [upCalls] at h
    split at h
    · rcases List.mem_cons.mp h with h | h
      · cases h
      · split at h
        · cases List.mem_singleton.mp h
        · cases h
    · cases h
  | clientRead choices nowMs answers =>
    rw [upCalls] at h
    split at h
    · obtain ⟨n, hn, heq⟩ := List.mem_mapIdx.mp h
      cases heq
    · cases h
  | disconnect | serverClose => cases List.mem_singleton.mp h
  | brokerStep => cases h

variable (set c) in
/-- A step delivers the frames of its read to the broker. -/
theorem delivered_upOps (op : ConversationOp) :
    Link.delivered (Link.link.trace c.up (c.upOps set op)) =
      match op with
      | .serverRead choices _ _ => (c.up.onRead choices).2
      | _ => [] := by
  rw [upOps, Link.delivered_append_closes]
  cases op with
  | serverRead choices env answers => exact List.append_nil _
  | _ =>
    refine Link.delivered_eq_nil fun choices h => ?_
    obtain ⟨env, answers, hop⟩ := onRead_mem_upCalls h
    cases hop

/-- A step of the broker makes the steps for the frames that it delivers, or the step given. -/
theorem filterMap_brokerOps {β : Type*} {g : BrokerOp → Option β} {k : Frame → Option β}
    (hg : ∀ frame env, g (.frame set.connId frame env) = k frame) {op : ConversationOp}
    (hstep : ∀ op' answers, op = .brokerStep op' answers → op'.isFrameOf set.connId = false →
      g op' = none) :
    (c.brokerOps set op).filterMap g =
      (Link.delivered (Link.link.trace c.up (c.upOps set op))).filterMap k := by
  rw [delivered_upOps]
  cases op with
  | serverRead choices env answers =>
    rw [brokerOps]
    dsimp only
    exact filterMap_mapIdx (fun n frame => hg frame (env n)) _
  | brokerStep op' answers =>
    rw [brokerOps]
    split
    · rfl
    · next hother =>
      rw [List.filterMap_cons_none (hstep op' answers rfl (eq_false_of_ne_true hother))]
      rfl
  | _ => rfl

/-- What the steps of the broker tell is told by the frames delivered to it. -/
theorem filterMap_brokerTrace {β : Type*} {g : BrokerOp → Option β} {k : Frame → Option β}
    (hg : ∀ frame env, g (.frame set.connId frame env) = k frame) {h : List (Event α)}
    (hstep : ∀ e ∈ h, ∀ op answers, e.input = .brokerStep op answers →
      op.isFrameOf set.connId = false → g op = none) :
    (brokerTrace set h).filterMap (fun e => g e.input) =
      (Link.delivered (upTrace set h)).filterMap k := by
  rw [brokerTrace, List.filterMap_flatMap, Link.delivered, upTrace, List.flatMap_assoc,
    List.filterMap_flatMap]
  refine List.flatMap_congr fun e he => ?_
  rw [brokerEvents, StepMachine.filterMap_input_trace, filterMap_brokerOps hg (hstep e he)]
  rfl

/-! ### Frames of the client that fit -/

/-- The frames of the client are within the payload limit. -/
structure ClientFits (set : ConversationSetting) (h : List (Event α)) : Prop where
  request_fits : ∀ e ∈ h, ∀ req, request? e = some req →
    StreamingFrameCodec.Encodable (set.publishFrame req)
  send_fits : ∀ e ∈ h, ∀ frame answers, e.input = .send frame answers →
    StreamingFrameCodec.Encodable frame

theorem ClientFits.encodable {h : List (Event α)} (hh : ClientFits set h) {frame : Frame}
    {answers : List KernelAnswer}
    (hmem : .sendFrame frame answers ∈ h.flatMap fun e => e.pre.upOps set e.input) :
    StreamingFrameCodec.Encodable frame := by
  obtain ⟨e, he, hframe⟩ := List.mem_flatMap.mp hmem
  rcases mem_upOps hframe with ⟨req, hreq, rfl⟩ | ⟨answers', hsend⟩ | rfl | rfl
  · exact hh.request_fits e he req hreq
  · exact hh.send_fits e he frame answers' hsend
  · decide
  · decide

/-- The frames that were accepted fit. -/
theorem ClientFits.sentFrames {ops : List ConversationOp}
    (hh : ClientFits set ((conversation α set).trace c ops)) :
    ∀ frame ∈ Link.sentFrames (upTrace set ((conversation α set).trace c ops)),
      StreamingFrameCodec.Encodable frame := by
  intro frame hframe
  rw [upTrace_eq] at hframe
  obtain ⟨answers, hmem⟩ := Link.mem_sentFrames hframe
  exact hh.encodable hmem

/-- The direction to the broker is a queue of frames. -/
theorem ClientFits.consistent {config : Option BrokerConfig} {producerId : String} {nowMs : ℤ}
    {b : Broker α} {ops : List ConversationOp}
    (hh : ClientFits set ((conversation α set).trace (ofBroker config producerId nowMs b) ops)) :
    Link.Consistent
      (upTrace set ((conversation α set).trace (ofBroker config producerId nowMs b) ops))
      ((conversation α set).run (ofBroker config producerId nowMs b) ops).up := by
  rw [upTrace_eq, (conversation α set).run_component (π := Conversation.up)
    (f := fun c op => c.upOps set op) (fun _ _ => rfl)]
  exact Link.consistent_run config fun frame answers hmem => hh.encodable hmem

/-! ### A setting -/

/-- The fields of `PublishRequest`, with their widths. -/
def publishFields (req : PublishRequest) : List WireFormat.Field := [
  .bytes 1 (utf8Bytes req.topic),
  .bytes 2 req.payload,
  .uint 3 req.ttlMs.toNat,
  .uint 4 req.compressed.toNat,
  .bytes 5 (utf8Bytes req.producerId),
  .uint 6 (req.sequenceId % 2 ^ 64)]

/-- A client on connection 1. -/
def wireSetting : ConversationSetting where
  lib := Broker.wireLibraries
  connId := 1
  serializeRequest req := WireFormat.encodeMessage (publishFields req)
  serializeToString := wireSerializer

end Conversation

end ProtoMsgQueue
