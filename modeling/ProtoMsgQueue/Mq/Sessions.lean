import ProtoMsgQueue.Mq.Broker

/-!
# Connections of the broker

`AcceptLoop`, `EventLoop` and `HeartbeatLoop` of `network/tcp_server.cpp` with the broker
behind them, as `Broker::Start` of `mq/broker.cpp` puts them together: frames go to the frame
handler, and connections the heartbeat thread finds idle are reported to the broker before
they are closed. The close handler takes a connection out of `connections_` and tells nobody
else.

A step is one step of one of the threads. The event thread reads a connection, handles the
frames it found there one by one, and is done with it. A `Close` may come in between, from a
failed send or from the heartbeat thread, and the remaining frames are handled all the same.
A closed connection is out of `connections_` in the same step, since both threads pass over
connections that are closed but still listed there.
-/

namespace ProtoMsgQueue

open UnorderedMap

/-- A pass of the heartbeat thread, after it has looked for idle connections. -/
structure HeartbeatPass where
  /-- The connections that were idle. -/
  idleConns : List ConnectionId
  /-- Those the idle timeout handler was not called for yet. -/
  toNotify : List ConnectionId
  /-- Those that are still to be closed by the pass. -/
  toClose : List ConnectionId
deriving DecidableEq, Repr

/-- The broker with its connections. -/
structure Sessions (α : Type*) where
  broker : Broker α
  /-- The identifier of the next connection. -/
  nextConnId : ConnectionId := 1
  /-- The open connections in `connections_`, with the time each was last active, in
  milliseconds. -/
  connections : UnorderedMap ConnectionId ℤ := ∅
  /-- The connection whose frames the event thread is handling. -/
  reading : Option ConnectionId := none
  /-- The running pass of the heartbeat thread. -/
  heartbeatPass : Option HeartbeatPass := none

/-- Who closes a connection, apart from the heartbeat thread. -/
inductive CloseCause where
  /-- `recv` found that the peer had closed it. -/
  | peer
  /-- `recv` failed. -/
  | recvError
  /-- A system call of `SendFrame` failed. -/
  | sendError
deriving DecidableEq, Repr

/-- A step of one of the threads. -/
inductive SessionOp where
  /-- A connection is accepted. -/
  | accept (nowMs : ℤ)
  /-- `OnRead` of a connection has received everything there was, and goes on to the frames. -/
  | onRead (connId : ConnectionId) (nowMs : ℤ)
  /-- The next frame is handled. -/
  | frame (frame : Frame) (env : HandlerEnv)
  /-- There are no more frames. -/
  | onReadDone
  /-- A connection is closed. -/
  | close (connId : ConnectionId) (cause : CloseCause)
  /-- The heartbeat thread looks for idle connections. -/
  | heartbeatCheck (nowMs : ℤ) (order : VisitOrder ConnectionId ℤ)
  /-- The heartbeat thread goes on with its pass. -/
  | heartbeatStep

namespace Sessions

variable {α : Type*} [TokenCount α] (lib : Libraries) (st : Sessions α)

/-- The broker has been started. -/
def ofBroker (broker : Broker α) : Sessions α where
  broker := broker

/-- `AcceptLoop`. -/
def accept (nowMs : ℤ) : Sessions α :=
  { st with
    nextConnId := st.nextConnId + 1
    connections := st.connections.insert st.nextConnId nowMs }

/-- `OnRead` up to the frames. -/
def onRead (connId : ConnectionId) (nowMs : ℤ) : Sessions α :=
  if st.reading = none ∧ connId ∈ st.connections then
    { st with
      connections := st.connections.insert connId nowMs
      reading := some connId }
  else st

/-- `frame_handler_`. -/
def handleFrame (frame : Frame) (env : HandlerEnv) : Sessions α × BrokerResult :=
  match st.reading with
  | none => (st, {})
  | some connId =>
    let (broker, result) := st.broker.onFrameReceived lib connId frame env
    ({ st with broker := broker }, result)

/-- `Connection::Close` with the close handler of `AcceptLoop`. -/
def close (connId : ConnectionId) : Sessions α :=
  { st with connections := st.connections.erase connId }

/-- Can the event thread come to close a connection? It receives before it handles frames and
sends while it handles one. -/
def closes (cause : CloseCause) : Bool :=
  match cause with
  | .peer | .recvError => st.reading.isNone
  | .sendError => st.reading.isSome

/-- The connections that were not active for the timeout of the configuration. -/
def idleConns (nowMs : ℤ) (order : VisitOrder ConnectionId ℤ) : List ConnectionId :=
  (order.visit st.connections).filter fun connId =>
    (st.broker.serverConfig.heartbeatTimeoutMs.toNat : ℤ) ≤
      nowMs - valueAt st.connections connId 0

/-- `HeartbeatLoop`: the look for idle connections. There is no heartbeat thread if heartbeats
are disabled. -/
def heartbeatCheck (nowMs : ℤ) (order : VisitOrder ConnectionId ℤ) : Sessions α :=
  if st.broker.serverConfig.heartbeatEnabled ∧ st.heartbeatPass = none then
    let idle := st.idleConns nowMs order
    { st with heartbeatPass := some ⟨idle, idle, idle⟩ }
  else st

/-- `HeartbeatLoop`: call the idle timeout handler for every idle connection, then close them. -/
def heartbeatStep : Sessions α :=
  match st.heartbeatPass with
  | none => st
  | some ⟨idle, connId :: toNotify, toClose⟩ =>
    { st with
      broker := st.broker.onConnectionClosed connId
      heartbeatPass := some ⟨idle, toNotify, toClose⟩ }
  | some ⟨idle, [], connId :: toClose⟩ =>
    { st.close connId with heartbeatPass := some ⟨idle, [], toClose⟩ }
  | some ⟨_, [], []⟩ => { st with heartbeatPass := none }

end Sessions

/-- The threads as a machine. The output of a frame is what the broker did. -/
def sessions (α : Type*) [TokenCount α] (lib : Libraries) :
    StepMachine (Sessions α) SessionOp BrokerResult where
  step st
    | .accept nowMs => (st.accept nowMs, {})
    | .onRead connId nowMs => (st.onRead connId nowMs, {})
    | .frame frame env => st.handleFrame lib frame env
    | .onReadDone => ({ st with reading := none }, {})
    | .close connId cause => (if st.closes cause then st.close connId else st, {})
    | .heartbeatCheck nowMs order => (st.heartbeatCheck nowMs order, {})
    | .heartbeatStep => (st.heartbeatStep, {})

/-- A recorded step of the threads. -/
abbrev SessionEvent (α : Type*) := StepMachine.Event (Sessions α) SessionOp BrokerResult

end ProtoMsgQueue
