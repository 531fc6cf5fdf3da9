import ProtoMsgQueue.Network.Connection

/-!
# The client

`TcpClient` of `network/tcp_client.cpp`: the numbers it gives to the requests of its producer, the
frames that the handler installed by `Connect` answers itself, and the turns of `PingLoop`. The
connection behind it is passed along; the thread of `ReadLoop` only calls its `OnRead`.
-/

namespace ProtoMsgQueue

/-- The client, but for its connection. -/
structure TcpClient where
  /-- The configuration, absent for a null pointer. -/
  config : Option BrokerConfig := none
  /-- The name of the producer, made by `Connect`. -/
  producerId : String := ""
  /-- The number of the next request, 64 bits. -/
  nextSequenceId : ℕ := 1
  /-- Is the client connected? -/
  connected : Bool := false
  /-- Is the thread of `PingLoop` running? -/
  pinging : Bool := false
  /-- When the last answer to a heartbeat came, in milliseconds. -/
  lastPongTimeMs : ℤ := 0
deriving DecidableEq, Repr

namespace TcpClient

variable (client : TcpClient)

/-- A `Connect` that succeeds. The name of the producer is drawn at random. -/
def connect (config : Option BrokerConfig) (producerId : String) (nowMs : ℤ) : TcpClient where
  config := config
  producerId := producerId
  connected := true
  pinging := match config with
    | some config => config.heartbeatEnabled
    | none => true
  lastPongTimeMs := nowMs

/-- `GetNextSequenceId`. -/
def getNextSequenceId : TcpClient × ℕ :=
  ({ client with nextSequenceId := (client.nextSequenceId + 1) % 2 ^ 64 }, client.nextSequenceId)

/-- How long `PingLoop` waits for an answer. -/
def heartbeatTimeoutMs : ℤ :=
  match client.config with
  | some config => config.heartbeatTimeoutMs.toNat
  | none => 15000

/-- `SendFrame`: through the connection, while the client is connected. -/
def sendFrame (conn : Connection) (frame : Frame) (answers : List KernelAnswer) :
    Connection.SendResult :=
  if client.connected then conn.sendFrame frame answers
  else { ok := false, conn := conn, accepted := [] }

/-- What the frame handler installed by `Connect` does for a frame: the client after it, and the
frame it sends back, if any. -/
def onFrame (frame : Frame) (nowMs : ℤ) : TcpClient × Option Frame :=
  if frame.msgType = .ping then (client, some { msgType := .pong })
  else if frame.msgType = .pong then ({ client with lastPongTimeMs := nowMs }, none)
  else (client, none)

/-- The heartbeat of `PingLoop`. -/
def pingFrame : Frame := { msgType := .ping }

/-- A turn of `PingLoop` after its sleep: the client, the connection with what its kernel took, and
whether the heartbeat was sent. The loop ends if the client is not connected any more, if the
heartbeat cannot be sent, or if the last answer is too old; then the connection is closed. -/
def pingStep (conn : Connection) (answers : List KernelAnswer) (nowMs : ℤ) :
    TcpClient × Connection.SendResult :=
  if client.pinging && client.connected then
    let r := client.sendFrame conn pingFrame answers
    if !r.ok then ({ client with pinging := false }, r)
    else if client.heartbeatTimeoutMs < nowMs - client.lastPongTimeMs then
      ({ client with pinging := false }, { r with conn := r.conn.close })
    else (client, r)
  else ({ client with pinging := false }, { ok := false, conn := conn, accepted := [] })

/-- `Disconnect`, but for the close of the connection. -/
def disconnect : TcpClient := { client with connected := false, pinging := false }

/-- Handling a frame changes nothing but the time of the last answer. -/
theorem onFrame_eq (frame : Frame) (nowMs : ℤ) :
    ∃ time, (client.onFrame frame nowMs).1 = { client with lastPongTimeMs := time } := by
  rw [onFrame]
  split
  · exact ⟨client.lastPongTimeMs, rfl⟩
  · split
    · exact ⟨nowMs, rfl⟩
    · exact ⟨client.lastPongTimeMs, rfl⟩

/-- A turn of `PingLoop` changes nothing but whether the loop goes on. -/
theorem pingStep_eq (conn : Connection) (answers : List KernelAnswer) (nowMs : ℤ) :
    ∃ pinging, (client.pingStep conn answers nowMs).1 = { client with pinging := pinging } := by
  rw [pingStep]
  split
  · dsimp only
    split
    · exact ⟨false, rfl⟩
    · split
      · exact ⟨false, rfl⟩
      · exact ⟨client.pinging, rfl⟩
  · exact ⟨false, rfl⟩

end TcpClient

end ProtoMsgQueue
