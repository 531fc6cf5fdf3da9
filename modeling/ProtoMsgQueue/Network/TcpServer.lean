import ProtoMsgQueue.Lib.ScopedLock
import ProtoMsgQueue.Network.Connection
import ProtoMsgQueue.Protocol.Chunking

/-!
# The locks of the server and its connections

`SendTo` and `Broadcast` of `network/tcp_server.cpp`, `SendFrame`, `OnRead` and `Close` of
`network/connection.cpp`, and the close handler that `AcceptLoop` installs, as computations
of one thread with the locks they take. The pure part of `SendFrame` is `Connection.sendFrame`;
where it closes the connection, `Close` runs under the lock of the write buffer.

A connection is an object that may outlive its entry in `connections_`. What the frame
handler does is a parameter: the calls it makes for each frame, with the answers the kernel
gives during them.
-/

namespace ProtoMsgQueue

/-- The mutexes. -/
inductive ServerLock where
  /-- `connections_mutex_` of the server. -/
  | connections
  /-- `write_buffer_mutex_` of a connection. -/
  | writeBuffer (id : ConnectionId)
  /-- `read_buffer_mutex_` of a connection. -/
  | readBuffer (id : ConnectionId)
deriving DecidableEq, Repr

/-- The receiving side of a connection. -/
structure Reader where
  /-- Received bytes that were not given to the decoder. -/
  readBuffer : List UInt8 := []
  /-- The decoder. -/
  streamingCodec : StreamingFrameCodec := {}

/-- The server, with the connection objects. -/
structure TcpServer where
  /-- The sending side of every connection. -/
  conns : ConnectionId → Connection
  /-- The receiving side of every connection. -/
  readers : ConnectionId → Reader
  /-- The keys of `connections_`, in the order of its iteration. -/
  connections : List ConnectionId
  nodup_connections : connections.Nodup

/-- The answer of the kernel to one `recv`. -/
inductive RecvAnswer where
  /-- Bytes; none if the peer closed the connection. -/
  | received (bytes : List UInt8)
  /-- `EAGAIN` or `EWOULDBLOCK`. -/
  | again
  /-- Any other error. -/
  | error
deriving DecidableEq, Repr

/-- A computation of a thread of the server. -/
abbrev ServerM := LockM ServerLock TcpServer

namespace TcpServer

open LockM

/-- Replace the sending side of a connection. -/
def setConn (id : ConnectionId) (c : Connection) (st : TcpServer) : TcpServer :=
  { st with conns := Function.update st.conns id c }

/-- Replace the receiving side of a connection. -/
def setReader (id : ConnectionId) (r : Reader) (st : TcpServer) : TcpServer :=
  { st with readers := Function.update st.readers id r }

/-- `connections_.erase`. -/
def eraseConnection (id : ConnectionId) (st : TcpServer) : TcpServer :=
  { st with
    connections := st.connections.erase id
    nodup_connections := st.nodup_connections.erase id }

/-- The close handler installed by `AcceptLoop`. -/
def closeHandler (id : ConnectionId) : ServerM Unit :=
  withLock .connections (update (eraseConnection id))

/-- `Connection::Close`. -/
def close (id : ConnectionId) : ServerM Unit := do
  let c ← look fun st => st.conns id
  if c.closed then pure ()
  else do
    update (setConn id c.close)
    closeHandler id

/-- `Connection::SendFrame`. -/
def sendFrame (id : ConnectionId) (frame : Frame) (answers : List KernelAnswer) : ServerM Bool := do
  let c ← look fun st => st.conns id
  if c.closed then pure false
  else
    withLock (.writeBuffer id) do
      let r := c.sendFrame frame answers
      if r.conn.closed then do
        -- an error of the kernel: what was buffered stays, then the connection is closed
        update (setConn id { r.conn with closed := false })
        close id
        pure false
      else do
        update (setConn id r.conn)
        pure r.ok

/-- `TcpServer::SendTo`. -/
def sendTo (id : ConnectionId) (frame : Frame) (answers : List KernelAnswer) : ServerM Bool :=
  withLock .connections do
    let ids ← look connections
    if id ∈ ids then sendFrame id frame answers else pure false

/-- The loop of `Broadcast`. -/
def broadcastLoop (frame : Frame) (answers : ConnectionId → List KernelAnswer) :
    List ConnectionId → ServerM Unit
  | [] => pure ()
  | id :: ids => do
    let _ ← sendFrame id frame (answers id)
    broadcastLoop frame answers ids

/-- `TcpServer::Broadcast`. -/
def broadcast (frame : Frame) (answers : ConnectionId → List KernelAnswer) : ServerM Unit :=
  withLock .connections do
    let ids ← look connections
    broadcastLoop frame answers ids

end TcpServer

/-- A call that a thread or the frame handler makes. -/
inductive ServerCall where
  /-- `SendTo`. -/
  | sendTo (id : ConnectionId) (frame : Frame) (answers : List KernelAnswer)
  /-- `Broadcast`. -/
  | broadcast (frame : Frame) (answers : ConnectionId → List KernelAnswer)
  /-- `SendFrame` on a connection at hand. -/
  | sendFrame (id : ConnectionId) (frame : Frame) (answers : List KernelAnswer)
  /-- `Close`. -/
  | close (id : ConnectionId)

namespace TcpServer

open LockM

/-- Make a call. -/
def call : ServerCall → ServerM Unit
  | .sendTo id frame answers => do
    let _ ← sendTo id frame answers
    pure ()
  | .broadcast frame answers => broadcast frame answers
  | .sendFrame id frame answers => do
    let _ ← sendFrame id frame answers
    pure ()
  | .close id => close id

/-- Make calls one after the other. -/
def callAll : List ServerCall → ServerM Unit
  | [] => pure ()
  | c :: cs => do
    call c
    callAll cs

/-- Append received bytes to the read buffer. -/
def receive (id : ConnectionId) (bytes : List UInt8) (st : TcpServer) : TcpServer :=
  st.setReader id { st.readers id with readBuffer := (st.readers id).readBuffer ++ bytes }

/-- Give the read buffer to the decoder. -/
def feed (id : ConnectionId) (st : TcpServer) : TcpServer :=
  st.setReader id
    { readBuffer := []
      streamingCodec :=
        ((st.readers id).streamingCodec.appendData (st.readers id).readBuffer).parseAll.2 }

/-- The frames the decoder finds when it is given the read buffer. -/
def feedFrames (id : ConnectionId) (st : TcpServer) : List Frame :=
  ((st.readers id).streamingCodec.appendData (st.readers id).readBuffer).parseAll.1

/-- The loop around `recv`; false after the connection was closed. A system call past the
listed answers gets `EAGAIN`. -/
def recvLoop (id : ConnectionId) : List RecvAnswer → ServerM Bool
  | [] => pure true
  | .received bytes :: answers =>
    if bytes = [] then do
      close id
      pure false
    else do
      withLock (.readBuffer id) (update (receive id bytes))
      recvLoop id answers
  | .again :: _ => pure true
  | .error :: _ => do
    close id
    pure false

/-- The calls the frame handler makes for the frames of one `OnRead`; `handler n` is about
the `n`-th of them. -/
def handlerCalls (handler : ℕ → Frame → List ServerCall) (frames : List Frame) : List ServerCall :=
  frames.zipIdx.flatMap fun e => handler e.2 e.1

/-- `Connection::OnRead`. -/
def onRead (id : ConnectionId) (answers : List RecvAnswer) (handler : ℕ → Frame → List ServerCall) :
    ServerM Unit := do
  let c ← look fun st => st.conns id
  if c.closed then pure ()
  else do
    let goesOn ← recvLoop id answers
    if goesOn then
      withLock (.readBuffer id) do
        let frames ← look (feedFrames id)
        update (feed id)
        callAll (handlerCalls handler frames)
    else pure ()

end TcpServer

/-- What a thread of the server enters. -/
inductive ServerEntry where
  /-- A call. -/
  | call (c : ServerCall)
  /-- `OnRead`, with the answers of the kernel and the frame handler. -/
  | onRead (id : ConnectionId) (answers : List RecvAnswer) (handler : ℕ → Frame → List ServerCall)

/-- Run an entry. -/
def ServerEntry.run : ServerEntry → ServerM Unit
  | .call c => TcpServer.call c
  | .onRead id answers handler => TcpServer.onRead id answers handler

/-! ### Errors of the kernel -/

/-- Does the kernel answer a system call of `SendFrame` with an error other than `EAGAIN`, or
without taking anything? -/
def Connection.kernelFails (c : Connection) (frame : Frame) (answers : List KernelAnswer) : Bool :=
  if c.closed then false
  else if c.writeBuffer ≠ [] ∨ ¬ c.useZeroCopy then
    c.writeBuffer.length + (FrameCodec.encode frame).length ≤ c.maxWriteBuffer &&
      !(Connection.sendLoop (c.writeBuffer ++ FrameCodec.encode frame) 0 answers).2
  else
    match answers.headD .again with
    | .sent n => n = 0
    | .again => false
    | .error => true

/-- The kernel fails no send to a registered connection. -/
def TcpServer.safe (st : TcpServer) : ServerCall → Prop
  | .sendTo id frame answers => id ∈ st.connections → (st.conns id).kernelFails frame answers = false
  | .broadcast frame answers =>
    ∀ id ∈ st.connections, (st.conns id).kernelFails frame (answers id) = false
  | _ => True

end ProtoMsgQueue
