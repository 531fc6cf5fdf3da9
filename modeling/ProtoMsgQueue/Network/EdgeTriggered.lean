import ProtoMsgQueue.Network.EventTags
import ProtoMsgQueue.Network.Link

/-!
# Reading all that arrives

The loops of `network/tcp_server.cpp` with the bytes that wait in the kernel. Accepted sockets
are registered with `EPOLLET`: `epoll_wait` returns a socket once for what has happened on it, and
is silent about what `OnRead` leaves there. `OnRead` is taken one `recv` at a time, so that bytes
may arrive and connections be accepted or closed in between.

The frame handler may push to other connections. If the kernel fails a push, the event thread
hangs in the close handler with `connections_mutex_`, and reads no more.

`alert_run` says that nothing is overlooked: in every run in which the event thread does not hang,
an open connection on whose socket there is something to read waits to be registered, is on the list
of ready sockets, has an event that `EventLoop` has yet to handle, or is being read.
-/

namespace ProtoMsgQueue

open UnorderedMap StreamingFrameCodec

/-- How many events `epoll_wait` returns at most. -/
def kMaxEvents : ℕ := 64

/-- The server with what the kernel holds for its sockets. -/
structure EdgeServer where
  /-- The threads and `epoll`. -/
  server : EpollServer
  /-- The bytes that arrived on a socket and were not read. -/
  unread : ℕ → List UInt8 := fun _ => []
  /-- Has the other side closed the socket? -/
  ended : ℕ → Bool := fun _ => false
  /-- The list of ready sockets: on these something happened since `epoll_wait` returned them. -/
  ready : List ℕ := []
  /-- The connection whose `OnRead` is running, and its socket. -/
  reading : Option (UInt64 × ℕ) := none
  /-- The receiving side of the connection with a socket. -/
  readers : ℕ → Reader := fun _ => {}
  /-- Does the event thread hang in a push that failed, with `connections_mutex_`? -/
  hangs : Bool := false

/-- What a step of `EventLoop` finds. -/
structure EventTurn where
  now : ℤ
  /-- How many bytes `recv` returns at most. -/
  count : ℕ
  /-- Is there a connection to accept? The listening socket is then ready each time. -/
  connecting : Bool
  /-- The frame, by its place among those of one `OnRead`, for which the frame handler makes a push
  that the kernel fails, and the connection that the push is for. -/
  failedPush : Option (ℕ × UInt64)
deriving DecidableEq, Repr

/-- A step of one of the threads, or of the other side of a connection. -/
inductive EdgeOp where
  /-- Bytes arrive on a socket. -/
  | arrive (socket : ℕ) (bytes : List UInt8)
  /-- The other side closes, or the connection breaks. -/
  | finish (socket : ℕ)
  /-- `AcceptLoop` up to the insertion into `connections_`. -/
  | accept (now : ℤ)
  /-- `AcceptLoop` adds the new socket to `epoll`. -/
  | register
  /-- `EventLoop` up to its next call of the kernel. -/
  | eventLoop (turn : EventTurn)
  /-- `Connection::Close` up to the close handler, by any thread. -/
  | close (id : UInt64)
  /-- The close handler. -/
  | closeHandler (id : UInt64)
deriving DecidableEq, Repr

namespace EdgeServer

variable (s : EdgeServer)

/-- `Start`. -/
def start (listenFd : UInt32) : EdgeServer where
  server := .start listenFd

/-- Does `epoll` watch the socket? -/
def isRegistered (socket : ℕ) : Bool := s.server.registered.any fun p => p.1 = .socket socket

/-- Is there something to read, be it the end? -/
def readable (socket : ℕ) : Bool := s.unread socket ≠ [] || s.ended socket

/-- Something happens on a socket. -/
def wake (socket : ℕ) : EdgeServer :=
  if s.isRegistered socket ∧ socket ∉ s.ready then { s with ready := s.ready ++ [socket] } else s

/-- Bytes arrive on a socket, unless it was ended. -/
def arrive (socket : ℕ) (bytes : List UInt8) : EdgeServer :=
  if s.ended socket then s
  else
    wake { s with unread := Function.update s.unread socket (s.unread socket ++ bytes) } socket

/-- The other side closes the socket. -/
def finish (socket : ℕ) : EdgeServer :=
  wake { s with ended := Function.update s.ended socket true } socket

/-- `AcceptLoop` adds the new socket to `epoll`. It is ready at once if something has arrived. -/
def register : EdgeServer :=
  match s.server.registering with
  | none => s
  | some (socket, _) =>
    let s' := { s with server := s.server.register }
    if s.readable socket then s'.wake socket else s'

/-- The ready sockets that `epoll` still watches. -/
def waiting : List ℕ := s.ready.filter s.isRegistered

/-- `epoll_wait`: the listening socket if it is ready, and the first of the ready sockets. -/
def epollWait (connecting : Bool) : EdgeServer :=
  let count := kMaxEvents - connecting.toNat
  { s with
    server := s.server.epollWait
      ((if connecting then [.listener] else []) ++ (s.waiting.take count).map .socket)
    ready := s.waiting.drop count }

/-- `EventLoop` looks up the connection of the next event and calls `OnRead`, which does nothing
on a closed one. -/
def nextEvent (tag : UInt64) (events : List (Source × UInt64)) : EdgeServer :=
  { s with
    server := { s.server with events := events }
    reading := ((s.server.connections.lookup tag).filter fun c => !c.closed).map
      fun c => (tag, c.socket) }

/-- `recv` returns bytes. -/
def receive (socket count : ℕ) : EdgeServer :=
  let n := max 1 (min count kRecvBufferSize)
  let reader := s.readers socket
  { s with
    unread := Function.update s.unread socket ((s.unread socket).drop n)
    readers := Function.update s.readers socket
      { reader with readBuffer := reader.readBuffer ++ (s.unread socket).take n } }

/-- `OnRead` after the last call of `recv`, with the frames that it gives to the frame handler.
The handler returns each time. -/
def endRead (id : UInt64) (socket : ℕ) (c : EpollConnection) (now : ℤ) :
    EdgeServer × List (ℕ × Frame) :=
  let (receiver, frames) := Receiver.onRead { reader := s.readers socket }
    [if s.ended socket then .received [] else .again]
  ({ s with
      server := s.server.onRead id c now (s.ended socket)
      reading := none
      readers := Function.update s.readers socket receiver.reader },
    frames.map fun frame => (socket, frame))

/-- The push that fails in an `OnRead` with so many frames. `SendTo` sends nothing to a connection
that is not in `connections_`, and `SendFrame` nothing to a closed one. -/
def failedPush? (turn : EventTurn) (frames : ℕ) : Option (ℕ × UInt64) :=
  turn.failedPush.filter fun push =>
    push.1 < frames && (s.server.connections.lookup push.2).any fun c => !c.closed

/-- `OnRead` after the last call of `recv`, when the push for a frame fails: the connection that it
is for is closed, and the frames behind are not parsed. -/
def hang (id : UInt64) (socket : ℕ) (c : EpollConnection) (now : ℤ) (place : ℕ) (target : UInt64) :
    EdgeServer × List (ℕ × Frame) :=
  let reader := s.readers socket
  let codec := reader.streamingCodec.appendData reader.readBuffer
  ({ s with
      server := (s.server.onRead id c now false).close target
      readers := Function.update s.readers socket
        { streamingCodec := (fun codec => codec.tryParseFrame.2)^[place + 1] codec }
      hangs := true },
    (s.endRead id socket c now).2.take (place + 1))

/-- `OnRead` calls `recv`, which fails if the connection was closed meanwhile. -/
def recv (id : UInt64) (socket : ℕ) (turn : EventTurn) : EdgeServer × List (ℕ × Frame) :=
  match s.server.connections.lookup id with
  | none => ({ s with reading := none }, [])
  | some c =>
    if c.closed ∨ c.socket ≠ socket then ({ s with reading := none }, [])
    else if s.unread socket ≠ [] then (s.receive socket turn.count, [])
    else
      match s.failedPush? turn (s.endRead id socket c turn.now).2.length with
      | some (place, target) => s.hang id socket c turn.now place target
      | none => s.endRead id socket c turn.now

/-- The next step of `EventLoop`. -/
def eventLoop (turn : EventTurn) : EdgeServer × List (ℕ × Frame) :=
  if s.hangs then (s, [])
  else
    match s.reading, s.server.events with
    | some (id, socket), _ => s.recv id socket turn
    | none, (_, tag) :: events => (s.nextEvent tag events, [])
    | none, [] => (s.epollWait turn.connecting, [])

end EdgeServer

/-- The server as a machine. It shows the frames that are given to the frame handler, each with
the socket on which it arrived. While the event thread hangs, nothing that needs
`connections_mutex_` happens; else the mutex is locked and unlocked within a step. -/
def edgeServer : StepMachine EdgeServer EdgeOp (List (ℕ × Frame)) where
  step s op := match op with
    | .arrive socket bytes => (s.arrive socket bytes, [])
    | .finish socket => (s.finish socket, [])
    | .accept now => (if s.hangs then s else { s with server := s.server.accept now }, [])
    | .register => (s.register, [])
    | .eventLoop turn => s.eventLoop turn
    | .close id => ({ s with server := s.server.close id }, [])
    | .closeHandler id => (if s.hangs then s else { s with server := s.server.closeHandler id }, [])

/-! ### Ids, tags and sockets -/

/-- The id of the connection with a socket: ids are counted up from one. -/
def idOf (socket : ℕ) : UInt64 := .ofNat (socket + 1)

theorem idOf_succ (socket : ℕ) : idOf (socket + 1) = idOf socket + 1 :=
  UInt64.ofNat_add (socket + 1) 1

namespace EpollServer

/-- Is there an open connection with the socket? -/
def Open (s : EpollServer) (socket : ℕ) : Prop := s.isOpen socket (idOf socket) = true

/-- Ids, tags and sockets belong together, and an open connection is registered or soon will be. -/
structure Attached (s : EpollServer) : Prop where
  nextConnId_eq : s.nextConnId = idOf s.accepted
  connections : ∀ id c, s.connections.lookup id = some c →
    id = idOf c.socket ∧ c.socket < s.accepted
  registered : ∀ socket tag, (.socket socket, tag) ∈ s.registered → tag = idOf socket
  watched : ∀ socket, s.Open socket →
    s.registering = some (socket, idOf socket) ∨ (.socket socket, idOf socket) ∈ s.registered

/-- Connections are closed or removed, or none is, and the others change at most in their times. -/
structure Narrows (s s' : EpollServer) : Prop where
  nextConnId_eq : s'.nextConnId = s.nextConnId
  accepted_eq : s'.accepted = s.accepted
  registering_eq : s'.registering = s.registering
  events_eq : s'.events = s.events
  connections : ∀ id c', s'.connections.lookup id = some c' →
    ∃ c, s.connections.lookup id = some c ∧ c.socket = c'.socket ∧
      (c'.closed = false → c.closed = false)
  registered_sub : s'.registered ⊆ s.registered
  registered : ∀ socket tag, s'.Open socket → (.socket socket, tag) ∈ s.registered →
    (.socket socket, tag) ∈ s'.registered

variable {s s' : EpollServer}

theorem open_iff {socket : ℕ} : s.Open socket ↔
    ∃ c, s.connections.lookup (idOf socket) = some c ∧ c.socket = socket ∧ c.closed = false :=
  isOpen_iff

theorem Narrows.rfl : Narrows s s where
  nextConnId_eq := Eq.refl _
  accepted_eq := Eq.refl _
  registering_eq := Eq.refl _
  events_eq := Eq.refl _
  connections _ c hc := ⟨c, hc, Eq.refl _, id⟩
  registered_sub := List.Subset.refl _
  registered _ _ _ := id

/-- Only what was open is open. -/
theorem Narrows.open (h : Narrows s s') {socket : ℕ} (hopen : s'.Open socket) : s.Open socket := by
  obtain ⟨c', hc', hsocket, hclosed⟩ := open_iff.mp hopen
  obtain ⟨c, hc, heq, hopen⟩ := h.connections _ c' hc'
  exact open_iff.mpr ⟨c, hc, heq.trans hsocket, hopen hclosed⟩

theorem Attached.narrows (hs : Attached s) (h : Narrows s s') : Attached s' where
  nextConnId_eq := by rw [h.nextConnId_eq, h.accepted_eq, hs.nextConnId_eq]
  connections id c' hc' := by
    obtain ⟨c, hc, heq, -⟩ := h.connections id c' hc'
    rw [← heq, h.accepted_eq]
    exact hs.connections id c hc
  registered socket tag hmem := hs.registered socket tag (h.registered_sub hmem)
  watched socket hopen := by
    rw [h.registering_eq]
    exact (hs.watched socket (h.open hopen)).imp_right (h.registered socket _ hopen)

/-- A changed connection, and the others. -/
theorem connections_insert {id : UInt64} {c d : EpollConnection}
    (hc : s.connections.lookup id = some c) (hsocket : d.socket = c.socket)
    (hclosed : d.closed = false → c.closed = false) (id' : UInt64) (c' : EpollConnection)
    (hc' : (s.connections.insert id d).lookup id' = some c') :
    ∃ c, s.connections.lookup id' = some c ∧ c.socket = c'.socket ∧
      (c'.closed = false → c.closed = false) := by
  by_cases heq : id' = id
  · rw [heq, AList.lookup_insert] at hc'
    obtain rfl := Option.some_inj.mp hc'
    exact ⟨c, by rw [heq, hc], hsocket.symm, hclosed⟩
  · rw [AList.lookup_insert_ne heq] at hc'
    exact ⟨c', hc', rfl, fun hopen => hopen⟩

theorem Attached.closeConnection (hs : Attached s) {id : UInt64} {c : EpollConnection}
    (hc : s.connections.lookup id = some c) : Narrows s (s.closeConnection id c) := by
  rw [EpollServer.closeConnection]
  split
  · exact Narrows.rfl
  refine ⟨rfl, rfl, rfl, rfl, connections_insert hc rfl (fun hopen => by cases hopen),
    List.filter_sublist.subset, fun socket tag hopen hmem =>
      List.mem_filter.mpr ⟨hmem, decide_eq_true ?_⟩⟩
  -- the socket of the closed connection is not open any more
  intro heq
  obtain ⟨d, hd, -, hclosed⟩ := open_iff.mp hopen
  rw [← (hs.connections id c hc).1.trans (congrArg idOf (Source.socket.inj heq).symm)] at hd
  rw [AList.lookup_insert] at hd
  rw [← Option.some_inj.mp hd] at hclosed
  cases hclosed

theorem Attached.onRead (hs : Attached s) {id : UInt64} {c : EpollConnection}
    (hc : s.connections.lookup id = some c) (now : ℤ) (ends : Bool) :
    Narrows s (s.onRead id c now ends) := by
  rw [EpollServer.onRead]
  split
  · exact Narrows.rfl
  split
  · exact hs.closeConnection hc
  · exact ⟨rfl, rfl, rfl, rfl, connections_insert hc rfl (fun hopen => hopen), List.Subset.refl _,
      fun _ _ _ hmem => hmem⟩

/-- A connection that was closed is not open. -/
theorem not_open_onRead {socket : ℕ} {c : EpollConnection}
    (hc : s.connections.lookup (idOf socket) = some c) (now : ℤ) :
    ¬ (s.onRead (idOf socket) c now true).Open socket := by
  intro hopen
  obtain ⟨d, hd, -, hclosed⟩ := open_iff.mp hopen
  rw [EpollServer.onRead] at hd
  split at hd
  · next hc' =>
    rw [hc] at hd
    rw [Option.some_inj.mp hd, hclosed] at hc'
    cases hc'
  · next hc' =>
    rw [if_pos rfl, EpollServer.closeConnection, if_neg hc', AList.lookup_insert] at hd
    rw [← Option.some_inj.mp hd] at hclosed
    cases hclosed

theorem Attached.close (hs : Attached s) (id : UInt64) : Narrows s (s.close id) := by
  rw [EpollServer.close]
  split
  · exact Narrows.rfl
  · next c hc => exact hs.closeConnection hc

theorem narrows_closeHandler (id : UInt64) : Narrows s (s.closeHandler id) := by
  rw [EpollServer.closeHandler]
  split
  · exact Narrows.rfl
  split
  swap
  · exact Narrows.rfl
  refine ⟨rfl, rfl, rfl, rfl, fun id' c' hc' => ⟨c', ?_, rfl, fun hopen => hopen⟩,
    List.Subset.refl _,
    fun _ _ _ hmem => hmem⟩
  by_cases heq : id' = id
  · rw [heq, AList.lookup_erase] at hc'
    cases hc'
  · exact (AList.lookup_erase_ne heq).symm.trans hc'

theorem attached_start (listenFd : UInt32) : Attached (start listenFd) where
  nextConnId_eq := rfl
  connections id c hc := by
    rw [start, AList.lookup_empty] at hc
    cases hc
  registered socket tag hmem := by
    cases List.mem_singleton.mp hmem
  watched socket hopen := by
    obtain ⟨c, hc, -⟩ := open_iff.mp hopen
    rw [start, AList.lookup_empty] at hc
    cases hc

/-- Besides those that were, a new connection is open. -/
theorem open_accept (hregistering : s.registering = none) {now : ℤ}
    {socket : ℕ} (hopen : (s.accept now).Open socket) : socket = s.accepted ∨ s.Open socket := by
  obtain ⟨c, hc, hsocket, hclosed⟩ := open_iff.mp hopen
  rw [EpollServer.accept, hregistering] at hc
  by_cases heq : idOf socket = s.nextConnId
  · rw [heq, AList.lookup_insert] at hc
    rw [← hsocket, ← Option.some_inj.mp hc]
    exact Or.inl rfl
  · rw [AList.lookup_insert_ne heq] at hc
    exact Or.inr (open_iff.mpr ⟨c, hc, hsocket, hclosed⟩)

/-- The new id may be in use: the connection that had it is then gone. -/
theorem Attached.registered_accept (hs : Attached s) (hregistering : s.registering = none)
    {now : ℤ} {socket : ℕ} (hopen : (s.accept now).Open socket) (hne : socket ≠ s.accepted)
    {tag : UInt64} (hmem : (.socket socket, tag) ∈ s.registered) :
    (.socket socket, tag) ∈ (s.accept now).registered := by
  rw [EpollServer.accept, hregistering]
  dsimp only
  split
  swap
  · exact hmem
  next old hold =>
  refine List.mem_filter.mpr ⟨hmem, decide_eq_true fun heq => hne ?_⟩
  obtain ⟨c, hc, hsocket, -⟩ := open_iff.mp hopen
  rw [EpollServer.accept, hregistering] at hc
  rw [Source.socket.inj heq, ← (hs.connections _ old hold).1, AList.lookup_insert] at hc
  rw [← hsocket, ← Option.some_inj.mp hc]

theorem Attached.accept (hs : Attached s) (now : ℤ) : Attached (s.accept now) := by
  cases hregistering : s.registering with
  | some p =>
    rw [EpollServer.accept, hregistering]
    exact hs
  | none =>
    refine ⟨?_, fun id c hc => ?_, fun socket tag hmem => hs.registered socket tag ?_,
      fun socket hopen => ?_⟩
    · rw [EpollServer.accept, hregistering]
      dsimp only
      rw [hs.nextConnId_eq, idOf_succ]
    · rw [EpollServer.accept, hregistering] at hc ⊢
      by_cases heq : id = s.nextConnId
      · rw [heq, AList.lookup_insert] at hc
        rw [← Option.some_inj.mp hc]
        exact ⟨heq.trans hs.nextConnId_eq, Nat.lt_succ_self _⟩
      · rw [AList.lookup_insert_ne heq] at hc
        exact (hs.connections id c hc).imp_right Nat.lt_succ_of_lt
    · rw [EpollServer.accept, hregistering] at hmem
      dsimp only at hmem
      split at hmem
      · exact List.filter_sublist.subset hmem
      · exact hmem
    · by_cases hne : socket = s.accepted
      · rw [EpollServer.accept, hregistering, hne, hs.nextConnId_eq]
        exact Or.inl rfl
      · have hbefore := (open_accept hregistering hopen).resolve_left hne
        have hmem := (hs.watched socket hbefore).resolve_left (by simp [hregistering])
        exact Or.inr (hs.registered_accept hregistering hopen hne hmem)

/-- Registering changes neither the connections nor what is registered, but for the new one. -/
theorem Attached.register (hs : Attached s) : Attached s.register := by
  rw [EpollServer.register]
  split
  · exact hs
  next socket id hregistering =>
  refine ⟨hs.nextConnId_eq, hs.connections, fun n tag hmem => ?_, fun n hopen => Or.inr ?_⟩
  · dsimp only at hmem
    split at hmem
    swap
    · exact hs.registered n tag hmem
    next hopen =>
    refine (List.mem_append.mp hmem).elim (hs.registered n tag) fun hmem => ?_
    obtain ⟨c, hc, hsocket, -⟩ := isOpen_iff.mp hopen
    obtain ⟨hn, rfl⟩ := Prod.mk.inj (List.mem_singleton.mp hmem)
    rw [Source.socket.inj hn, ← hsocket]
    exact (hs.connections _ c hc).1
  · dsimp only
    refine (hs.watched n hopen).elim (fun heq => ?_) fun hmem => ?_
    · rw [hregistering] at heq
      obtain ⟨rfl, rfl⟩ := Prod.mk.inj (Option.some_inj.mp heq)
      have hopen : s.isOpen socket (idOf socket) = true := hopen
      rw [if_pos hopen]
      exact List.mem_append_right _ (List.mem_singleton_self _)
    · split
      · exact List.mem_append_left _ hmem
      · exact hmem

end EpollServer

namespace EdgeServer

variable {s : EdgeServer}

/-! ### Nothing is overlooked -/

/-- What there is to read on a socket is noticed: its connection waits to be registered, it is on
the list of ready sockets, has an event, or is being read. -/
def Noticed (s : EdgeServer) (socket : ℕ) : Prop :=
  s.server.registering = some (socket, idOf socket) ∨ socket ∈ s.ready ∨
    (.socket socket, idOf socket) ∈ s.server.events ∨ s.reading = some (idOf socket, socket)

/-- Every open connection with something to read is noticed, and between two calls of `OnRead`
nothing is left in its read buffer. -/
structure Alert (s : EdgeServer) : Prop where
  attached : s.server.Attached
  reading : ∀ id socket, s.reading = some (id, socket) →
    id = idOf socket ∧ socket < s.server.accepted
  noticed : ∀ socket, s.server.Open socket → s.readable socket = true → s.Noticed socket
  readBuffer : ∀ socket, s.server.Open socket → s.reading ≠ some (idOf socket, socket) →
    (s.readers socket).readBuffer = []
  fresh : ∀ socket, s.server.accepted ≤ socket → (s.readers socket).readBuffer = []

theorem alert_start (listenFd : UInt32) : Alert (start listenFd) where
  attached := EpollServer.attached_start listenFd
  reading _ _ hread := by cases hread
  noticed _ _ hreadable := by cases hreadable
  readBuffer _ _ _ := rfl
  fresh _ _ := rfl

@[simp] theorem wake_server (n : ℕ) : (s.wake n).server = s.server := by
  rw [wake]
  split <;> rfl

@[simp] theorem wake_unread (n : ℕ) : (s.wake n).unread = s.unread := by
  rw [wake]
  split <;> rfl

@[simp] theorem wake_ended (n : ℕ) : (s.wake n).ended = s.ended := by
  rw [wake]
  split <;> rfl

@[simp] theorem wake_reading (n : ℕ) : (s.wake n).reading = s.reading := by
  rw [wake]
  split <;> rfl

@[simp] theorem wake_readers (n : ℕ) : (s.wake n).readers = s.readers := by
  rw [wake]
  split <;> rfl

theorem isRegistered_of_mem {n : ℕ} {tag : UInt64} (h : (.socket n, tag) ∈ s.server.registered) :
    s.isRegistered n = true :=
  List.any_eq_true.mpr ⟨_, h, decide_eq_true rfl⟩

/-- A socket stays on the list when something happens, be it on another one. -/
theorem mem_ready_wake_of_mem {m : ℕ} (h : m ∈ s.ready) (n : ℕ) : m ∈ (s.wake n).ready := by
  rw [wake]
  split
  · exact List.mem_append_left _ h
  · exact h

/-- A watched socket gets on the list when something happens on it. -/
theorem mem_ready_wake {n : ℕ} (h : s.isRegistered n = true) : n ∈ (s.wake n).ready := by
  rw [wake]
  split
  · exact List.mem_append_right _ (List.mem_singleton_self n)
  · next hmem => exact not_not.mp fun hnot => hmem ⟨h, hnot⟩

theorem Noticed.wake {m : ℕ} (h : s.Noticed m) (n : ℕ) : (s.wake n).Noticed m := by
  rw [Noticed, wake_server, wake_reading]
  exact h.imp_right (Or.imp_left fun hmem => mem_ready_wake_of_mem hmem n)

theorem readable_iff {n : ℕ} : s.readable n = true ↔ s.unread n ≠ [] ∨ s.ended n = true := by
  rw [readable, Bool.or_eq_true, decide_eq_true_iff]

/-- A step that reads nothing. -/
theorem Alert.of_noticed (hs : Alert s) {s' : EdgeServer} (hattached : s'.server.Attached)
    (haccepted : s'.server.accepted = s.server.accepted)
    (hopen : ∀ n, s'.server.Open n → s.server.Open n) (hreading : s'.reading = s.reading)
    (hreaders : s'.readers = s.readers)
    (hnoticed : ∀ n, s'.server.Open n → s'.readable n = true → s'.Noticed n) : Alert s' where
  attached := hattached
  reading := by
    rw [hreading, haccepted]
    exact hs.reading
  noticed := hnoticed
  readBuffer n hn := by
    rw [hreading, hreaders]
    exact hs.readBuffer n (hopen n hn)
  fresh := by
    rw [haccepted, hreaders]
    exact hs.fresh

/-- Something happens on one socket. -/
theorem Alert.wake (hs : Alert s) {n : ℕ} {unread : ℕ → List UInt8} {ended : ℕ → Bool}
    (hunread : ∀ m, m ≠ n → unread m = s.unread m) (hended : ∀ m, m ≠ n → ended m = s.ended m) :
    Alert ({ s with unread := unread, ended := ended }.wake n) := by
  have hserver := wake_server (s := { s with unread := unread, ended := ended }) n
  refine hs.of_noticed ?_ ?_ ?_ (wake_reading n) (wake_readers n) fun m hopen hreadable => ?_
  · rw [hserver]
    exact hs.attached
  · rw [hserver]
  · rw [hserver]
    exact fun m hopen => hopen
  rw [hserver] at hopen
  by_cases heq : m = n
  · -- it is watched, so it gets on the list
    rw [Noticed, hserver]
    refine (hs.attached.watched m hopen).imp_right fun hmem => Or.inl ?_
    rw [heq] at hmem ⊢
    exact mem_ready_wake (isRegistered_of_mem hmem)
  · rw [readable_iff, wake_unread, wake_ended] at hreadable
    dsimp only at hreadable
    rw [hunread m heq, hended m heq] at hreadable
    exact Noticed.wake (s := { s with unread := unread, ended := ended })
      (hs.noticed m hopen (readable_iff.mpr hreadable)) n

theorem Alert.arrive (hs : Alert s) (n : ℕ) (bytes : List UInt8) : Alert (s.arrive n bytes) := by
  rw [EdgeServer.arrive]
  split
  · exact hs
  · exact hs.wake (fun m hne => Function.update_of_ne hne _ _) fun _ _ => rfl

theorem Alert.finish (hs : Alert s) (n : ℕ) : Alert (s.finish n) :=
  hs.wake (fun _ _ => rfl) fun _ hne => Function.update_of_ne hne _ _

theorem Alert.accept (hs : Alert s) (now : ℤ) :
    Alert { s with server := s.server.accept now } := by
  cases hregistering : s.server.registering with
  | some p =>
    rw [EpollServer.accept, hregistering]
    exact hs
  | none =>
    have haccepted : (s.server.accept now).accepted = s.server.accepted + 1 := by
      rw [EpollServer.accept, hregistering]
    have hevents : (s.server.accept now).events = s.server.events := by
      rw [EpollServer.accept, hregistering]
    refine ⟨hs.attached.accept now, fun id n hreading => ?_, fun n hopen hreadable => ?_,
      fun n hopen hreading => ?_, fun n hle => hs.fresh n ?_⟩
    · rw [haccepted]
      exact (hs.reading id n hreading).imp_right Nat.lt_succ_of_lt
    · refine (EpollServer.open_accept hregistering hopen).elim (fun heq => Or.inl ?_)
        fun hopen => ?_
      · rw [EpollServer.accept, hregistering, heq, hs.attached.nextConnId_eq]
      · have hnoticed := hs.noticed n hopen hreadable
        rw [Noticed, hregistering] at hnoticed
        rw [Noticed, hevents]
        exact Or.inr (hnoticed.resolve_left (Option.some_ne_none _).symm)
    · exact (EpollServer.open_accept hregistering hopen).elim (fun heq => hs.fresh n heq.ge)
        fun hopen => hs.readBuffer n hopen hreading
    · rw [haccepted] at hle
      exact Nat.le_of_succ_le hle

/-- Connections are closed. -/
theorem Alert.narrows (hs : Alert s) {server : EpollServer} (h : s.server.Narrows server) :
    Alert { s with server := server } := by
  refine hs.of_noticed (hs.attached.narrows h) h.accepted_eq (fun n => h.open) rfl rfl
    fun n hopen hreadable => ?_
  rw [Noticed, h.registering_eq, h.events_eq]
  exact hs.noticed n (h.open hopen) hreadable

/-- The new socket is watched now, and if something has arrived on it, it is on the list. -/
theorem Alert.register (hs : Alert s) : Alert s.register := by
  rw [EdgeServer.register]
  split
  · exact hs
  next socket id hregistering =>
  obtain ⟨hnone, haccepted, hevents, hopen⟩ : s.server.register.registering = none ∧
      s.server.register.accepted = s.server.accepted ∧
      s.server.register.events = s.server.events ∧
      ∀ n, s.server.register.Open n → s.server.Open n := by
    rw [EpollServer.register, hregistering]
    exact ⟨rfl, rfl, rfl, fun _ hopen => hopen⟩
  have hattached := hs.attached.register
  generalize s.server.register = server at hnone haccepted hevents hopen hattached ⊢
  have hothers : ∀ n, server.Open n → s.readable n = true → n ≠ socket →
      Noticed { s with server := server } n := by
    intro n hn hreadable hne
    rw [Noticed, hevents]
    refine Or.inr ((hs.noticed n (hopen n hn) hreadable).resolve_left fun heq => hne ?_)
    rw [hregistering] at heq
    exact (Prod.mk.inj (Option.some_inj.mp heq)).1.symm
  dsimp only
  split
  · have hserver := wake_server (s := { s with server := server }) socket
    refine hs.of_noticed ?_ ?_ ?_ (wake_reading socket) (wake_readers socket)
      fun n hn hreadable => ?_
    · rw [hserver]
      exact hattached
    · rw [hserver, haccepted]
    · rw [hserver]
      exact hopen
    rw [hserver] at hn
    by_cases heq : n = socket
    · have hmem := (hattached.watched n hn).resolve_left (by simp [hnone])
      rw [heq] at hmem ⊢
      exact Or.inr (Or.inl (mem_ready_wake (isRegistered_of_mem hmem)))
    · rw [readable_iff, wake_unread, wake_ended] at hreadable
      exact (hothers n hn (readable_iff.mpr hreadable) heq).wake socket
  · next hreadable =>
    refine hs.of_noticed hattached haccepted hopen rfl rfl fun n hn hn' => hothers n hn hn' ?_
    rintro rfl
    exact hreadable hn'

/-! ### `EventLoop` -/

theorem mem_waiting {n : ℕ} : n ∈ s.waiting ↔ n ∈ s.ready ∧ s.isRegistered n = true :=
  List.mem_filter

/-- The sources that `epoll_wait` returns. -/
def returned (s : EdgeServer) (connecting : Bool) : List Source :=
  (if connecting then [.listener] else []) ++
    (s.waiting.take (kMaxEvents - connecting.toNat)).map .socket

theorem length_returned (s : EdgeServer) (connecting : Bool) : (s.returned connecting).length =
    connecting.toNat + min (kMaxEvents - connecting.toNat) s.waiting.length := by
  rw [returned, List.length_append, List.length_map, List.length_take]
  cases connecting <;> rfl

theorem length_returned_le (s : EdgeServer) (connecting : Bool) :
    (s.returned connecting).length ≤ kMaxEvents := by
  have hbool := connecting.toNat_le
  rw [length_returned, kMaxEvents]
  omega

/-- There is room for the events of all of them. -/
theorem events_epollWait (hevents : s.server.events = []) (connecting : Bool) :
    (s.epollWait connecting).server.events = (s.returned connecting).filterMap
      fun source => s.server.registered.find? fun p => p.1 = source := by
  rw [EdgeServer.epollWait, EpollServer.epollWait, hevents]
  exact List.take_of_length_le
    ((List.length_filterMap_le _ _).trans (length_returned_le s connecting))

/-- The sockets that `epoll_wait` takes off the list have an event. -/
theorem Alert.mem_events_epollWait (hs : Alert s) (hevents : s.server.events = [])
    {connecting : Bool} {n : ℕ} (hmem : n ∈ s.waiting.take (kMaxEvents - connecting.toNat)) :
    (.socket n, idOf n) ∈ (s.epollWait connecting).server.events := by
  obtain ⟨p, hp, hsource⟩ := List.any_eq_true.mp (mem_waiting.mp (List.mem_of_mem_take hmem)).2
  have hfound : (s.server.registered.find? fun p => p.1 = .socket n).isSome = true :=
    List.find?_isSome.mpr ⟨p, hp, hsource⟩
  obtain ⟨q, hq⟩ := Option.isSome_iff_exists.mp hfound
  have heq : q = (.socket n, idOf n) := by
    have hsource := List.find?_some hq
    replace hsource : q.1 = .socket n := of_decide_eq_true hsource
    have htag := hs.attached.registered n q.2 (hsource ▸ List.mem_of_find?_eq_some hq)
    exact Prod.ext hsource htag
  rw [events_epollWait hevents]
  refine List.mem_filterMap.mpr ⟨.socket n, ?_, heq ▸ hq⟩
  exact List.mem_append_right _ (List.mem_map_of_mem hmem)

theorem Alert.epollWait (hs : Alert s) (hevents : s.server.events = [])
    (hreading : s.reading = none) (connecting : Bool) : Alert (s.epollWait connecting) := by
  have hsame : (s.epollWait connecting).server =
      { s.server with events := (s.epollWait connecting).server.events } := by
    rw [EdgeServer.epollWait, EpollServer.epollWait, hevents]
  have hopen : ∀ n, (s.epollWait connecting).server.Open n → s.server.Open n := by
    rw [hsame]
    exact fun n hn => hn
  refine hs.of_noticed ?_ ?_ hopen rfl rfl fun n hn hreadable => ?_
  · rw [hsame]
    exact ⟨hs.attached.nextConnId_eq, hs.attached.connections, hs.attached.registered,
      hs.attached.watched⟩
  · rw [hsame]
  have hregistering : (s.epollWait connecting).server.registering = s.server.registering := by
    rw [hsame]
  rw [Noticed, hregistering]
  obtain hnew | hready | hevent | hread := hs.noticed n (hopen n hn) hreadable
  · exact Or.inl hnew
  · refine (hs.attached.watched n (hopen n hn)).imp_right fun hmem => ?_
    have hwaiting := mem_waiting.mpr ⟨hready, isRegistered_of_mem hmem⟩
    rw [← List.take_append_drop (kMaxEvents - connecting.toNat) s.waiting] at hwaiting
    exact (List.mem_append.mp hwaiting).elim
      (fun htake => Or.inr (Or.inl (hs.mem_events_epollWait hevents htake))) Or.inl
  · rw [hevents] at hevent
    cases hevent
  · rw [hreading] at hread
    cases hread

/-- `OnRead` is called for the connection of the event, if it is open. -/
theorem Alert.nextEvent (hs : Alert s) (hreading : s.reading = none) {source : Source}
    {tag : UInt64} {events : List (Source × UInt64)}
    (hevents : s.server.events = (source, tag) :: events) : Alert (s.nextEvent tag events) where
  attached := ⟨hs.attached.nextConnId_eq, hs.attached.connections, hs.attached.registered,
    hs.attached.watched⟩
  reading id socket hread := by
    obtain ⟨c, hc, heq⟩ := Option.map_eq_some_iff.mp hread
    obtain ⟨rfl, rfl⟩ := Prod.mk.inj heq
    exact hs.attached.connections _ c (Option.filter_eq_some_iff.mp hc).1
  noticed n hn hreadable := by
    refine (hs.noticed n hn hreadable).imp_right (Or.imp_right ?_)
    rintro (hevent | hread)
    · rw [hevents] at hevent
      refine (List.mem_cons.mp hevent).elim (fun heq => Or.inr ?_) Or.inl
      obtain ⟨rfl, rfl⟩ := Prod.mk.inj heq
      obtain ⟨c, hc, rfl, hclosed⟩ := EpollServer.open_iff.mp hn
      have hc : s.server.connections.lookup (idOf c.socket) = some c := hc
      rw [EdgeServer.nextEvent, hc, Option.filter_some, hclosed]
      rfl
    · rw [hreading] at hread
      cases hread
  readBuffer n hn _ := hs.readBuffer n hn (by simp [hreading])
  fresh := hs.fresh

/-- A `recv` on a connection that was closed meanwhile. -/
theorem Alert.stop (hs : Alert s) {socket : ℕ} (hreading : s.reading = some (idOf socket, socket))
    (hclosed : ¬ s.server.Open socket) : Alert { s with reading := none } := by
  have hother : ∀ n, s.server.Open n → s.reading ≠ some (idOf n, n) := by
    rintro n hn hread
    rw [hreading] at hread
    exact hclosed ((Prod.mk.inj (Option.some_inj.mp hread)).2 ▸ hn)
  refine ⟨hs.attached, (fun _ _ hread => by cases hread), fun n hn hreadable => ?_,
    fun n hn _ => hs.readBuffer n hn (hother n hn), hs.fresh⟩
  refine (hs.noticed n hn hreadable).imp_right (Or.imp_right fun hnoticed => Or.inl ?_)
  exact hnoticed.resolve_right (hother n hn)

/-- While bytes come, the connection goes on reading. -/
theorem Alert.receive (hs : Alert s) {socket : ℕ}
    (hreading : s.reading = some (idOf socket, socket)) (count : ℕ) :
    Alert (s.receive socket count) where
  attached := hs.attached
  reading := hs.reading
  noticed n hn hreadable := by
    by_cases heq : n = socket
    · rw [heq]
      exact Or.inr (Or.inr (Or.inr hreading))
    · refine hs.noticed n hn (readable_iff.mpr ?_)
      rw [readable_iff, EdgeServer.receive] at hreadable
      dsimp only at hreadable
      rwa [Function.update_of_ne heq] at hreadable
  readBuffer n hn hread := by
    have hne : n ≠ socket := by
      rintro rfl
      exact hread hreading
    rw [EdgeServer.receive]
    dsimp only
    rw [Function.update_of_ne hne]
    exact hs.readBuffer n hn hread
  fresh n hle := by
    have hlt := (hs.reading _ _ hreading).2
    have hne : n ≠ socket := (hlt.trans_le hle).ne'
    rw [EdgeServer.receive]
    dsimp only
    rw [Function.update_of_ne hne]
    exact hs.fresh n hle

/-- When the next call would block, the read buffer goes to the decoder. -/
theorem onRead_again (reader : Reader) : Receiver.onRead { reader := reader } [.again] =
    ({ reader :=
        { streamingCodec := (reader.streamingCodec.appendData reader.readBuffer).parseAll.2 } },
      (reader.streamingCodec.appendData reader.readBuffer).parseAll.1) := by
  simp [Receiver.onRead, Receiver.recvLoop]

/-- At the end of the stream it is left as it is. -/
theorem onRead_ended (reader : Reader) : Receiver.onRead { reader := reader } [.received []] =
    ({ closed := true, reader := reader }, []) := by
  simp [Receiver.onRead, Receiver.recvLoop]

/-- `OnRead` ends when nothing is left to read: the connection is closed, or its read buffer is
empty. -/
theorem Alert.endRead (hs : Alert s) {socket : ℕ}
    (hreading : s.reading = some (idOf socket, socket)) {c : EpollConnection}
    (hc : s.server.connections.lookup (idOf socket) = some c) (hunread : s.unread socket = [])
    (now : ℤ) : Alert (s.endRead (idOf socket) socket c now).1 := by
  have hnarrows := hs.attached.onRead hc now (s.ended socket)
  have hended : s.ended socket = true →
      ¬ (s.server.onRead (idOf socket) c now (s.ended socket)).Open socket := by
    intro hended
    rw [hended]
    exact EpollServer.not_open_onRead hc now
  have hs' := hs.narrows hnarrows
  have hother : ∀ n, n ≠ socket → s.reading ≠ some (idOf n, n) := by
    intro n hne hread
    rw [hreading] at hread
    exact hne (Prod.mk.inj (Option.some_inj.mp hread)).2.symm
  refine ⟨hs'.attached, (fun _ _ hread => by cases hread), fun n hn hreadable => ?_,
    fun n hn _ => ?_, fun n hle => ?_⟩
  · refine (hs'.noticed n hn hreadable).imp_right (Or.imp_right fun hnoticed => Or.inl ?_)
    refine hnoticed.resolve_right (hother n ?_)
    rintro rfl
    have hreadable : s.unread n ≠ [] ∨ s.ended n = true := readable_iff.mp hreadable
    exact hended (hreadable.resolve_left (not_not.mpr hunread)) hn
  · rw [EdgeServer.endRead]
    dsimp only
    by_cases heq : n = socket
    · rw [heq] at hn ⊢
      rw [Function.update_self, if_neg fun h => hended h hn, onRead_again]
    · rw [Function.update_of_ne heq]
      exact hs'.readBuffer n hn (hother n heq)
  · have hle : s.server.accepted ≤ n := hnarrows.accepted_eq.symm.trans_le hle
    have hne : n ≠ socket := ((hs.reading _ _ hreading).2.trans_le hle).ne'
    rw [EdgeServer.endRead]
    dsimp only
    rw [Function.update_of_ne hne]
    exact hs.fresh n hle

/-- The three ways in which a call of `recv` goes on when the event thread does not hang then. -/
theorem recv_cases (s : EdgeServer) {id : UInt64} {socket : ℕ} {turn : EventTurn}
    (hfree : (s.recv id socket turn).1.hangs = false) :
    (s.server.isOpen socket id ≠ true ∧ s.recv id socket turn = ({ s with reading := none }, [])) ∨
      (s.unread socket ≠ [] ∧ s.recv id socket turn = (s.receive socket turn.count, [])) ∨
      ∃ c, s.server.connections.lookup id = some c ∧ s.unread socket = [] ∧
        s.recv id socket turn = s.endRead id socket c turn.now := by
  rw [recv] at hfree
  rw [recv, EpollServer.isOpen]
  split
  · next hnone =>
    rw [hnone]
    exact Or.inl ⟨Bool.false_ne_true, rfl⟩
  next c hc =>
  rw [hc] at hfree
  dsimp only at hfree
  split
  · next hclosed =>
    refine Or.inl ⟨fun hopen => ?_, rfl⟩
    rw [hc, Option.any_some, Bool.and_eq_true, decide_eq_true_iff] at hopen
    obtain ⟨hsocket, hopen⟩ := hopen
    refine hclosed.elim (fun hclosed => ?_) fun hne => hne hsocket
    rw [hclosed] at hopen
    cases hopen
  next hopen =>
  rw [if_neg hopen] at hfree
  split
  · next hunread => exact Or.inr (Or.inl ⟨hunread, rfl⟩)
  next hunread =>
  rw [if_neg hunread] at hfree
  refine Or.inr (Or.inr ⟨c, hc, not_not.mp hunread, ?_⟩)
  cases hpush : s.failedPush? turn (s.endRead id socket c turn.now).2.length with
  | none => rfl
  | some push =>
    rw [hpush] at hfree
    cases hfree

theorem Alert.recv (hs : Alert s) {id : UInt64} {socket : ℕ}
    (hreading : s.reading = some (id, socket)) {turn : EventTurn}
    (hfree : (s.recv id socket turn).1.hangs = false) : Alert (s.recv id socket turn).1 := by
  obtain ⟨rfl, -⟩ := hs.reading id socket hreading
  obtain ⟨hclosed, heq⟩ | ⟨-, heq⟩ | ⟨c, hc, hunread, heq⟩ := s.recv_cases hfree <;> rw [heq]
  · exact hs.stop hreading hclosed
  · exact hs.receive hreading turn.count
  · exact hs.endRead hreading hc hunread turn.now

theorem Alert.eventLoop (hs : Alert s) {turn : EventTurn}
    (hfree : (s.eventLoop turn).1.hangs = false) : Alert (s.eventLoop turn).1 := by
  rw [EdgeServer.eventLoop] at hfree ⊢
  split
  · exact hs
  next hnot =>
  rw [if_neg hnot] at hfree
  split
  · next hreading =>
    rw [hreading] at hfree
    exact hs.recv hreading hfree
  · next hreading hevents => exact hs.nextEvent hreading hevents
  · next hreading hevents => exact hs.epollWait hevents hreading turn.connecting

theorem Alert.step (hs : Alert s) {op : EdgeOp} (hfree : (edgeServer.step s op).1.hangs = false) :
    Alert (edgeServer.step s op).1 := by
  cases op with
  | arrive socket bytes => exact hs.arrive socket bytes
  | finish socket => exact hs.finish socket
  | accept now =>
    change Alert (if s.hangs then s else { s with server := s.server.accept now })
    split
    · exact hs
    · exact hs.accept now
  | register => exact hs.register
  | eventLoop turn => exact hs.eventLoop hfree
  | close id => exact hs.narrows (hs.attached.close id)
  | closeHandler id =>
    change Alert (if s.hangs then s else { s with server := s.server.closeHandler id })
    split
    · exact hs
    · exact hs.narrows (EpollServer.narrows_closeHandler id)

@[simp] theorem wake_hangs (n : ℕ) : (s.wake n).hangs = s.hangs := by
  rw [wake]
  split <;> rfl

theorem register_hangs : s.register.hangs = s.hangs := by
  rw [register]
  split
  · rfl
  dsimp only
  split
  · exact wake_hangs _
  · rfl

/-- The event thread hangs for good. -/
theorem hangs_step (hhangs : s.hangs = true) (op : EdgeOp) :
    (edgeServer.step s op).1.hangs = true := by
  cases op with
  | arrive socket bytes =>
    change (s.arrive socket bytes).hangs = true
    rw [arrive]
    split
    · exact hhangs
    · rw [wake_hangs, hhangs]
  | finish socket => exact (wake_hangs socket).trans hhangs
  | accept now =>
    change (if s.hangs then s else { s with server := s.server.accept now }).hangs = true
    rw [if_pos hhangs, hhangs]
  | register => exact register_hangs.trans hhangs
  | eventLoop turn =>
    change (s.eventLoop turn).1.hangs = true
    rw [eventLoop, if_pos hhangs, hhangs]
  | close id => exact hhangs
  | closeHandler id =>
    change (if s.hangs then s else { s with server := s.server.closeHandler id }).hangs = true
    rw [if_pos hhangs, hhangs]

/-- A server that does not hang after a step did not hang before. -/
theorem hangs_eq_false {op : EdgeOp} (hfree : (edgeServer.step s op).1.hangs = false) :
    s.hangs = false :=
  eq_false_of_ne_true fun hhangs => Bool.false_ne_true (hfree.symm.trans (hangs_step hhangs op))

/-- In every run, whatever there is to read on an open connection is noticed, unless the event
thread hangs. -/
theorem alert_run (listenFd : UInt32) (ops : List EdgeOp) :
    (edgeServer.run (start listenFd) ops).hangs = false →
      Alert (edgeServer.run (start listenFd) ops) := by
  have hstep : ∀ (s : EdgeServer) (op : EdgeOp), (s.hangs = false → Alert s) →
      (edgeServer.step s op).1.hangs = false → Alert (edgeServer.step s op).1 :=
    fun s op hs hfree => (hs (hangs_eq_false hfree)).step hfree
  exact edgeServer.run_induction (fun _ => alert_start listenFd) hstep ops

end EdgeServer

end ProtoMsgQueue
