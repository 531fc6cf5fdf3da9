import ProtoMsgQueue.Common.Config
import ProtoMsgQueue.Lib.StepMachine

/-!
# Events and the connections they are for

`AcceptLoop`, `EventLoop` and `HeartbeatLoop` of `network/tcp_server.cpp` with the kernel's list
of registered sources. A source is registered under a 64-bit tag: the listening socket under its
descriptor, a connection under its id, which `next_conn_id_` counts up from one. `EventLoop` takes
every tag for an id.

`own_events` says that in a run in which no connection is given the listening socket's descriptor
as its id, or an id that is still in use, every event reaches the connection that it belongs to,
and a connection without events is found idle.
-/

namespace ProtoMsgQueue

open UnorderedMap

/-- What `epoll` watches: the listening socket, or the socket that was accepted as the `n`-th. -/
inductive Source where
  | listener
  | socket (n : ℕ)
deriving DecidableEq, Repr

/-- A connection as the loops see it. -/
structure EpollConnection where
  /-- Its socket: how many were accepted before it. -/
  socket : ℕ
  closed : Bool := false
  lastActiveTimeMs : ℤ
deriving DecidableEq, Repr

/-- The server with the state of `epoll`. -/
structure EpollServer where
  /-- The bits of the descriptor. -/
  listenFd : UInt32
  nextConnId : UInt64 := 1
  /-- How many sockets were accepted. -/
  accepted : ℕ := 0
  connections : UnorderedMap UInt64 EpollConnection := ∅
  /-- The connection that `AcceptLoop` has yet to register. -/
  registering : Option (ℕ × UInt64) := none
  /-- The registered sources with their tags. -/
  registered : List (Source × UInt64)
  /-- The events that `EventLoop` has yet to handle. -/
  events : List (Source × UInt64) := []

/-- A step of one of the threads. -/
inductive EpollOp where
  /-- `AcceptLoop` up to the insertion into `connections_`. -/
  | accept (now : ℤ)
  /-- `AcceptLoop` adds the new socket to `epoll`. -/
  | register
  /-- `epoll_wait` returns the events of some sources. -/
  | epollWait (ready : List Source)
  /-- `EventLoop` handles the next event; the reads it makes may end the connection. -/
  | handleEvent (now : ℤ) (ends : Bool)
  /-- `Connection::Close` up to the close handler, by any thread. -/
  | close (id : UInt64)
  /-- The close handler. -/
  | closeHandler (id : UInt64)
  /-- `HeartbeatLoop` looks for idle connections. -/
  | findIdle (now : ℤ)
deriving DecidableEq, Repr

/-- Is it the acceptance of a connection? -/
def EpollOp.isAccept : EpollOp → Bool
  | .accept _ => true
  | _ => false

/-- What is seen of a step. -/
structure EpollOutput where
  /-- The source of the event for which `OnRead` was called, and the socket it read. -/
  read : Option (Source × ℕ) := none
  /-- The ids of the connections that were found idle. -/
  idle : List UInt64 := []

namespace EpollServer

variable (s : EpollServer)

/-- The tag of the listening socket: its descriptor in a zeroed union of 64 bits. -/
def listenTag : UInt64 := s.listenFd.toUInt64

/-- `Start`. -/
def start (listenFd : UInt32) : EpollServer where
  listenFd := listenFd
  registered := [(.listener, listenFd.toUInt64)]

/-- The registered sources without a socket, whose descriptor was closed. -/
def deregister (socket : ℕ) : List (Source × UInt64) :=
  s.registered.filter fun p => p.1 ≠ .socket socket

/-- `AcceptLoop` up to the insertion into `connections_`. A connection that had the same id is
destroyed, which closes its socket. -/
def accept (now : ℤ) : EpollServer :=
  match s.registering with
  | some _ => s
  | none =>
    { s with
      nextConnId := s.nextConnId + 1
      accepted := s.accepted + 1
      connections := s.connections.insert s.nextConnId ⟨s.accepted, false, now⟩
      registering := some (s.accepted, s.nextConnId)
      registered :=
        match s.connections.lookup s.nextConnId with
        | some old => s.deregister old.socket
        | none => s.registered }

/-- Is it an open connection with this socket? -/
def isOpen (socket : ℕ) (id : UInt64) : Bool :=
  (s.connections.lookup id).any fun c => c.socket = socket && !c.closed

/-- `AcceptLoop` adds the new socket to `epoll`, which fails if it was closed. -/
def register : EpollServer :=
  match s.registering with
  | none => s
  | some (socket, id) =>
    { s with
      registering := none
      registered := if s.isOpen socket id then s.registered ++ [(.socket socket, id)]
        else s.registered }

/-- `epoll_wait`, when the last events are handled. -/
def epollWait (ready : List Source) : EpollServer :=
  match s.events with
  | _ :: _ => s
  | [] =>
    { s with
      events := (ready.filterMap fun source => s.registered.find? fun p => p.1 = source).take 64 }

/-- `Connection::Close` up to the close handler. The closed descriptor leaves `epoll`. -/
def closeConnection (id : UInt64) (c : EpollConnection) : EpollServer :=
  if c.closed then s
  else
    { s with
      connections := s.connections.insert id { c with closed := true }
      registered := s.deregister c.socket }

/-- `Connection::OnRead`. -/
def onRead (id : UInt64) (c : EpollConnection) (now : ℤ) (ends : Bool) : EpollServer :=
  if c.closed then s
  else if ends then s.closeConnection id c
  else { s with connections := s.connections.insert id { c with lastActiveTimeMs := now } }

/-- `EventLoop` handles the next event. -/
def handleEvent (now : ℤ) (ends : Bool) : EpollServer × EpollOutput :=
  match s.events with
  | [] => (s, {})
  | (source, tag) :: events =>
    let s := { s with events := events }
    match s.connections.lookup tag with
    | none => (s, {})
    | some c => (s.onRead tag c now ends, { read := some (source, c.socket) })

/-- `Connection::Close` of the connection with an id. -/
def close (id : UInt64) : EpollServer :=
  match s.connections.lookup id with
  | none => s
  | some c => s.closeConnection id c

/-- The close handler, which runs once a connection is closed. -/
def closeHandler (id : UInt64) : EpollServer :=
  match s.connections.lookup id with
  | none => s
  | some c => if c.closed then { s with connections := s.connections.erase id } else s

/-- The connections that `HeartbeatLoop` finds idle. -/
def findIdle (timeoutMs : UInt32) (now : ℤ) : List UInt64 :=
  (s.connections.entries.filter fun e =>
    !e.2.closed && (timeoutMs.toNat : ℤ) ≤ now - e.2.lastActiveTimeMs).map Sigma.fst

end EpollServer

/-- The server with a timeout for idle connections. -/
def epollServer (timeoutMs : UInt32) : StepMachine EpollServer EpollOp EpollOutput where
  step s op := match op with
    | .accept now => (s.accept now, {})
    | .register => (s.register, {})
    | .epollWait ready => (s.epollWait ready, {})
    | .handleEvent now ends => s.handleEvent now ends
    | .close id => (s.close id, {})
    | .closeHandler id => (s.closeHandler id, {})
    | .findIdle now => (s, { idle := s.findIdle timeoutMs now })

/-- A recorded step. -/
abbrev EpollEvent := StepMachine.Event EpollServer EpollOp EpollOutput

/-- The time at which a step accepted a socket or handled an event of it. -/
def EpollEvent.activeAt (e : EpollEvent) (socket : ℕ) : Option ℤ :=
  match e.input with
  | .accept now => if e.pre.registering = none ∧ e.pre.accepted = socket then some now else none
  | .handleEvent now _ =>
    if e.pre.events.head?.map Prod.fst = some (.socket socket) then some now else none
  | _ => none

/-- A step that does right by the sources: after it their tags differ, if it reads a socket then
for an event of that socket, and if it looks for idle connections then it finds those that were
accepted and had their last event long ago. -/
structure OwnEvents (timeoutMs : UInt32) (h : List EpollEvent) (e : EpollEvent) : Prop where
  tags_nodup : (((epollServer timeoutMs).step e.pre e.input).1.registered.map Prod.snd).Nodup
  read_own : ∀ source socket, e.output.read = some (source, socket) → source = .socket socket
  finds_idle : ∀ now, e.input = .findIdle now → ∀ id c, e.pre.connections.lookup id = some c →
    c.closed = false →
    (∀ e' ∈ h, ∀ t, e'.activeAt c.socket = some t → (timeoutMs.toNat : ℤ) ≤ now - t) →
    id ∈ e.output.idle

/-- The next id is not the tag of the listening socket, nor in use. -/
def EpollServer.FreshId (s : EpollServer) : Prop :=
  s.nextConnId ≠ s.listenTag ∧ s.nextConnId ∉ s.connections ∧
    ∀ p ∈ s.events, p.2 ≠ s.nextConnId

instance (s : EpollServer) : Decidable s.FreshId :=
  inferInstanceAs (Decidable (_ ∧ _ ∧ _))

/-- A step that accepts a connection gives it a fresh id. -/
def FreshIds (e : EpollEvent) : Prop :=
  e.input.isAccept = true → e.pre.registering = none → e.pre.FreshId

instance (e : EpollEvent) : Decidable (FreshIds e) :=
  inferInstanceAs (Decidable (_ → _ → _))

/-! ### The invariant -/

namespace EpollServer

/-- A source under a tag is the listening socket, or the socket of the connection with that id as
far as there is one. -/
def OwnTag (s : EpollServer) (p : Source × UInt64) : Prop :=
  p = (.listener, s.listenTag) ∨
    ∃ socket, p.1 = .socket socket ∧ ∀ c, s.connections.lookup p.2 = some c → c.socket = socket

/-- A registered source is the listening socket, or the socket of an open connection. -/
def OpenTag (s : EpollServer) (p : Source × UInt64) : Prop :=
  p = (.listener, s.listenTag) ∨ ∃ c, s.connections.lookup p.2 = some c ∧
    p.1 = .socket c.socket ∧ c.closed = false

/-- Tags and connections are in order after some steps. -/
structure Ordered (h : List EpollEvent) (s : EpollServer) : Prop where
  listenTag_notMem : s.listenTag ∉ s.connections
  registered : ∀ p ∈ s.registered, s.OpenTag p
  nodup : (s.registered.map Prod.snd).Nodup
  registering : ∀ p, s.registering = some p → p.2 ∉ s.registered.map Prod.snd
  events : ∀ p ∈ s.events, s.OwnTag p
  active : ∀ id c, s.connections.lookup id = some c →
    ∃ e ∈ h, EpollEvent.activeAt e c.socket = some c.lastActiveTimeMs

variable {h : List EpollEvent} {s : EpollServer}

theorem ordered_start (listenFd : UInt32) : Ordered [] (start listenFd) where
  listenTag_notMem := AList.notMem_empty _
  registered p hp := Or.inl (List.mem_singleton.mp hp)
  nodup := List.nodup_singleton _
  registering := nofun
  events := nofun
  active id c hc := by
    rw [start, AList.lookup_empty] at hc
    cases hc

theorem OpenTag.ownTag {p : Source × UInt64} (hp : s.OpenTag p) : s.OwnTag p := by
  refine hp.imp_right fun ⟨c, hc, hsource, _⟩ => ⟨c.socket, hsource, fun c' hc' => ?_⟩
  rw [hc] at hc'
  rw [Option.some_inj.mp hc']

/-- More history does not matter. -/
theorem Ordered.concat (hs : Ordered h s) (e : EpollEvent) : Ordered (h ++ [e]) s :=
  { hs with
    active := fun id c hc => by
      obtain ⟨e', he', hactive⟩ := hs.active id c hc
      exact ⟨e', List.mem_append_left _ he', hactive⟩ }

theorem Ordered.lookup_listenTag (hs : Ordered h s) : s.connections.lookup s.listenTag = none :=
  AList.lookup_eq_none.mpr hs.listenTag_notMem

/-- A tag that is neither the listening socket's nor an id is free. -/
theorem Ordered.notMem_tags (hs : Ordered h s) {id : UInt64} (hlisten : id ≠ s.listenTag)
    (hid : s.connections.lookup id = none) : id ∉ s.registered.map Prod.snd := by
  intro hmem
  obtain ⟨p, hp, rfl⟩ := List.mem_map.mp hmem
  refine (hs.registered p hp).elim (fun heq => hlisten (by rw [heq])) fun ⟨c, hc, _⟩ => ?_
  rw [hid] at hc
  cases hc

/-! ### The steps -/

theorem Ordered.accept (hs : Ordered h s) (now : ℤ) (hfresh : s.registering = none → s.FreshId)
    {e : EpollEvent} (hpre : e.pre = s) (hinput : e.input = .accept now) :
    Ordered (h ++ [e]) (s.accept now) := by
  rw [EpollServer.accept]
  split
  · exact hs.concat e
  next hregistering =>
  obtain ⟨hlisten, hid, hevents⟩ := hfresh hregistering
  have hnone := AList.lookup_eq_none.mpr hid
  rw [hnone]
  refine ⟨?_, fun p hp => ?_, hs.nodup, ?_, fun p hp => ?_, fun id c hc => ?_⟩
  · exact fun hmem => ((AList.mem_insert _).mp hmem).elim (fun heq => hlisten heq.symm)
      hs.listenTag_notMem
  · refine (hs.registered p hp).imp_right fun ⟨c, hc, hsource⟩ => ⟨c, ?_, hsource⟩
    have hne : p.2 ≠ s.nextConnId := by
      intro heq
      rw [heq, hnone] at hc
      cases hc
    exact (AList.lookup_insert_ne hne).trans hc
  · rintro p ⟨⟩
    exact hs.notMem_tags hlisten hnone
  · refine (hs.events p hp).imp_right fun ⟨socket, hsource, hsocket⟩ => ⟨socket, hsource, ?_⟩
    intro c hc
    exact hsocket c ((AList.lookup_insert_ne (hevents p hp)).symm.trans hc)
  · by_cases heq : id = s.nextConnId
    · rw [heq, AList.lookup_insert] at hc
      refine ⟨e, List.mem_append_right _ (List.mem_singleton_self e), ?_⟩
      rw [← Option.some_inj.mp hc, EpollEvent.activeAt, hinput, hpre]
      exact if_pos ⟨hregistering, rfl⟩
    · rw [AList.lookup_insert_ne heq] at hc
      exact (hs.concat e).active id c hc

theorem isOpen_iff {socket : ℕ} {id : UInt64} : s.isOpen socket id = true ↔
    ∃ c, s.connections.lookup id = some c ∧ c.socket = socket ∧ c.closed = false := by
  rw [isOpen]
  cases s.connections.lookup id <;> simp

theorem Ordered.register (hs : Ordered h s) : Ordered h s.register := by
  rw [EpollServer.register]
  split
  · exact hs
  next socket id hregistering =>
  split
  · next hopen =>
    obtain ⟨c, hc, hsocket, hclosed⟩ := isOpen_iff.mp hopen
    refine ⟨hs.listenTag_notMem, fun p hp => ?_, ?_, nofun, hs.events, hs.active⟩
    · refine (List.mem_append.mp hp).elim (hs.registered p) fun hp => Or.inr ⟨c, ?_⟩
      rw [List.mem_singleton.mp hp]
      exact ⟨hc, by rw [hsocket], hclosed⟩
    · rw [List.map_append, List.map_singleton, ← List.concat_eq_append, List.nodup_concat]
      exact ⟨hs.registering _ hregistering, hs.nodup⟩
  · exact ⟨hs.listenTag_notMem, hs.registered, hs.nodup, nofun, hs.events, hs.active⟩

theorem Ordered.epollWait (hs : Ordered h s) (ready : List Source) :
    Ordered h (s.epollWait ready) := by
  rw [EpollServer.epollWait]
  split
  · exact hs
  · refine ⟨hs.listenTag_notMem, hs.registered, hs.nodup, hs.registering, fun p hp => ?_,
      hs.active⟩
    obtain ⟨source, -, hfind⟩ := List.mem_filterMap.mp (List.mem_of_mem_take hp)
    exact (hs.registered p (List.mem_of_find?_eq_some hfind)).ownTag

theorem Ordered.ne_listenTag (hs : Ordered h s) {id : UInt64} {c : EpollConnection}
    (hc : s.connections.lookup id = some c) : s.listenTag ≠ id := by
  rintro rfl
  rw [hs.lookup_listenTag] at hc
  cases hc

/-- The listening socket's tag is still no id when a connection has changed. -/
theorem Ordered.listenTag_notMem_insert (hs : Ordered h s) {id : UInt64} {c : EpollConnection}
    (hc : s.connections.lookup id = some c) (c' : EpollConnection) :
    s.listenTag ∉ s.connections.insert id c' :=
  fun hmem => ((AList.mem_insert _).mp hmem).elim (hs.ne_listenTag hc) hs.listenTag_notMem

/-- A source is under its own tag also when a connection has changed but for its socket. -/
theorem OwnTag.insert {p : Source × UInt64} (hp : s.OwnTag p) {id : UInt64}
    {c : EpollConnection} (hc : s.connections.lookup id = some c) {c' : EpollConnection}
    (hsocket : c'.socket = c.socket) :
    OwnTag { s with connections := s.connections.insert id c' } p := by
  refine hp.imp_right fun ⟨socket, hsource, hown⟩ => ⟨socket, hsource, fun d hd => ?_⟩
  by_cases heq : p.2 = id
  · rw [heq, AList.lookup_insert] at hd
    rw [← Option.some_inj.mp hd, hsocket]
    exact hown c (by rw [heq, hc])
  · rw [AList.lookup_insert_ne heq] at hd
    exact hown d hd

theorem Ordered.closeConnection (hs : Ordered h s) {id : UInt64} {c : EpollConnection}
    (hc : s.connections.lookup id = some c) : Ordered h (s.closeConnection id c) := by
  rw [EpollServer.closeConnection]
  split
  · exact hs
  have hsub : (s.deregister c.socket).Sublist s.registered := List.filter_sublist
  refine ⟨hs.listenTag_notMem_insert hc _, fun p hp => ?_, (hsub.map _).nodup hs.nodup,
    fun p hp hmem => ?_, fun p hp => (hs.events p hp).insert hc rfl, fun id' d hd => ?_⟩
  · obtain ⟨hp, hsource⟩ := List.mem_filter.mp hp
    refine (hs.registered p hp).imp_right fun ⟨d, hd, hsource', hopen⟩ => ⟨d, ?_, hsource', hopen⟩
    have hne : p.2 ≠ id := by
      intro heq
      rw [heq, hc] at hd
      rw [← Option.some_inj.mp hd] at hsource'
      exact of_decide_eq_true hsource hsource'
    exact (AList.lookup_insert_ne hne).trans hd
  · exact hs.registering p hp ((hsub.map _).subset hmem)
  · by_cases heq : id' = id
    · rw [heq, AList.lookup_insert] at hd
      rw [← Option.some_inj.mp hd]
      exact hs.active id c hc
    · rw [AList.lookup_insert_ne heq] at hd
      exact hs.active id' d hd

theorem Ordered.onRead (hs : Ordered h s) {id : UInt64} {c : EpollConnection}
    (hc : s.connections.lookup id = some c) {now : ℤ} (ends : Bool)
    (hactive : ∃ e ∈ h, EpollEvent.activeAt e c.socket = some now) :
    Ordered h (s.onRead id c now ends) := by
  rw [EpollServer.onRead]
  split
  · exact hs
  split
  · exact hs.closeConnection hc
  refine ⟨hs.listenTag_notMem_insert hc _, fun p hp => ?_, hs.nodup, hs.registering,
    fun p hp => (hs.events p hp).insert hc rfl, fun id' d hd => ?_⟩
  · refine (hs.registered p hp).imp_right fun ⟨d, hd, hsource, hopen⟩ => ?_
    by_cases heq : p.2 = id
    · rw [heq, hc] at hd
      rw [← Option.some_inj.mp hd] at hsource hopen
      refine ⟨{ c with lastActiveTimeMs := now }, ?_, hsource, hopen⟩
      rw [heq]
      exact AList.lookup_insert _
    · exact ⟨d, (AList.lookup_insert_ne heq).trans hd, hsource, hopen⟩
  · by_cases heq : id' = id
    · rw [heq, AList.lookup_insert] at hd
      rw [← Option.some_inj.mp hd]
      exact hactive
    · rw [AList.lookup_insert_ne heq] at hd
      exact hs.active id' d hd

theorem Ordered.close (hs : Ordered h s) (id : UInt64) : Ordered h (s.close id) := by
  rw [EpollServer.close]
  split
  · exact hs
  · next c hc => exact hs.closeConnection hc

theorem Ordered.closeHandler (hs : Ordered h s) (id : UInt64) : Ordered h (s.closeHandler id) := by
  rw [EpollServer.closeHandler]
  split
  · exact hs
  next c hc =>
  split
  swap
  · exact hs
  next hclosed =>
  have hlookup : ∀ {id' d}, (s.connections.erase id).lookup id' = some d →
      s.connections.lookup id' = some d := by
    intro id' d hd
    by_cases heq : id' = id
    · rw [heq, AList.lookup_erase] at hd
      cases hd
    · exact (AList.lookup_erase_ne heq).symm.trans hd
  refine ⟨fun hmem => hs.listenTag_notMem (AList.mem_erase.mp hmem).2, fun p hp => ?_, hs.nodup,
    hs.registering, fun p hp => ?_, fun id' d hd => hs.active id' d (hlookup hd)⟩
  · refine (hs.registered p hp).imp_right fun ⟨d, hd, hsource, hopen⟩ => ⟨d, ?_, hsource, hopen⟩
    have hne : p.2 ≠ id := by
      intro heq
      rw [heq, hc] at hd
      rw [← Option.some_inj.mp hd, hclosed] at hopen
      cases hopen
    exact (AList.lookup_erase_ne hne).trans hd
  · exact (hs.events p hp).imp_right fun ⟨socket, hsource, hown⟩ =>
      ⟨socket, hsource, fun d hd => hown d (hlookup hd)⟩

/-- The events that are left are in order. -/
theorem Ordered.tail (hs : Ordered h s) {p : Source × UInt64} {events : List (Source × UInt64)}
    (hevents : s.events = p :: events) : Ordered h { s with events := events } :=
  { hs with events := fun p' hp' => hs.events p' (hevents ▸ List.mem_cons_of_mem _ hp') }

/-- The next event is for the connection that its tag finds. -/
theorem Ordered.source_eq (hs : Ordered h s) {source : Source} {tag : UInt64}
    {events : List (Source × UInt64)} (hevents : s.events = (source, tag) :: events)
    {c : EpollConnection} (hc : s.connections.lookup tag = some c) :
    source = .socket c.socket := by
  have hown := hs.events (source, tag) (hevents ▸ List.mem_cons_self)
  refine hown.elim (fun heq => ?_) fun ⟨socket, hsource, hsocket⟩ => ?_
  · exact absurd (Prod.mk.inj heq).2.symm (hs.ne_listenTag hc)
  · rw [hsocket c hc]
    exact hsource

theorem Ordered.handleEvent (hs : Ordered h s) (now : ℤ) (ends : Bool) {e : EpollEvent}
    (hpre : e.pre = s) (hinput : e.input = .handleEvent now ends) :
    Ordered (h ++ [e]) (s.handleEvent now ends).1 := by
  rw [EpollServer.handleEvent]
  split
  · exact hs.concat e
  next source tag events hevents =>
  dsimp only
  split
  · exact (hs.concat e).tail hevents
  next c hc =>
  refine ((hs.concat e).tail hevents).onRead hc ends
    ⟨e, List.mem_append_right _ (List.mem_singleton_self e), ?_⟩
  rw [EpollEvent.activeAt, hinput, hpre, hevents, hs.source_eq hevents hc]
  exact if_pos rfl

/-- An event is read only by the connection that it is for. -/
theorem Ordered.read_handleEvent (hs : Ordered h s) {now : ℤ} {ends : Bool} {source : Source}
    {socket : ℕ} (hread : (s.handleEvent now ends).2.read = some (source, socket)) :
    source = .socket socket := by
  rw [EpollServer.handleEvent] at hread
  split at hread
  · cases hread
  next source' tag events hevents =>
  dsimp only at hread
  split at hread
  · cases hread
  next c hc =>
  obtain ⟨rfl, rfl⟩ := Prod.mk.inj (Option.some_inj.mp hread)
  exact hs.source_eq hevents hc

theorem Ordered.mem_findIdle (hs : Ordered h s) {timeoutMs : UInt32} {now : ℤ} {id : UInt64}
    {c : EpollConnection} (hc : s.connections.lookup id = some c) (hopen : c.closed = false)
    (hlong : ∀ e ∈ h, ∀ t, EpollEvent.activeAt e c.socket = some t →
      (timeoutMs.toNat : ℤ) ≤ now - t) : id ∈ s.findIdle timeoutMs now := by
  obtain ⟨e, he, hactive⟩ := hs.active id c hc
  refine List.mem_map.mpr ⟨⟨id, c⟩, List.mem_filter.mpr ⟨AList.mem_lookup_iff.mp hc, ?_⟩, rfl⟩
  simp [hopen, hlong e he _ hactive]

/-! ### Runs -/

variable {timeoutMs : UInt32}

theorem Ordered.step (hs : Ordered h s) (op : EpollOp)
    (hfresh : FreshIds ((epollServer timeoutMs).event s op)) :
    Ordered (h ++ [(epollServer timeoutMs).event s op]) ((epollServer timeoutMs).step s op).1 := by
  cases op with
  | accept now => exact hs.accept now (hfresh rfl) rfl rfl
  | register => exact hs.register.concat _
  | epollWait ready => exact (hs.epollWait ready).concat _
  | handleEvent now ends => exact hs.handleEvent now ends rfl rfl
  | close id => exact (hs.close id).concat _
  | closeHandler id => exact (hs.closeHandler id).concat _
  | findIdle now => exact hs.concat _

theorem Ordered.ownEvents (hs : Ordered h s) (op : EpollOp)
    (hfresh : FreshIds ((epollServer timeoutMs).event s op)) :
    OwnEvents timeoutMs h ((epollServer timeoutMs).event s op) where
  tags_nodup := (hs.step op hfresh).nodup
  read_own source socket hread := by
    cases op with
    | handleEvent now ends => exact hs.read_handleEvent hread
    | _ => cases hread
  finds_idle := by
    rintro now ⟨⟩ id c hc hopen hlong
    exact hs.mem_findIdle hc hopen hlong

/-- **Events reach their connections.** In every run in which accepted connections are given fresh
ids, the registered sources have different tags after every step, `OnRead` is called for events of
the connection's own socket only, and connections without events are found idle. -/
theorem own_events (timeoutMs : UInt32) (listenFd : UInt32) (ops : List EpollOp)
    (hfresh : (epollServer timeoutMs).Along (fun _ e => FreshIds e) (start listenFd) ops) :
    (epollServer timeoutMs).Along (OwnEvents timeoutMs) (start listenFd) ops :=
  StepMachine.Along.of_history _ (ordered_start listenFd)
    (fun _ _ op hs hop => hs.step op hop) (fun _ _ op hs hop => hs.ownEvents op hop) hfresh

/-- Two connections, of which the first is silent. -/
def twoConnections : List EpollOp :=
  [.accept 0, .register, .accept 10, .register, .epollWait [.socket 1, .listener],
    .handleEvent 20000 false, .handleEvent 20000 false, .findIdle 20000]

/-- The ids of two connections differ from descriptor 3, and the first one is found idle. -/
theorem own_events_twoConnections :
    (epollServer 15000).Along (OwnEvents 15000) (start 3) twoConnections :=
  own_events 15000 3 twoConnections (StepMachine.along_of_forall_mem _ (by decide))

/-- Three silent connections, after which another one waits to be accepted. -/
def threeConnections : List EpollOp :=
  [.accept 0, .register, .accept 0, .register, .accept 0, .register, .epollWait [.listener],
    .handleEvent 20000 false]

/-- The third connection has the tag of the listening socket with descriptor 3, whose event keeps
it from being found idle. -/
theorem not_own_events_threeConnections : ¬ ∀ (timeoutMs listenFd : UInt32) (ops : List EpollOp),
    (epollServer timeoutMs).Along (OwnEvents timeoutMs) (start listenFd) ops := by
  intro h
  have hactive : ∀ e ∈ (epollServer 15000).trace (start 3) threeConnections,
      EpollEvent.activeAt e 2 = none ∨ EpollEvent.activeAt e 2 = some 0 := by decide
  have hlong : ∀ e ∈ (epollServer 15000).trace (start 3) threeConnections, ∀ t,
      EpollEvent.activeAt e 2 = some t → ((15000 : UInt32).toNat : ℤ) ≤ 20000 - t := by
    intro e he t ht
    refine (hactive e he).elim (fun hnone => ?_) fun hzero => ?_
    · rw [hnone] at ht
      cases ht
    · rw [hzero] at ht
      rw [← Option.some_inj.mp ht]
      decide
  obtain ⟨-, hlast⟩ := (StepMachine.along_concat _).mp
    (h 15000 3 (threeConnections ++ [.findIdle 20000]))
  have hidle := hlast.finds_idle 20000 rfl 3 ⟨2, false, 20000⟩ rfl rfl hlong
  revert hidle
  decide

end EpollServer

end ProtoMsgQueue
