import ProtoMsgQueue.Common.Config
import ProtoMsgQueue.Common.Types
import ProtoMsgQueue.Lib.StepMachine

/-!
# Starting and stopping the server

`Start` and `Stop` of `network/tcp_server.cpp` with the threads between them: `AcceptLoop`,
`EventLoop` and `HeartbeatLoop`, each going from one access to what they share to the next. The
thread that calls `Start` and `Stop` is a fourth one. A connection is an object that may be open
before it is in `connections_` and after it was taken out.

The frame handlers that `OnRead` calls push to other connections by `SendTo`, which keeps
`connections_mutex_` locked. If the kernel fails a push, `Close` comes to the close handler, which
waits for that mutex: the event thread hangs, and so does every thread that comes to lock the mutex.

`Stop` takes the connections out of `connections_` before it waits for `AcceptLoop`, which may have
accepted one more by then. `stop_closes` says that this one is all that a `Stop` can leave open, and
that the next `Stop`, which is at the latest that of the destructor, closes it.
-/

namespace ProtoMsgQueue

open UnorderedMap

/-- How `accept` returns. -/
inductive AcceptAnswer where
  | accepted
  /-- `EAGAIN` or `EWOULDBLOCK`. -/
  | again
  /-- Any other error. -/
  | error
deriving DecidableEq, Repr

/-- What the thread of `AcceptLoop` does next. -/
inductive AcceptPoint where
  /-- It tests `running_`. -/
  | test
  /-- It calls `accept`. -/
  | accept
  /-- It inserts the connection, made at this time, into `connections_`. -/
  | insert (connId : ConnectionId) (nowMs : ℤ)
  | ended
deriving DecidableEq, Repr

/-- What the thread of `EventLoop` does next. -/
inductive EventPoint where
  | test
  /-- It calls `epoll_wait`. -/
  | wait
  /-- It goes on with these events. -/
  | handle (connIds : List ConnectionId)
  /-- It calls `OnRead`. -/
  | read (connId : ConnectionId) (connIds : List ConnectionId)
  /-- It calls the close handler of a connection that it has closed. -/
  | closeHandler (connId : ConnectionId) (connIds : List ConnectionId)
  /-- It goes on with the frames of a connection that it has closed. -/
  | frames (connIds : List ConnectionId)
  /-- It hangs in a push that failed, with `connections_mutex_`. -/
  | hangs
  | ended
deriving DecidableEq, Repr

/-- How a call of `OnRead` goes on, with the frame handlers that it calls. -/
inductive ReadCourse where
  /-- The handlers return. -/
  | returns
  /-- The connection is closed: at the end of its stream, or as the kernel fails a reply. -/
  | closes
  /-- The kernel fails the push to this connection. -/
  | pushFails (connId : ConnectionId)
deriving DecidableEq, Repr

/-- What the thread of `HeartbeatLoop` does next. -/
inductive HeartbeatPoint where
  | test
  /-- It sleeps, and tests `running_` again. -/
  | sleep
  /-- It looks for idle connections. -/
  | look
  /-- It closes these. -/
  | close (idleConns : List ConnectionId)
  | closeHandler (connId : ConnectionId) (idleConns : List ConnectionId)
  | ended
deriving DecidableEq, Repr

/-- What the caller of `Stop` does next. -/
inductive StopPoint where
  /-- No `Stop` is under way. -/
  | outside
  | closeListenFd
  | closeEpollFd
  /-- It takes all connections out of `connections_`. -/
  | takeConnections
  /-- It closes these. -/
  | close (connsToClose : List ConnectionId)
  | closeHandler (connId : ConnectionId) (connsToClose : List ConnectionId)
  | joinAccept
  | joinEvent
  | joinHeartbeat
deriving DecidableEq, Repr

/-- The server with its threads. -/
structure ServerThreads where
  running : Bool := false
  /-- Is `listen_fd_` open? -/
  listening : Bool := false
  nextConnId : ConnectionId := 1
  /-- The connections that are not closed. -/
  openConns : List ConnectionId := []
  /-- `connections_`, with the time each connection was last active. -/
  connections : UnorderedMap ConnectionId ℤ := ∅
  acceptThread : AcceptPoint := .ended
  eventThread : EventPoint := .ended
  heartbeatThread : HeartbeatPoint := .ended
  stopping : StopPoint := .outside

/-- A step of one of the threads. -/
inductive ServerThreadsOp where
  /-- A `Start` that succeeds, of a server that does not run. -/
  | start
  /-- `Stop` is called. -/
  | stop
  | acceptLoop (answer : AcceptAnswer) (nowMs : ℤ)
  /-- `epoll_wait` returns these events or fails; `OnRead` takes this course. -/
  | eventLoop (ready : Option (List ConnectionId)) (course : ReadCourse) (nowMs : ℤ)
  | heartbeatLoop (order : VisitOrder ConnectionId ℤ) (nowMs : ℤ)
  /-- The caller of `Stop` goes on. -/
  | stopStep (order : VisitOrder ConnectionId ℤ)

namespace ServerThreads

variable (config : BrokerConfig) (s : ServerThreads)

/-- `Start`. It needs threads that are not joinable: a second one would end the process. -/
def start : ServerThreads :=
  if s.running = false ∧ s.stopping = .outside then
    { s with
      running := true
      listening := true
      acceptThread := .test
      eventThread := .test
      heartbeatThread := if config.heartbeatEnabled then .test else .ended }
  else s

/-- The event thread keeps `connections_mutex_`. In the steps of a thread it is locked and unlocked
again. -/
def mutexHeld : Bool := s.eventThread = .hangs

/-- `AcceptLoop`. -/
def acceptLoop (answer : AcceptAnswer) (nowMs : ℤ) : ServerThreads :=
  match s.acceptThread with
  | .test => { s with acceptThread := if s.running then .accept else .ended }
  | .accept =>
    if s.listening then
      match answer with
      | .accepted =>
        { s with
          nextConnId := s.nextConnId + 1
          openConns := s.openConns ++ [s.nextConnId]
          acceptThread := .insert s.nextConnId nowMs }
      | .again => { s with acceptThread := .test }
      | .error => { s with acceptThread := .ended }
    else { s with acceptThread := .ended }
  | .insert connId nowMs =>
    if s.mutexHeld then s
    else
      { s with
        connections := s.connections.insert connId nowMs
        acceptThread := .test }
  | .ended => s

/-- `Connection::Close` up to the close handler. -/
def close (connId : ConnectionId) : ServerThreads :=
  { s with openConns := s.openConns.filter fun id => id ≠ connId }

/-- The close handler that `AcceptLoop` installs. -/
def closeHandler (connId : ConnectionId) : ServerThreads :=
  { s with connections := s.connections.erase connId }

/-- `UpdateLastActiveTime`. -/
def updateLastActiveTime (connId : ConnectionId) (nowMs : ℤ) : ServerThreads :=
  { s with
    connections := if connId ∈ s.connections then s.connections.insert connId nowMs
      else s.connections }

/-- A frame handler comes to a push that the kernel fails. `SendTo` sends to a connection that is in
`connections_`, and `SendFrame` refuses if it is closed. -/
def pushFails (connId : ConnectionId) (connIds : List ConnectionId) : ServerThreads :=
  if connId ∈ s.connections ∧ connId ∈ s.openConns then
    { s.close connId with eventThread := .hangs }
  else { s with eventThread := .handle connIds }

/-- `EventLoop`. -/
def eventLoop (ready : Option (List ConnectionId)) (course : ReadCourse) (nowMs : ℤ) :
    ServerThreads :=
  match s.eventThread with
  | .test => { s with eventThread := if s.running then .wait else .ended }
  | .wait =>
    match ready with
    | some connIds =>
      { s with eventThread := .handle (connIds.take 64) }
    | none => { s with eventThread := .ended }
  | .handle [] => { s with eventThread := .test }
  | .handle (connId :: connIds) =>
    { s with
      eventThread := if connId ∈ s.connections then .read connId connIds else .handle connIds }
  | .read connId connIds =>
    if connId ∈ s.openConns then
      match course with
      | .returns => { s.updateLastActiveTime connId nowMs with eventThread := .handle connIds }
      | .closes => { s.close connId with eventThread := .closeHandler connId connIds }
      | .pushFails target => (s.updateLastActiveTime connId nowMs).pushFails target connIds
    else { s with eventThread := .handle connIds }
  | .closeHandler connId connIds =>
    { s.closeHandler connId with eventThread := .frames connIds }
  | .frames connIds =>
    match course with
    | .pushFails target => s.pushFails target connIds
    | _ => { s with eventThread := .handle connIds }
  | .hangs => s
  | .ended => s

/-- The connections that `HeartbeatLoop` finds idle. -/
def idleConns (order : VisitOrder ConnectionId ℤ) (nowMs : ℤ) : List ConnectionId :=
  (order.visit s.connections).filter fun connId =>
    connId ∈ s.openConns ∧
      (config.heartbeatTimeoutMs.toNat : ℤ) ≤ nowMs - valueAt s.connections connId 0

/-- `HeartbeatLoop`, without the calls of the idle timeout handler. -/
def heartbeatLoop (order : VisitOrder ConnectionId ℤ) (nowMs : ℤ) : ServerThreads :=
  match s.heartbeatThread with
  | .test => { s with heartbeatThread := if s.running then .sleep else .ended }
  | .sleep => { s with heartbeatThread := if s.running then .look else .ended }
  | .look =>
    if s.mutexHeld then s
    else { s with heartbeatThread := .close (s.idleConns config order nowMs) }
  | .close [] => { s with heartbeatThread := .test }
  | .close (connId :: idleConns) =>
    if connId ∈ s.openConns then
      { s.close connId with heartbeatThread := .closeHandler connId idleConns }
    else { s with heartbeatThread := .close idleConns }
  | .closeHandler connId idleConns =>
    if s.mutexHeld then s
    else { s.closeHandler connId with heartbeatThread := .close idleConns }
  | .ended => s

/-- The call of `Stop`. -/
def stop : ServerThreads :=
  if s.stopping = .outside then { s with running := false, stopping := .closeListenFd } else s

/-- `Stop` goes on. It waits for the mutex, and for a thread that has not ended. -/
def stopStep (order : VisitOrder ConnectionId ℤ) : ServerThreads :=
  match s.stopping with
  | .outside => s
  | .closeListenFd => { s with listening := false, stopping := .closeEpollFd }
  -- an `epoll_wait` that has begun may still return events
  | .closeEpollFd => { s with stopping := .takeConnections }
  | .takeConnections =>
    if s.mutexHeld then s
    else { s with connections := ∅, stopping := .close (order.visit s.connections) }
  | .close [] => { s with stopping := .joinAccept }
  | .close (connId :: connsToClose) =>
    if connId ∈ s.openConns then
      { s.close connId with stopping := .closeHandler connId connsToClose }
    else { s with stopping := .close connsToClose }
  | .closeHandler connId connsToClose =>
    if s.mutexHeld then s
    else { s.closeHandler connId with stopping := .close connsToClose }
  | .joinAccept => if s.acceptThread = .ended then { s with stopping := .joinEvent } else s
  | .joinEvent => if s.eventThread = .ended then { s with stopping := .joinHeartbeat } else s
  | .joinHeartbeat => if s.heartbeatThread = .ended then { s with stopping := .outside } else s

/-- The threads as a machine. -/
def serverThreads : StepMachine ServerThreads ServerThreadsOp Unit where
  step s op := (match op with
    | .start => s.start config
    | .stop => s.stop
    | .acceptLoop answer nowMs => s.acceptLoop answer nowMs
    | .eventLoop ready course nowMs => s.eventLoop ready course nowMs
    | .heartbeatLoop order nowMs => s.heartbeatLoop config order nowMs
    | .stopStep order => s.stopStep order, ())

/-! ### Every open connection is held somewhere -/

end ServerThreads

/-- The connection that `AcceptLoop` has yet to insert. -/
def AcceptPoint.inserting : AcceptPoint → List ConnectionId
  | .insert connId _ => [connId]
  | _ => []

/-- The connection whose close handler the thread has yet to call. -/
def EventPoint.closing : EventPoint → List ConnectionId
  | .closeHandler connId _ => [connId]
  | _ => []

/-- The same for `HeartbeatLoop`. -/
def HeartbeatPoint.closing : HeartbeatPoint → List ConnectionId
  | .closeHandler connId _ => [connId]
  | _ => []

/-- The same for `Stop`. -/
def StopPoint.closing : StopPoint → List ConnectionId
  | .closeHandler connId _ => [connId]
  | _ => []

/-- The connections that `Stop` has yet to close. -/
def StopPoint.toClose : StopPoint → List ConnectionId
  | .close connsToClose => connsToClose
  | .closeHandler _ connsToClose => connsToClose
  | _ => []

namespace ServerThreads

variable {config : BrokerConfig} {s s' : ServerThreads}

/-- The connections whose close handlers are yet to be called. -/
def closing (s : ServerThreads) : List ConnectionId :=
  s.eventThread.closing ++ s.heartbeatThread.closing ++ s.stopping.closing

/-- Somebody still has the connection to close it. -/
def Held (s : ServerThreads) (connId : ConnectionId) : Prop :=
  connId ∈ s.connections ∨ connId ∈ s.acceptThread.inserting ∨ connId ∈ s.stopping.toClose

/-- Open connections are held, and those that are being closed are closed for good. -/
structure Tracked (s : ServerThreads) : Prop where
  nodup : s.openConns.Nodup
  lt : ∀ connId ∈ s.openConns, connId < s.nextConnId
  closing : ∀ connId ∈ s.closing, connId ∉ s.openConns ∧ connId < s.nextConnId
  held : ∀ connId ∈ s.openConns, s.Held connId

theorem tracked_new : Tracked {} where
  nodup := List.nodup_nil
  lt := List.forall_mem_nil _
  closing := List.forall_mem_nil _
  held := List.forall_mem_nil _

/-- A step that accepts nothing. -/
theorem Tracked.of_sublist (hs : Tracked s) (hopen : s'.openConns.Sublist s.openConns)
    (hnext : s'.nextConnId = s.nextConnId)
    (hclosing : ∀ connId ∈ s'.closing,
      connId ∈ s.closing ∨ connId ∈ s.openConns ∧ connId ∉ s'.openConns)
    (hheld : ∀ connId ∈ s'.openConns, s.Held connId → s'.Held connId) : Tracked s' where
  nodup := hs.nodup.sublist hopen
  lt connId hmem := hnext ▸ hs.lt connId (hopen.subset hmem)
  closing connId hmem := by
    rw [hnext]
    rcases hclosing connId hmem with hold | ⟨hold, hclosed⟩
    · exact (hs.closing connId hold).imp_left fun hnot hnew => hnot (hopen.subset hnew)
    · exact ⟨hclosed, hs.lt connId hold⟩
  held connId hmem := hheld connId hmem (hs.held connId (hopen.subset hmem))

/-- A step that neither opens nor closes a connection. -/
theorem Tracked.of_eq (hs : Tracked s) (hopen : s'.openConns = s.openConns)
    (hnext : s'.nextConnId = s.nextConnId) (hclosing : s'.closing ⊆ s.closing)
    (hheld : ∀ connId ∈ s.openConns, s.Held connId → s'.Held connId) : Tracked s' :=
  hs.of_sublist (hopen ▸ List.Sublist.refl _) hnext (fun _ hmem => Or.inl (hclosing hmem))
    (hopen ▸ hheld)

theorem notMem_close (connId : ConnectionId) : connId ∉ (s.close connId).openConns := by
  simp [close]

theorem close_sublist (connId : ConnectionId) : (s.close connId).openConns.Sublist s.openConns :=
  List.filter_sublist

theorem Tracked.start (hs : Tracked s) (haccept : s.running = false → s.stopping = .outside →
    s.acceptThread = .ended) : Tracked (s.start config) := by
  rw [ServerThreads.start]
  split
  · next hnot =>
    refine hs.of_eq rfl rfl (fun connId hmem => ?_) fun connId _ hheld => ?_
    · have hnone : connId ∉ HeartbeatPoint.closing
          (if config.heartbeatEnabled then .test else .ended) := by
        split <;> exact List.not_mem_nil
      simp only [ServerThreads.closing, List.mem_append] at hmem ⊢
      exact hmem.imp_left fun h => absurd (h.resolve_left List.not_mem_nil) hnone
    · rw [Held, haccept hnot.1 hnot.2] at hheld
      exact hheld
  · exact hs

theorem Tracked.stop (hs : Tracked s) : Tracked s.stop := by
  rw [ServerThreads.stop]
  split
  · next houtside =>
    refine hs.of_eq rfl rfl (fun connId hmem => ?_) fun connId _ hheld => ?_
    · rw [ServerThreads.closing, houtside]
      exact hmem
    · rw [Held, houtside] at hheld
      exact hheld
  · exact hs

theorem Tracked.acceptLoop (hs : Tracked s) (answer : AcceptAnswer) (nowMs : ℤ) :
    Tracked (s.acceptLoop answer nowMs) := by
  have hnothing : ∀ point, s.acceptThread.inserting = [] →
      Tracked { s with acceptThread := point } := fun point hnone =>
    hs.of_eq rfl rfl (fun _ hmem => hmem) fun connId _ hheld => by
      rw [Held, hnone] at hheld
      exact hheld.imp_right fun h => Or.inr (h.resolve_left List.not_mem_nil)
  rw [ServerThreads.acceptLoop.eq_def]
  split
  · next hpoint => exact hnothing _ (by rw [hpoint]; rfl)
  · next hpoint =>
    have hnone : s.acceptThread.inserting = [] := by
      rw [hpoint]
      rfl
    split
    · cases answer with
      | accepted =>
        -- the new connection is the one that `AcceptLoop` inserts next
        have hfresh : s.nextConnId ∉ s.openConns := fun hmem => (hs.lt _ hmem).false
        refine ⟨List.concat_eq_append ▸ hs.nodup.concat hfresh, fun connId hmem => ?_,
          fun connId hmem => ?_, fun connId hmem => ?_⟩
        · rcases List.mem_append.mp hmem with hold | hnew
          · exact (hs.lt connId hold).trans (Nat.lt_succ_self _)
          · rw [List.mem_singleton.mp hnew]
            exact Nat.lt_succ_self _
        · obtain ⟨hclosed, hlt⟩ := hs.closing connId hmem
          refine ⟨fun hopen => ?_, hlt.trans (Nat.lt_succ_self _)⟩
          exact (List.mem_append.mp hopen).elim hclosed fun hnew =>
            hlt.ne (List.mem_singleton.mp hnew)
        · rcases List.mem_append.mp hmem with hold | hnew
          · have hheld := hs.held connId hold
            rw [Held, hnone] at hheld
            exact hheld.imp_right fun h => Or.inr (h.resolve_left List.not_mem_nil)
          · exact Or.inr (Or.inl hnew)
      | again | error => exact hnothing _ hnone
    · exact hnothing _ hnone
  · next connId nowMs hpoint =>
    split
    · exact hs
    · refine hs.of_eq rfl rfl (fun _ hmem => hmem) fun id _ hheld => ?_
      rw [Held, hpoint] at hheld
      rcases hheld with hconn | hnew | htaken
      · exact Or.inl ((AList.mem_insert _).mpr (Or.inr hconn))
      · exact Or.inl ((AList.mem_insert _).mpr (Or.inl (List.mem_singleton.mp hnew)))
      · exact Or.inr (Or.inr htaken)
  · exact hs

/-- A thread closes a connection and will call its close handler. -/
theorem Tracked.close (hs : Tracked s) {connId : ConnectionId} (hopen : connId ∈ s.openConns)
    (hconns : s'.openConns = (s.close connId).openConns) (hnext : s'.nextConnId = s.nextConnId)
    (hclosing : ∀ id ∈ s'.closing, id ∈ s.closing ∨ id = connId)
    (hheld : ∀ id, id ≠ connId → s.Held id → s'.Held id) : Tracked s' := by
  refine hs.of_sublist (hconns ▸ close_sublist connId) hnext (fun id hmem => ?_)
    fun id hmem => hheld id fun heq => ?_
  · refine (hclosing id hmem).imp_right fun heq => ?_
    rw [heq, hconns]
    exact ⟨hopen, notMem_close connId⟩
  · rw [heq, hconns] at hmem
    exact notMem_close connId hmem

/-- A close handler takes a closed connection out of `connections_`. -/
theorem Tracked.closeHandler (hs : Tracked s) {connId : ConnectionId} (hmem : connId ∈ s.closing)
    (hconns : s'.openConns = s.openConns) (hnext : s'.nextConnId = s.nextConnId)
    (hclosing : s'.closing ⊆ s.closing)
    (hconnections : s'.connections = s.connections.erase connId)
    (haccept : s'.acceptThread = s.acceptThread)
    (htoClose : s'.stopping.toClose = s.stopping.toClose) : Tracked s' := by
  refine hs.of_eq hconns hnext hclosing fun id hopen hheld => ?_
  have hne : id ≠ connId := fun heq => (hs.closing connId hmem).1 (heq ▸ hopen)
  rw [Held, hconnections, haccept, htoClose, AList.mem_erase]
  exact hheld.imp_left fun hconn => ⟨hne, hconn⟩

theorem mem_updateLastActiveTime {connId id : ConnectionId} {nowMs : ℤ} :
    id ∈ (s.updateLastActiveTime connId nowMs).connections ↔ id ∈ s.connections := by
  rw [updateLastActiveTime]
  split
  · next hmem => exact (AList.mem_insert _).trans (or_iff_right_of_imp fun heq => heq ▸ hmem)
  · exact Iff.rfl

/-- `EventLoop` goes on to a point at which it closes nothing. -/
theorem Tracked.setEventThread (hs : Tracked s) {point : EventPoint} (hnone : point.closing = []) :
    Tracked { s with eventThread := point } :=
  hs.of_eq rfl rfl (fun connId hmem => by
    simp only [ServerThreads.closing, List.mem_append] at hmem ⊢
    rw [hnone] at hmem
    exact hmem.imp_left fun h => Or.inr (h.resolve_left List.not_mem_nil))
    fun _ _ hheld => hheld

theorem Tracked.updateLastActiveTime (hs : Tracked s) (connId : ConnectionId) (nowMs : ℤ) :
    Tracked (s.updateLastActiveTime connId nowMs) :=
  hs.of_eq rfl rfl (fun _ hmem => hmem) fun _ _ hheld =>
    hheld.imp_left mem_updateLastActiveTime.mpr

/-- A push that fails closes its connection, and no close handler is called. -/
theorem Tracked.pushFails (hs : Tracked s) (connId : ConnectionId) (connIds : List ConnectionId) :
    Tracked (s.pushFails connId connIds) := by
  rw [ServerThreads.pushFails]
  split
  · next hfound =>
    refine hs.close hfound.2 rfl rfl (fun id hmem => ?_) fun id _ hheld => hheld
    simp only [ServerThreads.closing, EventPoint.closing, List.mem_append] at hmem ⊢
    exact Or.inl (hmem.imp_left fun h => Or.inr (h.resolve_left List.not_mem_nil))
  · exact hs.setEventThread rfl

theorem Tracked.eventLoop (hs : Tracked s) (ready : Option (List ConnectionId))
    (course : ReadCourse) (nowMs : ℤ) : Tracked (s.eventLoop ready course nowMs) := by
  rw [ServerThreads.eventLoop.eq_def]
  split
  · exact hs.setEventThread (by split <;> rfl)
  · split <;> exact hs.setEventThread rfl
  · exact hs.setEventThread rfl
  · exact hs.setEventThread (by split <;> rfl)
  · next connId connIds hpoint =>
    split
    · next hopen =>
      cases course with
      | returns => exact (hs.updateLastActiveTime connId nowMs).setEventThread rfl
      | closes =>
        refine hs.close hopen rfl rfl (fun id hmem => ?_) fun id _ hheld => hheld
        simp only [ServerThreads.closing, EventPoint.closing, List.mem_append,
          List.mem_singleton] at hmem ⊢
        tauto
      | pushFails target => exact (hs.updateLastActiveTime connId nowMs).pushFails target connIds
    · exact hs.setEventThread rfl
  · next connId connIds hpoint =>
    have hclosing : connId ∈ s.closing := by
      simp [ServerThreads.closing, hpoint, EventPoint.closing]
    refine hs.closeHandler hclosing rfl rfl (fun id hmem => ?_) rfl rfl rfl
    simp only [ServerThreads.closing, EventPoint.closing, ServerThreads.closeHandler,
      List.mem_append] at hmem ⊢
    exact hmem.imp_left fun h => Or.inr (h.resolve_left List.not_mem_nil)
  · next connIds hpoint =>
    cases course with
    | pushFails target => exact hs.pushFails target connIds
    | returns | closes => exact hs.setEventThread rfl
  · exact hs
  · exact hs

/-- `HeartbeatLoop` goes on to a point at which it closes nothing. -/
theorem Tracked.setHeartbeatThread (hs : Tracked s) {point : HeartbeatPoint}
    (hnone : point.closing = []) : Tracked { s with heartbeatThread := point } :=
  hs.of_eq rfl rfl (fun connId hmem => by
    simp only [ServerThreads.closing, List.mem_append] at hmem ⊢
    rw [hnone] at hmem
    exact hmem.imp_left fun h => Or.inl (h.resolve_right List.not_mem_nil))
    fun _ _ hheld => hheld

theorem Tracked.heartbeatLoop (hs : Tracked s) (order : VisitOrder ConnectionId ℤ) (nowMs : ℤ) :
    Tracked (s.heartbeatLoop config order nowMs) := by
  rw [ServerThreads.heartbeatLoop]
  split
  · exact hs.setHeartbeatThread (by split <;> rfl)
  · exact hs.setHeartbeatThread (by split <;> rfl)
  · split
    · exact hs
    · exact hs.setHeartbeatThread rfl
  · exact hs.setHeartbeatThread rfl
  · next connId idleConns hpoint =>
    split
    · next hopen =>
      refine hs.close hopen rfl rfl (fun id hmem => ?_) fun id _ hheld => hheld
      simp only [ServerThreads.closing, HeartbeatPoint.closing, List.mem_append,
        List.mem_singleton] at hmem ⊢
      tauto
    · exact hs.setHeartbeatThread rfl
  · next connId idleConns hpoint =>
    split
    · exact hs
    · have hclosing : connId ∈ s.closing := by
        simp [ServerThreads.closing, hpoint, HeartbeatPoint.closing]
      refine hs.closeHandler hclosing rfl rfl (fun id hmem => ?_) rfl rfl rfl
      simp only [ServerThreads.closing, HeartbeatPoint.closing, ServerThreads.closeHandler,
        List.mem_append] at hmem ⊢
      exact hmem.imp_left fun h => Or.inl (h.resolve_right List.not_mem_nil)
  · exact hs

/-- `Stop` goes on to a point at which it calls no close handler, with all that it has to close. -/
theorem Tracked.setStopping (hs : Tracked s) (listening : Bool) {point : StopPoint}
    (hnone : point.closing = []) (htoClose : s.stopping.toClose ⊆ point.toClose) :
    Tracked { s with listening := listening, stopping := point } :=
  hs.of_eq rfl rfl (fun connId hmem => by
    simp only [ServerThreads.closing, List.mem_append] at hmem ⊢
    rw [hnone] at hmem
    exact Or.inl (hmem.resolve_right List.not_mem_nil))
    fun _ _ hheld => hheld.imp_right (Or.imp_right fun h => htoClose h)

/-- `Stop` takes the connections. -/
theorem Tracked.takeConnections (hs : Tracked s) (order : VisitOrder ConnectionId ℤ)
    (hpoint : s.stopping = .takeConnections) :
    Tracked { s with connections := ∅, stopping := .close (order.visit s.connections) } := by
  refine hs.of_eq rfl rfl (fun connId hmem => ?_) fun connId _ hheld => ?_
  · simp only [ServerThreads.closing, StopPoint.closing, List.mem_append] at hmem ⊢
    exact Or.inl (hmem.resolve_right List.not_mem_nil)
  · rw [Held, hpoint] at hheld
    rcases hheld with hconn | hnew | htaken
    · exact Or.inr (Or.inr ((order.mem_visit _ _).mpr hconn))
    · exact Or.inr (Or.inl hnew)
    · cases htaken

/-- `Stop` comes to a connection that is open. -/
theorem Tracked.closeTaken (hs : Tracked s) {connId : ConnectionId}
    {connsToClose : List ConnectionId} (hpoint : s.stopping = .close (connId :: connsToClose))
    (hopen : connId ∈ s.openConns) :
    Tracked { s.close connId with stopping := .closeHandler connId connsToClose } := by
  refine hs.close hopen rfl rfl (fun id hmem => ?_) fun id hne hheld => ?_
  · simp only [ServerThreads.closing, StopPoint.closing, List.mem_append,
      List.mem_singleton] at hmem ⊢
    tauto
  · rw [Held, hpoint] at hheld
    exact hheld.imp_right (Or.imp_right fun h => (List.mem_cons.mp h).resolve_left hne)

/-- `Stop` comes to a connection that is closed. -/
theorem Tracked.skipTaken (hs : Tracked s) {connId : ConnectionId}
    {connsToClose : List ConnectionId} (hpoint : s.stopping = .close (connId :: connsToClose))
    (hclosed : connId ∉ s.openConns) : Tracked { s with stopping := .close connsToClose } := by
  refine hs.of_eq rfl rfl (fun id hmem => ?_) fun id hopen hheld => ?_
  · simp only [ServerThreads.closing, StopPoint.closing, List.mem_append] at hmem ⊢
    exact Or.inl (hmem.resolve_right List.not_mem_nil)
  · rw [Held, hpoint] at hheld
    refine hheld.imp_right (Or.imp_right fun h => (List.mem_cons.mp h).resolve_left ?_)
    exact fun heq => hclosed (heq ▸ hopen)

/-- `Stop` has called the close handler of a connection. -/
theorem Tracked.handleTaken (hs : Tracked s) {connId : ConnectionId}
    {connsToClose : List ConnectionId} (hpoint : s.stopping = .closeHandler connId connsToClose) :
    Tracked { s.closeHandler connId with stopping := .close connsToClose } := by
  have hclosing : connId ∈ s.closing := by
    simp [ServerThreads.closing, hpoint, StopPoint.closing]
  refine hs.closeHandler hclosing rfl rfl (fun id hmem => ?_) rfl rfl ?_
  · simp only [ServerThreads.closing, StopPoint.closing, ServerThreads.closeHandler,
      List.mem_append] at hmem ⊢
    exact Or.inl (hmem.resolve_right List.not_mem_nil)
  · rw [hpoint]
    rfl

theorem Tracked.stopStep (hs : Tracked s) (order : VisitOrder ConnectionId ℤ) :
    Tracked (s.stopStep order) := by
  -- a point with nothing to close
  have hnext : ∀ (listening : Bool) (point : StopPoint), s.stopping.toClose = [] →
      point.closing = [] → Tracked { s with listening := listening, stopping := point } :=
    fun listening point hempty hnone =>
      hs.setStopping listening hnone (hempty ▸ List.nil_subset _)
  rw [ServerThreads.stopStep]
  split
  · exact hs
  · next hpoint => exact hnext _ _ (by rw [hpoint]; rfl) rfl
  · next hpoint => exact hnext _ _ (by rw [hpoint]; rfl) rfl
  · next hpoint =>
    split
    · exact hs
    · exact hs.takeConnections order hpoint
  · next hpoint => exact hnext _ _ (by rw [hpoint]; rfl) rfl
  · next connId connsToClose hpoint =>
    split
    · next hopen => exact hs.closeTaken hpoint hopen
    · next hclosed => exact hs.skipTaken hpoint hclosed
  · next connId connsToClose hpoint =>
    split
    · exact hs
    · exact hs.handleTaken hpoint
  · next hpoint =>
    split
    · exact hnext _ _ (by rw [hpoint]; rfl) rfl
    · exact hs
  · next hpoint =>
    split
    · exact hnext _ _ (by rw [hpoint]; rfl) rfl
    · exact hs
  · next hpoint =>
    split
    · exact hnext _ _ (by rw [hpoint]; rfl) rfl
    · exact hs

theorem Tracked.step (hs : Tracked s) (haccept : s.running = false → s.stopping = .outside →
    s.acceptThread = .ended) (op : ServerThreadsOp) :
    Tracked ((serverThreads config).step s op).1 := by
  cases op with
  | start => exact hs.start haccept
  | stop => exact hs.stop
  | acceptLoop answer nowMs => exact hs.acceptLoop answer nowMs
  | eventLoop ready course nowMs => exact hs.eventLoop ready course nowMs
  | heartbeatLoop order nowMs => exact hs.heartbeatLoop order nowMs
  | stopStep order => exact hs.stopStep order

/-! ### The phases of `Stop` -/

/-- `AcceptLoop` may insert one more connection without testing `running_`. -/
def pending (s : ServerThreads) : Bool :=
  match s.acceptThread with
  | .accept | .insert _ _ => true
  | _ => false

/-- The last `Stop` has taken the connections out of `connections_`. -/
def taken (s : ServerThreads) : Bool :=
  match s.stopping with
  | .closeListenFd | .closeEpollFd | .takeConnections => false
  | _ => true

/-- What holds in the phases of `Stop`, where `running_` is false: threads that were waited for have
ended, and since the connections were taken at most one was inserted. -/
structure Phased (s : ServerThreads) : Prop where
  not_running : s.stopping ≠ .outside → s.running = false
  accept_ended : s.running = false →
    s.stopping = .joinEvent ∨ s.stopping = .joinHeartbeat ∨ s.stopping = .outside →
    s.acceptThread = .ended
  event_ended : s.running = false → s.stopping = .joinHeartbeat ∨ s.stopping = .outside →
    s.eventThread = .ended
  heartbeat_ended : s.running = false → s.stopping = .outside → s.heartbeatThread = .ended
  empty : s.running = false → s.taken = true → s.pending = true → ∀ connId, connId ∉ s.connections
  one : s.running = false → s.taken = true →
    ∀ connId ∈ s.connections, ∀ connId' ∈ s.connections, connId = connId'

theorem phased_new : Phased {} where
  not_running hne := absurd rfl hne
  accept_ended _ _ := rfl
  event_ended _ _ := rfl
  heartbeat_ended _ _ := rfl
  empty _ _ _ _ := AList.notMem_empty _
  one _ _ _ hmem := absurd hmem (AList.notMem_empty _)

/-- A step of `EventLoop` or `HeartbeatLoop`. -/
theorem Phased.of_subset (hs : Phased s) (hrunning : s'.running = s.running)
    (hstopping : s'.stopping = s.stopping) (haccept : s'.acceptThread = s.acceptThread)
    (hevent : s.eventThread = .ended → s'.eventThread = .ended)
    (hheartbeat : s.heartbeatThread = .ended → s'.heartbeatThread = .ended)
    (hconns : ∀ connId, connId ∈ s'.connections → connId ∈ s.connections) : Phased s' := by
  have htaken : s'.taken = s.taken := by rw [taken, taken, hstopping]
  have hpending : s'.pending = s.pending := by rw [pending, pending, haccept]
  constructor
  · rw [hstopping, hrunning]
    exact hs.not_running
  · rw [hstopping, hrunning, haccept]
    exact hs.accept_ended
  · rw [hstopping, hrunning]
    exact fun hnot hpoint => hevent (hs.event_ended hnot hpoint)
  · rw [hstopping, hrunning]
    exact fun hnot hpoint => hheartbeat (hs.heartbeat_ended hnot hpoint)
  · rw [hrunning, htaken, hpending]
    exact fun hnot htook hpend connId hmem => hs.empty hnot htook hpend connId (hconns connId hmem)
  · rw [hrunning, htaken]
    exact fun hnot htook connId hmem connId' hmem' =>
      hs.one hnot htook connId (hconns connId hmem) connId' (hconns connId' hmem')

/-- So much does a push that fails leave as it was. -/
theorem pushFails_frame (connId : ConnectionId) (connIds : List ConnectionId) :
    (s.pushFails connId connIds).running = s.running ∧
      (s.pushFails connId connIds).stopping = s.stopping ∧
      (s.pushFails connId connIds).acceptThread = s.acceptThread ∧
      (s.pushFails connId connIds).heartbeatThread = s.heartbeatThread ∧
      (s.pushFails connId connIds).connections = s.connections := by
  rw [pushFails]
  split <;> exact ⟨rfl, rfl, rfl, rfl, rfl⟩

/-- `EventLoop` touches nothing but its own point, the connections and their times. -/
theorem eventLoop_frame (ready : Option (List ConnectionId)) (course : ReadCourse) (nowMs : ℤ) :
    (s.eventLoop ready course nowMs).running = s.running ∧
      (s.eventLoop ready course nowMs).stopping = s.stopping ∧
      (s.eventLoop ready course nowMs).acceptThread = s.acceptThread ∧
      (s.eventLoop ready course nowMs).heartbeatThread = s.heartbeatThread ∧
      ∀ connId, connId ∈ (s.eventLoop ready course nowMs).connections → connId ∈ s.connections := by
  rw [eventLoop.eq_def]
  split
  · exact ⟨rfl, rfl, rfl, rfl, fun _ hmem => hmem⟩
  · split <;> exact ⟨rfl, rfl, rfl, rfl, fun _ hmem => hmem⟩
  · exact ⟨rfl, rfl, rfl, rfl, fun _ hmem => hmem⟩
  · exact ⟨rfl, rfl, rfl, rfl, fun _ hmem => hmem⟩
  · next connId connIds hpoint =>
    split
    · cases course with
      | returns => exact ⟨rfl, rfl, rfl, rfl, fun _ => mem_updateLastActiveTime.mp⟩
      | closes => exact ⟨rfl, rfl, rfl, rfl, fun _ hmem => hmem⟩
      | pushFails target =>
        obtain ⟨hrunning, hstopping, haccept, hheartbeat, hconns⟩ :=
          (s.updateLastActiveTime connId nowMs).pushFails_frame target connIds
        exact ⟨hrunning, hstopping, haccept, hheartbeat, fun id hmem =>
          mem_updateLastActiveTime.mp (hconns ▸ hmem)⟩
    · exact ⟨rfl, rfl, rfl, rfl, fun _ hmem => hmem⟩
  · exact ⟨rfl, rfl, rfl, rfl, fun _ hmem => (AList.mem_erase.mp hmem).2⟩
  · next connIds hpoint =>
    cases course with
    | pushFails target =>
      obtain ⟨hrunning, hstopping, haccept, hheartbeat, hconns⟩ := s.pushFails_frame target connIds
      exact ⟨hrunning, hstopping, haccept, hheartbeat, fun id hmem => hconns ▸ hmem⟩
    | returns | closes => exact ⟨rfl, rfl, rfl, rfl, fun _ hmem => hmem⟩
  · exact ⟨rfl, rfl, rfl, rfl, fun _ hmem => hmem⟩
  · exact ⟨rfl, rfl, rfl, rfl, fun _ hmem => hmem⟩

/-- So does `HeartbeatLoop`. -/
theorem heartbeatLoop_frame (order : VisitOrder ConnectionId ℤ) (nowMs : ℤ) :
    (s.heartbeatLoop config order nowMs).running = s.running ∧
      (s.heartbeatLoop config order nowMs).stopping = s.stopping ∧
      (s.heartbeatLoop config order nowMs).acceptThread = s.acceptThread ∧
      (s.heartbeatLoop config order nowMs).eventThread = s.eventThread ∧
      ∀ connId, connId ∈ (s.heartbeatLoop config order nowMs).connections →
        connId ∈ s.connections := by
  rw [heartbeatLoop]
  split
  · exact ⟨rfl, rfl, rfl, rfl, fun _ hmem => hmem⟩
  · exact ⟨rfl, rfl, rfl, rfl, fun _ hmem => hmem⟩
  · split <;> exact ⟨rfl, rfl, rfl, rfl, fun _ hmem => hmem⟩
  · exact ⟨rfl, rfl, rfl, rfl, fun _ hmem => hmem⟩
  · split <;> exact ⟨rfl, rfl, rfl, rfl, fun _ hmem => hmem⟩
  · split
    · exact ⟨rfl, rfl, rfl, rfl, fun _ hmem => hmem⟩
    · exact ⟨rfl, rfl, rfl, rfl, fun _ hmem => (AList.mem_erase.mp hmem).2⟩
  · exact ⟨rfl, rfl, rfl, rfl, fun _ hmem => hmem⟩

theorem eventLoop_ended (h : s.eventThread = .ended) (ready : Option (List ConnectionId))
    (course : ReadCourse) (nowMs : ℤ) : s.eventLoop ready course nowMs = s := by
  rw [eventLoop.eq_def, h]

theorem heartbeatLoop_ended (h : s.heartbeatThread = .ended) (order : VisitOrder ConnectionId ℤ)
    (nowMs : ℤ) : s.heartbeatLoop config order nowMs = s := by
  rw [heartbeatLoop, h]

theorem acceptLoop_ended (h : s.acceptThread = .ended) (answer : AcceptAnswer) (nowMs : ℤ) :
    s.acceptLoop answer nowMs = s := by
  rw [acceptLoop.eq_def, h]

theorem Phased.eventLoop (hs : Phased s) (ready : Option (List ConnectionId))
    (course : ReadCourse) (nowMs : ℤ) : Phased (s.eventLoop ready course nowMs) := by
  obtain ⟨hrunning, hstopping, haccept, hheartbeat, hconns⟩ :=
    s.eventLoop_frame ready course nowMs
  exact hs.of_subset hrunning hstopping haccept
    (fun h => by rw [eventLoop_ended h, h]) (fun h => hheartbeat.trans h) hconns

theorem Phased.heartbeatLoop (hs : Phased s) (order : VisitOrder ConnectionId ℤ) (nowMs : ℤ) :
    Phased (s.heartbeatLoop config order nowMs) := by
  obtain ⟨hrunning, hstopping, haccept, hevent, hconns⟩ :=
    heartbeatLoop_frame order nowMs
  exact hs.of_subset hrunning hstopping haccept (fun h => hevent.trans h)
    (fun h => by rw [heartbeatLoop_ended h, h]) hconns

theorem Phased.start (hs : Phased s) : Phased (s.start config) := by
  rw [ServerThreads.start]
  split
  · next hnot =>
    exact
      { not_running := fun hne => absurd hnot.2 hne
        accept_ended := fun h => by cases h
        event_ended := fun h => by cases h
        heartbeat_ended := fun h => by cases h
        empty := fun h => by cases h
        one := fun h => by cases h }
  · exact hs

theorem Phased.stop (hs : Phased s) : Phased s.stop := by
  rw [ServerThreads.stop]
  split
  · exact
      { not_running := fun _ => rfl
        accept_ended := fun _ h => by simp at h
        event_ended := fun _ h => by simp at h
        heartbeat_ended := fun _ h => by cases h
        empty := fun _ h => by cases h
        one := fun _ h => by cases h }
  · exact hs

theorem Phased.acceptLoop (hs : Phased s) (answer : AcceptAnswer) (nowMs : ℤ) :
    Phased (s.acceptLoop answer nowMs) := by
  -- a thread that was waited for does nothing any more
  have hended : ∀ point, s.running = false → s.acceptThread ≠ .ended →
      s.stopping = .joinEvent ∨ s.stopping = .joinHeartbeat ∨ s.stopping = .outside →
      point = AcceptPoint.ended := fun point hnot hne hpoint =>
    absurd (hs.accept_ended hnot hpoint) hne
  have hquiet : ∀ point, s.acceptThread ≠ .ended → (s.running = false →
      pending { s with acceptThread := point } = true → s.pending = true) →
      Phased { s with acceptThread := point } := fun point hne hpend =>
    { hs with
      accept_ended := fun hnot => hended point hnot hne
      empty := fun hnot htook hnow => hs.empty hnot htook (hpend hnot hnow) }
  rw [ServerThreads.acceptLoop.eq_def]
  split
  · next hpoint =>
    refine hquiet _ (by simp [hpoint]) fun hnot hnow => ?_
    rw [hnot] at hnow
    cases hnow
  · next hpoint =>
    have hne : s.acceptThread ≠ .ended := by simp [hpoint]
    have hpend : s.pending = true := by rw [pending, hpoint]
    split
    · cases answer with
      | accepted =>
        exact { hs with
          accept_ended := fun hnot => hended _ hnot hne
          empty := fun hnot htook _ => hs.empty hnot htook hpend }
      | again | error => exact hquiet _ hne fun _ _ => hpend
    · exact hquiet _ hne fun _ _ => hpend
  · next connId nowMs hpoint =>
    have hne : s.acceptThread ≠ .ended := by simp [hpoint]
    have hpend : s.pending = true := by rw [pending, hpoint]
    split
    · exact hs
    · refine { hs with
        accept_ended := fun hnot => hended _ hnot hne
        empty := fun _ _ hnow => by cases hnow
        one := fun hnot htook id hmem id' hmem' => ?_ }
      -- nothing was there before
      have hnone := hs.empty hnot htook hpend
      rw [((AList.mem_insert _).mp hmem).resolve_right (hnone id),
        ((AList.mem_insert _).mp hmem').resolve_right (hnone id')]
  · exact hs

/-- `Stop` goes on to another point. A point behind a join comes with the end of the thread. -/
theorem Phased.setStopping (hs : Phased s) (listening : Bool) {point : StopPoint}
    (hunder : s.stopping ≠ .outside)
    (htook : taken { s with stopping := point } = true → s.taken = true)
    (haccept : point = .joinEvent ∨ point = .joinHeartbeat ∨ point = .outside →
      s.acceptThread = .ended)
    (hevent : point = .joinHeartbeat ∨ point = .outside → s.eventThread = .ended)
    (hheartbeat : point = .outside → s.heartbeatThread = .ended) :
    Phased { s with listening := listening, stopping := point } where
  not_running _ := hs.not_running hunder
  accept_ended _ := haccept
  event_ended _ := hevent
  heartbeat_ended _ := hheartbeat
  empty hnot h := hs.empty hnot (htook h)
  one hnot h := hs.one hnot (htook h)

/-- `Stop` takes the connections. -/
theorem Phased.takeConnections (hs : Phased s) (order : VisitOrder ConnectionId ℤ)
    (hpoint : s.stopping = .takeConnections) :
    Phased { s with connections := ∅, stopping := .close (order.visit s.connections) } where
  not_running _ := hs.not_running (by simp [hpoint])
  accept_ended _ h := by simp at h
  event_ended _ h := by simp at h
  heartbeat_ended _ h := by cases h
  empty _ _ _ := AList.notMem_empty
  one _ _ _ hmem := absurd hmem (AList.notMem_empty _)

/-- `Stop` closes what it has taken. -/
theorem Phased.setClose (hs : Phased s) (htook : s.taken = true) (hunder : s.stopping ≠ .outside)
    {point : StopPoint} (hpoint : point ≠ .joinEvent ∧ point ≠ .joinHeartbeat ∧ point ≠ .outside) :
    Phased { s with stopping := point } :=
  hs.setStopping s.listening hunder (fun _ => htook) (fun h => absurd h (by simp [hpoint]))
    (fun h => absurd h (by simp [hpoint])) fun h => absurd h hpoint.2.2

theorem Phased.stopStep (hs : Phased s) (order : VisitOrder ConnectionId ℤ) :
    Phased (s.stopStep order) := by
  have hearly : ∀ (listening : Bool) (point : StopPoint), s.stopping ≠ .outside →
      (point = .closeEpollFd ∨ point = .takeConnections) →
      Phased { s with listening := listening, stopping := point } :=
    fun listening point hunder hpoint => by
      rcases hpoint with rfl | rfl <;>
        exact hs.setStopping listening hunder (fun h => by cases h) (by simp) (by simp) (by simp)
  rw [ServerThreads.stopStep]
  split
  · exact hs
  · next hpoint => exact hearly _ _ (by simp [hpoint]) (Or.inl rfl)
  · next hpoint => exact hearly _ _ (by simp [hpoint]) (Or.inr rfl)
  · next hpoint =>
    split
    · exact hs
    · exact hs.takeConnections order hpoint
  · next hpoint => exact hs.setClose (by rw [taken, hpoint]) (by simp [hpoint]) (by simp)
  · next connId connsToClose hpoint =>
    have htook : s.taken = true := by rw [taken, hpoint]
    split
    · have hnext : Phased { s with stopping := .closeHandler connId connsToClose } :=
        hs.setClose htook (by simp [hpoint]) (by simp)
      exact { hnext with }
    · exact hs.setClose htook (by simp [hpoint]) (by simp)
  · next connId connsToClose hpoint =>
    split
    · exact hs
    · have hnext : Phased { s with stopping := .close connsToClose } :=
        hs.setClose (by rw [taken, hpoint]) (by simp [hpoint]) (by simp)
      exact hnext.of_subset rfl rfl rfl (fun h => h) (fun h => h)
        fun _ hmem => (AList.mem_erase.mp hmem).2
  · next hpoint =>
    split
    · next hended =>
      exact hs.setStopping _ (by simp [hpoint]) (fun _ => by rw [taken, hpoint])
        (fun _ => hended) (by simp) (by simp)
    · exact hs
  · next hpoint =>
    split
    · next hended =>
      have hnot : s.running = false := hs.not_running (by simp [hpoint])
      exact hs.setStopping _ (by simp [hpoint]) (fun _ => by rw [taken, hpoint])
        (fun _ => hs.accept_ended hnot (by simp [hpoint])) (fun _ => hended) (by simp)
    · exact hs
  · next hpoint =>
    split
    · next hended =>
      have hnot : s.running = false := hs.not_running (by simp [hpoint])
      exact hs.setStopping _ (by simp [hpoint]) (fun _ => by rw [taken, hpoint])
        (fun _ => hs.accept_ended hnot (by simp [hpoint]))
        (fun _ => hs.event_ended hnot (by simp [hpoint])) fun _ => hended
    · exact hs

theorem Phased.step (hs : Phased s) (op : ServerThreadsOp) :
    Phased ((serverThreads config).step s op).1 := by
  cases op with
  | start => exact hs.start
  | stop => exact hs.stop
  | acceptLoop answer nowMs => exact hs.acceptLoop answer nowMs
  | eventLoop ready course nowMs => exact hs.eventLoop ready course nowMs
  | heartbeatLoop order nowMs => exact hs.heartbeatLoop order nowMs
  | stopStep order => exact hs.stopStep order

/-! ### What a `Stop` leaves open -/

/-- The server does not run, and no `Stop` is under way. -/
def Stopped (s : ServerThreads) : Prop := s.running = false ∧ s.stopping = .outside

instance (s : ServerThreads) : Decidable s.Stopped := inferInstanceAs (Decidable (_ ∧ _))

/-- Open connections are held, and the phases of `Stop` are in order. -/
def Sound (s : ServerThreads) : Prop := s.Tracked ∧ s.Phased

theorem Sound.run (hs : Sound s) (ops : List ServerThreadsOp) :
    Sound ((serverThreads config).run s ops) :=
  (serverThreads config).run_induction hs
    (fun _ op hs => ⟨hs.1.step (fun hnot hpoint => hs.2.accept_ended hnot (by simp [hpoint])) op,
      hs.2.step op⟩) ops

theorem sound_run (ops : List ServerThreadsOp) : Sound ((serverThreads config).run {} ops) :=
  Sound.run ⟨tracked_new, phased_new⟩ ops

/-- After a `Stop` the open connections are in `connections_`. -/
theorem Tracked.mem_connections (hs : Tracked s) (haccept : s.acceptThread = .ended)
    (hstopping : s.stopping = .outside) {connId : ConnectionId} (hopen : connId ∈ s.openConns) :
    connId ∈ s.connections := by
  have hheld := hs.held connId hopen
  rw [Held, haccept, hstopping] at hheld
  exact hheld.resolve_right fun h => h.elim List.not_mem_nil List.not_mem_nil

/-- After a `Stop` one connection is open at most. -/
theorem Sound.length_openConns_le (hs : Sound s) (hstopped : s.Stopped) :
    s.openConns.length ≤ 1 := by
  have haccept := hs.2.accept_ended hstopped.1 (by simp [hstopped.2])
  have hone : ∀ connId ∈ s.openConns, ∀ connId' ∈ s.openConns, connId = connId' :=
    fun connId hopen connId' hopen' =>
      hs.2.one hstopped.1 (by rw [taken, hstopped.2]) connId
        (hs.1.mem_connections haccept hstopped.2 hopen) connId'
        (hs.1.mem_connections haccept hstopped.2 hopen')
  have hnodup := hs.1.nodup
  generalize s.openConns = openConns at hone hnodup ⊢
  rcases openConns with - | ⟨connId, - | ⟨connId', rest⟩⟩
  · exact Nat.zero_le 1
  · exact le_refl 1
  · have heq := hone connId (by simp) connId' (by simp)
    rw [heq, List.nodup_cons] at hnodup
    exact absurd List.mem_cons_self hnodup.1

/-- A `Stop` was called when `AcceptLoop` had ended: once it has taken the connections, none is
left in `connections_`. -/
structure Emptying (s : ServerThreads) : Prop where
  not_running : s.running = false
  accept_ended : s.acceptThread = .ended
  empty : s.taken = true → ∀ connId, connId ∉ s.connections

/-- `Stop` takes the connections, or leaves at most those that there are. -/
theorem stopStep_frame (order : VisitOrder ConnectionId ℤ) :
    (s.stopStep order).running = s.running ∧ (s.stopStep order).acceptThread = s.acceptThread ∧
      ((s.stopStep order).taken = true → ∀ connId, connId ∈ (s.stopStep order).connections →
        s.taken = true ∧ connId ∈ s.connections) := by
  rw [stopStep]
  split
  · exact ⟨rfl, rfl, fun h _ hmem => ⟨h, hmem⟩⟩
  · exact ⟨rfl, rfl, fun h => by cases h⟩
  · exact ⟨rfl, rfl, fun h => by cases h⟩
  · split
    · exact ⟨rfl, rfl, fun h _ hmem => ⟨h, hmem⟩⟩
    · exact ⟨rfl, rfl, fun _ _ hmem => absurd hmem (AList.notMem_empty _)⟩
  · next hpoint => exact ⟨rfl, rfl, fun _ _ hmem => ⟨by rw [taken, hpoint], hmem⟩⟩
  · next hpoint =>
    split <;> exact ⟨rfl, rfl, fun _ _ hmem => ⟨by rw [taken, hpoint], hmem⟩⟩
  · next hpoint =>
    split
    · exact ⟨rfl, rfl, fun h _ hmem => ⟨h, hmem⟩⟩
    · exact ⟨rfl, rfl, fun _ _ hmem => ⟨by rw [taken, hpoint], (AList.mem_erase.mp hmem).2⟩⟩
  · next hpoint =>
    split <;> exact ⟨rfl, rfl, fun _ _ hmem => ⟨by rw [taken, hpoint], hmem⟩⟩
  · next hpoint =>
    split <;> exact ⟨rfl, rfl, fun _ _ hmem => ⟨by rw [taken, hpoint], hmem⟩⟩
  · next hpoint =>
    split <;> exact ⟨rfl, rfl, fun _ _ hmem => ⟨by rw [taken, hpoint], hmem⟩⟩

end ServerThreads

/-- Is it a `Start`? -/
def ServerThreadsOp.isStart : ServerThreadsOp → Bool
  | .start => true
  | _ => false

namespace ServerThreads

theorem Emptying.step (hs : Emptying s) {op : ServerThreadsOp} (hop : op.isStart = false) :
    Emptying ((serverThreads config).step s op).1 := by
  have hloop : ∀ s' : ServerThreads, s'.running = s.running → s'.stopping = s.stopping →
      s'.acceptThread = s.acceptThread →
      (∀ connId, connId ∈ s'.connections → connId ∈ s.connections) → Emptying s' :=
    fun s' hrunning hstopping haccept hconns =>
      { not_running := hrunning.trans hs.not_running
        accept_ended := haccept.trans hs.accept_ended
        empty := fun htook connId hmem => by
          rw [taken, hstopping] at htook
          exact hs.empty htook connId (hconns connId hmem) }
  cases op with
  | start => cases hop
  | stop =>
    change Emptying s.stop
    rw [stop]
    split
    · exact ⟨rfl, hs.accept_ended, fun htook => by cases htook⟩
    · exact hs
  | acceptLoop answer nowMs =>
    change Emptying (s.acceptLoop answer nowMs)
    rw [acceptLoop_ended hs.accept_ended]
    exact hs
  | eventLoop ready course nowMs =>
    obtain ⟨hrunning, hstopping, haccept, -, hconns⟩ := s.eventLoop_frame ready course nowMs
    exact hloop _ hrunning hstopping haccept hconns
  | heartbeatLoop order nowMs =>
    obtain ⟨hrunning, hstopping, haccept, -, hconns⟩ := heartbeatLoop_frame order nowMs
    exact hloop _ hrunning hstopping haccept hconns
  | stopStep order =>
    obtain ⟨hrunning, haccept, htaken⟩ := s.stopStep_frame order
    exact
      { not_running := hrunning.trans hs.not_running
        accept_ended := haccept.trans hs.accept_ended
        empty := fun htook connId hmem => by
          obtain ⟨hbefore, hold⟩ := htaken htook connId hmem
          exact hs.empty hbefore connId hold }

/-- **Stopping the server.** In every run of the threads and of the calls of `Start` and `Stop`,
when the server does not run and no `Stop` is under way, its threads have ended and at most one
connection is open. This one is still in `connections_`, and a `Stop` that is called then, whatever
happens until it returns, leaves no connection open. -/
theorem stop_closes (config : BrokerConfig) (ops : List ServerThreadsOp) :
    let s := (serverThreads config).run {} ops
    s.Stopped →
      s.acceptThread = .ended ∧ s.eventThread = .ended ∧ s.heartbeatThread = .ended ∧
      s.openConns.length ≤ 1 ∧ (∀ connId ∈ s.openConns, connId ∈ s.connections) ∧
      ∀ ops', (∀ op ∈ ops', op.isStart = false) →
        let s' := (serverThreads config).run s (.stop :: ops')
        s'.Stopped → s'.openConns = [] := by
  intro s hstopped
  have hs : Sound s := sound_run ops
  have haccept := hs.2.accept_ended hstopped.1 (by simp [hstopped.2])
  refine ⟨haccept, hs.2.event_ended hstopped.1 (Or.inr hstopped.2),
    hs.2.heartbeat_ended hstopped.1 hstopped.2, hs.length_openConns_le hstopped,
    fun connId hopen => hs.1.mem_connections haccept hstopped.2 hopen, fun ops' hops => ?_⟩
  intro s' hagain
  have hs' : Sound s' := hs.run (.stop :: ops')
  have hcalled : Emptying ((serverThreads config).step s .stop).1 := by
    change Emptying s.stop
    rw [stop, if_pos hstopped.2]
    exact ⟨rfl, haccept, fun htook => by cases htook⟩
  have hemptied : Emptying s' :=
    (serverThreads config).run_induction_of hcalled (fun _ _ hs hop => hs.step hop) hops
  refine List.eq_nil_iff_forall_not_mem.mpr fun connId hopen => ?_
  refine hemptied.empty (by rw [taken, hagain.2]) connId ?_
  exact hs'.1.mem_connections hemptied.accept_ended hagain.2 hopen

/-- A connection is accepted while `Stop` is called, and inserted when the others were taken. -/
def lateRun : List ServerThreadsOp :=
  let order := VisitOrder.entries ConnectionId ℤ
  [.start, .acceptLoop .accepted 0, .acceptLoop .accepted 0, .acceptLoop .accepted 0,
    .eventLoop none .returns 0, .acceptLoop .accepted 1, .stop, .acceptLoop .accepted 1,
    .stopStep order, .stopStep order, .stopStep order, .acceptLoop .accepted 1,
    .stopStep order, .stopStep order, .stopStep order, .stopStep order,
    .acceptLoop .accepted 1, .stopStep order, .eventLoop none .returns 1, .stopStep order,
    .heartbeatLoop order 1, .stopStep order]

/-- The `Stop` of the destructor. -/
def destructorRun : List ServerThreadsOp :=
  List.replicate 9 (.stopStep (VisitOrder.entries ConnectionId ℤ))

/-- The second connection is left open until the destructor. -/
theorem stop_closes_lateRun :
    let s := (serverThreads {}).run {} lateRun
    s.openConns = [2] ∧ (∀ connId ∈ s.openConns, connId ∈ s.connections) ∧
      ((serverThreads {}).run s (.stop :: destructorRun)).openConns = [] := by
  obtain ⟨-, -, -, -, hconns, hagain⟩ := stop_closes {} lateRun (by decide +kernel)
  exact ⟨by decide +kernel, hconns, hagain destructorRun (by decide +kernel) (by decide +kernel)⟩

end ServerThreads

end ProtoMsgQueue
