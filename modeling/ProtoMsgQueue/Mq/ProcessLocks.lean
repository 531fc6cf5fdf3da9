import ProtoMsgQueue.Lib.LockOrder
import ProtoMsgQueue.Network.LockSafety
import ProtoMsgQueue.Storage.SharedStore

/-!
# The locks of the broker process

The threads of a broker are the accept, event and heartbeat threads of `TcpServer`, the retry and
expiration threads of `MemoryMessageStore`, and those of the application. The scripts below are
the lock guards of `tcp_server.cpp`, `connection.cpp`, `rate_limiter.h`, `topic_manager.cpp`,
`dedup_window.cpp` and `memory_message_store.cpp`, in their nesting; what a call finds, and so
which way it goes, is a parameter of its script. The frames of one `OnRead` may make any calls.

The buffers of the connections are used by the event thread alone. The other locks are taken in an
order, with one exception: when the kernel fails a push by `SendTo`, `Close` comes to the lock of
the connection map under that lock. So whatever the threads have done, all of them can still end
exactly if that did not happen (`exists_allIdle_iff`).
-/

namespace ProtoMsgQueue

/-- The mutexes of the process. -/
inductive Mutex where
  /-- A mutex of the server or of a connection's buffers. -/
  | server (l : ServerLock)
  /-- `limiter_mutex_` of a connection. -/
  | limiter (id : ConnectionId)
  /-- `mutex_` of a connection's `TokenBucket`. -/
  | bucket (id : ConnectionId)
  /-- `mutex_` of the global `TokenBucket`. -/
  | globalBucket
  /-- `mutex_` of `DedupWindow`. -/
  | dedupWindow
  /-- `mutex_` of `TopicManager`. -/
  | topicManager
  /-- `topics_mutex_`. -/
  | topics
  /-- `mutex` of a topic's object. -/
  | topic (instanceId : InstanceId)
  /-- `dlq_mutex_`. -/
  | dlq
  /-- `retry_mutex_`. -/
  | retry
  /-- `expiration_mutex_`. -/
  | expiration
deriving DecidableEq, Repr

/-- The threads of the process. -/
inductive ProcessThread where
  /-- `AcceptLoop`. -/
  | accept
  /-- `EventLoop`. -/
  | event
  /-- `HeartbeatLoop`. -/
  | heartbeat
  /-- `RetryLoop`. -/
  | retry
  /-- `ExpirationLoop`. -/
  | expiration
  /-- A thread of the application. -/
  | application (n : ℕ)
deriving DecidableEq, Repr

/-- The lock actions of a call. -/
abbrev LockScript := List (LockAction Mutex)

/-! ### The store -/

/-- A call of the store, with what it finds. -/
inductive StoreLocking where
  /-- `CreateTopic`. -/
  | createTopic
  /-- `DeleteTopic`, and whether there was the topic. -/
  | deleteTopic (existed : Bool)
  /-- `HasTopic`. -/
  | hasTopic
  /-- `Publish`: the ring buffer has no lock. -/
  | publish
  /-- `Pull`, and the object of the topic. -/
  | pull (found : Option InstanceId)
  /-- `Ack`, and the object of the topic. -/
  | ack (found : Option InstanceId)
  /-- `PullDlq`. -/
  | pullDlq
deriving DecidableEq, Repr

/-- Look a topic up, then work on its object under its lock. -/
def topicScript (found : Option InstanceId) : LockScript :=
  lockGuard .topics [] ++
    match found with
    | none => []
    | some instanceId => lockGuard (.topic instanceId) []

def StoreLocking.script : StoreLocking → LockScript
  | .createTopic => lockGuard .topics []
  | .deleteTopic existed => lockGuard .topics (if existed then lockGuard .dlq [] else [])
  | .hasTopic => lockGuard .topics []
  | .publish => lockGuard .topics []
  | .pull found => topicScript found
  | .ack found => topicScript found
  | .pullDlq => lockGuard .dlq []

/-- `ProcessPendingRetries`, with the number of messages that go to the dead-letter queue. -/
def processPendingRetriesScript (found : InstanceId × ℕ) : LockScript :=
  lockGuard (.topic found.1) ((List.range found.2).flatMap fun _ => lockGuard .dlq [])

/-- `ExpireTopicMessages`. -/
def expireTopicMessagesScript (instanceId : InstanceId) : LockScript :=
  lockGuard (.topic instanceId) []

/-! ### The server -/

/-- `Connection::Close`, and whether this call closes the connection. -/
def closeScript (closes : Bool) : LockScript :=
  if closes then lockGuard (.server .connections) [] else []

/-- What a send finds. -/
inductive Sending where
  /-- The connection was closed before. -/
  | closedBefore
  /-- The kernel took the frame, or the buffer did, or there was no room. -/
  | handed
  /-- The kernel failed; whether `Close` found the connection open. -/
  | failed (closes : Bool)
deriving DecidableEq, Repr

/-- `Connection::SendFrame`. -/
def sendFrameScript (id : ConnectionId) : Sending → LockScript
  | .closedBefore => []
  | .handed => lockGuard (.server (.writeBuffer id)) []
  | .failed closes => lockGuard (.server (.writeBuffer id)) (closeScript closes)

/-- `TcpServer::SendTo`, and what it finds if the connection is registered. -/
def sendToScript (id : ConnectionId) (found : Option Sending) : LockScript :=
  lockGuard (.server .connections)
    (match found with
    | none => []
    | some sending => sendFrameScript id sending)

/-! ### The broker -/

/-- A call that a frame handler makes. -/
inductive HandlerLocking where
  /-- `DedupWindow::IsDuplicate`, `MarkProcessed` or `GetProducerCount`. -/
  | dedupWindow
  /-- `Connection::AcquirePublishPermit`. -/
  | acquirePublishPermit (id : ConnectionId)
  /-- `Acquire` of the global bucket. -/
  | acquireGlobal
  /-- A method of `TopicManager`. -/
  | topicManager
  /-- A method of the store. -/
  | store (call : StoreLocking)
  /-- `Connection::SendFrame`. -/
  | sendFrame (id : ConnectionId) (sending : Sending)
  /-- `TcpServer::SendTo`. -/
  | sendTo (id : ConnectionId) (found : Option Sending)
deriving DecidableEq, Repr

def HandlerLocking.script : HandlerLocking → LockScript
  | .dedupWindow => lockGuard .dedupWindow []
  | .acquirePublishPermit id => lockGuard (.limiter id) (lockGuard (.bucket id) [])
  | .acquireGlobal => lockGuard .globalBucket []
  | .topicManager => lockGuard .topicManager []
  | .store call => call.script
  | .sendFrame id sending => sendFrameScript id sending
  | .sendTo id found => sendToScript id found

/-- What `OnRead` finds, after the chunks of bytes that `recv` returns. -/
inductive Reading where
  /-- The connection was closed before. -/
  | closedBefore
  /-- The end of the stream or an error; whether `Close` found the connection open. -/
  | ends (chunks : ℕ) (closes : Bool)
  /-- Nothing more to read; the calls that the frames make. -/
  | frames (chunks : ℕ) (calls : List HandlerLocking)

/-- The `recv` loop of `OnRead`. -/
def recvScript (id : ConnectionId) (chunks : ℕ) : LockScript :=
  (List.range chunks).flatMap fun _ => lockGuard (.server (.readBuffer id)) []

/-- `Connection::OnRead`. -/
def onReadScript (id : ConnectionId) : Reading → LockScript
  | .closedBefore => []
  | .ends chunks closes => recvScript id chunks ++ closeScript closes
  | .frames chunks calls =>
    recvScript id chunks ++
      lockGuard (.server (.readBuffer id)) (calls.flatMap HandlerLocking.script)

/-! ### The threads -/

/-- A turn of one of the threads. -/
inductive ProcessTurn where
  /-- `AcceptLoop` accepts a connection. -/
  | accept
  /-- `EventLoop` handles an event; the connection, if it is registered. -/
  | event (found : Option (ConnectionId × Reading))
  /-- `HeartbeatLoop`: for every idle connection, whether `Close` found it open. -/
  | heartbeat (idle : List Bool)
  /-- `RetryLoop`, after some wake-ups, with the topics it finds. -/
  | retry (wakeUps : ℕ) (found : List (InstanceId × ℕ))
  /-- `ExpirationLoop`, after some wake-ups, with the topics it finds. -/
  | expiration (wakeUps : ℕ) (found : List InstanceId)
  /-- A thread of the application uses the store. -/
  | application (n : ℕ) (call : StoreLocking)
  /-- A thread of the application stops the server: for every connection, whether `Close` found
  it open. -/
  | stop (n : ℕ) (conns : List Bool)

namespace ProcessTurn

/-- The thread of a turn. -/
def thread : ProcessTurn → ProcessThread
  | accept => .accept
  | event _ => .event
  | heartbeat _ => .heartbeat
  | retry _ _ => .retry
  | expiration _ _ => .expiration
  | application n _ => .application n
  | stop n _ => .application n

def script : ProcessTurn → LockScript
  | accept => lockGuard (.server .connections) []
  | event found =>
    lockGuard (.server .connections) [] ++
      match found with
      | none => []
      | some (id, reading) => onReadScript id reading
  | heartbeat idle =>
    lockGuard (.server .connections) [] ++
      -- the idle handler of the broker, `UnsubscribeByConnId`
      idle.flatMap (fun _ => lockGuard .topicManager []) ++
      idle.flatMap closeScript
  | retry wakeUps found =>
    -- waiting on the condition gives the lock back
    (List.range wakeUps).flatMap (fun _ => lockGuard .retry []) ++
      lockGuard .retry (lockGuard .topics [] ++ found.flatMap processPendingRetriesScript)
  | expiration wakeUps found =>
    (List.range wakeUps).flatMap (fun _ => lockGuard .expiration []) ++
      lockGuard .expiration (lockGuard .topics [] ++ found.flatMap expireTopicMessagesScript)
  | application _ call => call.script
  | stop _ conns => lockGuard (.server .connections) [] ++ conns.flatMap closeScript

end ProcessTurn

/-- Does the kernel fail a push by `SendTo` to an open connection? -/
def HandlerLocking.failsPush : HandlerLocking → Bool
  | .sendTo _ (some (.failed true)) => true
  | _ => false

/-- Does the kernel fail a push by `SendTo` during the turn? -/
def ProcessTurn.failsPush : ProcessTurn → Bool
  | .event (some (_, .frames _ calls)) => calls.any HandlerLocking.failsPush
  | _ => false

/-- What happens to the threads. -/
inductive ProcessInput where
  /-- A thread begins a turn. -/
  | start (turn : ProcessTurn)
  /-- A thread takes its next lock action, if it need not wait. -/
  | go (thread : ProcessThread)

def ProcessInput.toLockInput : ProcessInput → LockInput Mutex ProcessThread
  | start turn => .start turn.thread turn.script
  | go thread => .go thread

/-- The process. The output tells whether the input had an effect: a thread in a turn begins no
other one. -/
def brokerProcess : StepMachine (LockState Mutex ProcessThread) ProcessInput Bool where
  step st input := lockMachine.step st input.toLockInput

/-- The order of the locks. -/
def processOrder : LockOrder Mutex ProcessThread where
  owner
    | .server (.readBuffer _) => some .event
    | .server (.writeBuffer _) => some .event
    | _ => none
  rank
    | .bucket _ => 1
    | .topics => 1
    | .topic _ => 1
    | .dlq => 2
    | _ => 0

/-! ### Scripts in order -/

section Keeps

variable {i : ProcessThread} {held : Finset Mutex} {l : Mutex}

/-- No shared lock is held. -/
def OnlyOwned (held : Finset Mutex) : Prop := ∀ l ∈ held, processOrder.owner l ≠ none

theorem onlyOwned_empty : OnlyOwned ∅ := fun _ hl => absurd hl (Finset.notMem_empty _)

/-- A shared lock may be taken by a thread that holds none. -/
theorem OnlyOwned.permits (h : OnlyOwned held) (hl : processOrder.owner l = none) :
    processOrder.Permits i held l :=
  LockOrder.permits_shared hl fun l' hl' hnone => absurd hnone (h l' hl')

theorem OnlyOwned.keeps_lockGuard (h : OnlyOwned held) (hl : processOrder.owner l = none) :
    processOrder.Keeps i held (lockGuard l []) :=
  LockOrder.Keeps.guarded (h.permits hl) LockOrder.keeps_nil

/-- A shared lock may be taken under another one of a lower rank. -/
theorem OnlyOwned.permits_insert (h : OnlyOwned held) {outer : Mutex}
    (hl : processOrder.owner l = none) (hrank : processOrder.rank outer < processOrder.rank l) :
    processOrder.Permits i (insert outer held) l := by
  refine LockOrder.permits_shared hl fun l' hl' hnone => ?_
  rcases Finset.mem_insert.mp hl' with rfl | hl'
  · exact hrank
  · exact absurd hnone (h l' hl')

theorem OnlyOwned.keeps_topicScript (h : OnlyOwned held) (found : Option InstanceId) :
    processOrder.Keeps i held (topicScript found) := by
  refine (h.keeps_lockGuard rfl).append ?_
  cases found with
  | none => exact LockOrder.keeps_nil
  | some instanceId => exact h.keeps_lockGuard rfl

theorem OnlyOwned.keeps_store (h : OnlyOwned held) (call : StoreLocking) :
    processOrder.Keeps i held call.script := by
  cases call with
  | deleteTopic existed =>
    refine LockOrder.Keeps.guarded (h.permits rfl) ?_
    cases existed with
    | false => exact LockOrder.keeps_nil
    | true =>
      exact LockOrder.Keeps.guarded (h.permits_insert rfl (by decide)) LockOrder.keeps_nil
  | pull found => exact h.keeps_topicScript found
  | ack found => exact h.keeps_topicScript found
  | _ => exact h.keeps_lockGuard rfl

theorem OnlyOwned.keeps_close (h : OnlyOwned held) (closes : Bool) :
    processOrder.Keeps i held (closeScript closes) := by
  cases closes with
  | false => exact LockOrder.keeps_nil
  | true => exact h.keeps_lockGuard rfl

/-- The event thread may take the lock of a write buffer under any other lock. -/
theorem permits_writeBuffer {id : ConnectionId} (hid : .server (.writeBuffer id) ∉ held) :
    processOrder.Permits .event held (.server (.writeBuffer id)) :=
  ⟨hid, Or.inl rfl⟩

theorem OnlyOwned.keeps_sendFrame (h : OnlyOwned held) {id : ConnectionId}
    (hid : .server (.writeBuffer id) ∉ held) (sending : Sending) :
    processOrder.Keeps .event held (sendFrameScript id sending) := by
  cases sending with
  | closedBefore => exact LockOrder.keeps_nil
  | handed => exact LockOrder.Keeps.guarded (permits_writeBuffer hid) LockOrder.keeps_nil
  | failed closes =>
    have howned : OnlyOwned (insert (.server (.writeBuffer id)) held) := by
      intro l hl
      rcases Finset.mem_insert.mp hl with rfl | hl
      · exact nofun
      · exact h l hl
    exact LockOrder.Keeps.guarded (permits_writeBuffer hid) (howned.keeps_close closes)

theorem OnlyOwned.keeps_sendTo (h : OnlyOwned held) {id : ConnectionId}
    (hid : .server (.writeBuffer id) ∉ held) {found : Option Sending}
    (hfound : found ≠ some (.failed true)) :
    processOrder.Keeps .event held (sendToScript id found) := by
  refine LockOrder.Keeps.guarded (h.permits rfl) ?_
  have hid' : .server (.writeBuffer id) ∉ insert (.server .connections) held := by
    rw [Finset.mem_insert, not_or]
    exact ⟨nofun, hid⟩
  match found, hfound with
  | none, _ => exact LockOrder.keeps_nil
  | some .closedBefore, _ => exact LockOrder.keeps_nil
  | some .handed, _ =>
    exact LockOrder.Keeps.guarded (permits_writeBuffer hid') LockOrder.keeps_nil
  | some (.failed false), _ =>
    exact LockOrder.Keeps.guarded (permits_writeBuffer hid') LockOrder.keeps_nil
  | some (.failed true), hne => exact absurd rfl hne

/-- A frame handler keeps to the order unless the kernel fails a push. -/
theorem OnlyOwned.keeps_handler (h : OnlyOwned held)
    (hwrite : ∀ id, .server (.writeBuffer id) ∉ held) {call : HandlerLocking}
    (hcall : call.failsPush = false) : processOrder.Keeps .event held call.script := by
  cases call with
  | acquirePublishPermit id =>
    refine LockOrder.Keeps.guarded (h.permits rfl) ?_
    exact LockOrder.Keeps.guarded (h.permits_insert rfl one_pos) LockOrder.keeps_nil
  | store call => exact h.keeps_store call
  | sendFrame id sending => exact h.keeps_sendFrame (hwrite id) sending
  | sendTo id found =>
    refine h.keeps_sendTo (hwrite id) ?_
    rintro rfl
    cases hcall
  | _ => exact h.keeps_lockGuard rfl

end Keeps

theorem keeps_recv (id : ConnectionId) (chunks : ℕ) :
    processOrder.Keeps .event ∅ (recvScript id chunks) :=
  LockOrder.keeps_flatMap fun _ _ =>
    LockOrder.Keeps.guarded ⟨Finset.notMem_empty _, Or.inl rfl⟩ LockOrder.keeps_nil

theorem keeps_onRead (id : ConnectionId) {reading : Reading}
    (h : ∀ chunks calls, reading = .frames chunks calls →
      calls.any HandlerLocking.failsPush = false) :
    processOrder.Keeps .event ∅ (onReadScript id reading) := by
  cases reading with
  | closedBefore => exact LockOrder.keeps_nil
  | ends chunks closes => exact (keeps_recv id chunks).append (onlyOwned_empty.keeps_close closes)
  | frames chunks calls =>
    have howned : OnlyOwned (insert (.server (.readBuffer id)) ∅) := by
      intro l hl
      rw [insert_empty_eq, Finset.mem_singleton] at hl
      exact hl ▸ nofun
    have hwrite : ∀ id', .server (.writeBuffer id') ∉
        insert (Mutex.server (.readBuffer id)) (∅ : Finset Mutex) := by
      intro id' hmem
      rw [insert_empty_eq, Finset.mem_singleton] at hmem
      cases hmem
    refine (keeps_recv id chunks).append ?_
    refine LockOrder.Keeps.guarded ⟨Finset.notMem_empty _, Or.inl rfl⟩ ?_
    refine LockOrder.keeps_flatMap fun call hcall => howned.keeps_handler hwrite ?_
    exact Bool.eq_false_iff.mpr (List.any_eq_false.mp (h chunks calls rfl) call hcall)

/-- A turn keeps to the order unless the kernel fails a push. -/
theorem keeps_turn {turn : ProcessTurn} (h : turn.failsPush = false) :
    processOrder.Keeps turn.thread ∅ turn.script := by
  cases turn with
  | accept => exact onlyOwned_empty.keeps_lockGuard rfl
  | event found =>
    refine (onlyOwned_empty.keeps_lockGuard rfl).append ?_
    cases found with
    | none => exact LockOrder.keeps_nil
    | some found =>
      refine keeps_onRead found.1 fun chunks calls hframes => ?_
      obtain ⟨id, reading⟩ := found
      subst hframes
      exact h
  | heartbeat idle =>
    refine ((onlyOwned_empty.keeps_lockGuard rfl).append ?_).append ?_
    · exact LockOrder.keeps_flatMap fun _ _ => onlyOwned_empty.keeps_lockGuard rfl
    · exact LockOrder.keeps_flatMap fun closes _ => onlyOwned_empty.keeps_close closes
  | retry wakeUps found =>
    refine (LockOrder.keeps_flatMap fun _ _ => onlyOwned_empty.keeps_lockGuard rfl).append ?_
    refine LockOrder.Keeps.guarded (onlyOwned_empty.permits rfl) (LockOrder.Keeps.append ?_ ?_)
    · exact LockOrder.Keeps.guarded (onlyOwned_empty.permits_insert rfl one_pos)
        LockOrder.keeps_nil
    · refine LockOrder.keeps_flatMap fun e _ => ?_
      refine LockOrder.Keeps.guarded (onlyOwned_empty.permits_insert rfl one_pos) ?_
      refine LockOrder.keeps_flatMap fun _ _ => ?_
      refine LockOrder.Keeps.guarded (LockOrder.permits_shared rfl fun l hl _ => ?_)
        LockOrder.keeps_nil
      simp only [insert_empty_eq, Finset.mem_insert, Finset.mem_singleton] at hl
      rcases hl with rfl | rfl
      · exact Nat.one_lt_two
      · exact Nat.zero_lt_two
  | expiration wakeUps found =>
    refine (LockOrder.keeps_flatMap fun _ _ => onlyOwned_empty.keeps_lockGuard rfl).append ?_
    refine LockOrder.Keeps.guarded (onlyOwned_empty.permits rfl) (LockOrder.Keeps.append ?_ ?_)
    · exact LockOrder.Keeps.guarded (onlyOwned_empty.permits_insert rfl one_pos)
        LockOrder.keeps_nil
    · exact LockOrder.keeps_flatMap fun _ _ =>
        LockOrder.Keeps.guarded (onlyOwned_empty.permits_insert rfl one_pos) LockOrder.keeps_nil
  | application n call => exact onlyOwned_empty.keeps_store call
  | stop n conns =>
    exact (onlyOwned_empty.keeps_lockGuard rfl).append
      (LockOrder.keeps_flatMap fun closes _ => onlyOwned_empty.keeps_close closes)

/-! ### Pushes that fail -/

section Relocks

variable {held : Finset Mutex} {l : Mutex}

theorem returns_close (closes : Bool) : Returns held (closeScript closes) := by
  cases closes with
  | false => exact returns_nil
  | true => exact returns_nil.guarded

theorem returns_sendFrame (id : ConnectionId) (sending : Sending) :
    Returns held (sendFrameScript id sending) := by
  cases sending with
  | closedBefore => exact returns_nil
  | handed => exact returns_nil.guarded
  | failed closes => exact (returns_close closes).guarded

theorem returns_topicScript (found : Option InstanceId) : Returns held (topicScript found) := by
  refine returns_nil.guarded.append ?_
  cases found with
  | none => exact returns_nil
  | some instanceId => exact returns_nil.guarded

theorem returns_handler (call : HandlerLocking) : Returns held call.script := by
  cases call with
  | acquirePublishPermit id => exact returns_nil.guarded.guarded
  | store call =>
    cases call with
    | deleteTopic existed =>
      refine Returns.guarded ?_
      cases existed with
      | false => exact returns_nil
      | true => exact returns_nil.guarded
    | pull found => exact returns_topicScript found
    | ack found => exact returns_topicScript found
    | _ => exact returns_nil.guarded
  | sendFrame id sending => exact returns_sendFrame id sending
  | sendTo id found =>
    refine Returns.guarded ?_
    cases found with
    | none => exact returns_nil
    | some sending => exact returns_sendFrame id sending
  | _ => exact returns_nil.guarded

/-- A push that fails takes the lock of the connection map twice. -/
theorem relocks_handler {call : HandlerLocking} (h : call.failsPush = true) :
    Relocks held call.script := by
  match call, h with
  | .sendTo id (some (.failed true)), _ =>
    refine Relocks.guarded (Relocks.guarded (Or.inl ?_))
    exact Finset.mem_insert_of_mem (Finset.mem_insert_self _ _)

/-- A turn in which a push fails takes a lock twice. -/
theorem relocks_turn {turn : ProcessTurn} (h : turn.failsPush = true) : Relocks ∅ turn.script := by
  match turn, h with
  | .event (some (id, .frames chunks calls)), h =>
    obtain ⟨call, hcall, hfails⟩ := List.any_eq_true.mp h
    refine returns_nil.guarded _ ?_
    refine returns_flatMap (fun _ _ => returns_nil.guarded) _ (Relocks.guarded ?_)
    exact relocks_flatMap hcall (relocks_handler hfails) fun call' _ => returns_handler call'

end Relocks

/-- What a send finds in a state of the server. -/
def TcpServer.sending (st : TcpServer) (id : ConnectionId) (frame : Frame)
    (answers : List KernelAnswer) : Sending :=
  if (st.conns id).closed then .closedBefore
  else if (st.conns id).kernelFails frame answers then .failed true
  else .handed

/-- What `SendTo` finds in a state of the server. -/
def TcpServer.sendToFinds (st : TcpServer) (id : ConnectionId) (frame : Frame)
    (answers : List KernelAnswer) : Option Sending :=
  if id ∈ st.connections then some (st.sending id frame answers) else none

/-- A push fails exactly in the states of the server in which the computation `SendTo` stops at
the lock of the connection map. -/
theorem failsPush_sendToFinds_iff (st : TcpServer) (id : ConnectionId) (frame : Frame)
    (answers : List KernelAnswer) :
    (HandlerLocking.sendTo id (st.sendToFinds id frame answers)).failsPush = true ↔
      LockM.Fails (TcpServer.call (.sendTo id frame answers)) [] st .connections := by
  have hsafe : (HandlerLocking.sendTo id (st.sendToFinds id frame answers)).failsPush = true ↔
      ¬ st.safe (.sendTo id frame answers) := by
    rw [TcpServer.safe, TcpServer.sendToFinds, TcpServer.sending]
    split
    · next hid =>
      split
      · next hclosed => simp [HandlerLocking.failsPush, Connection.kernelFails, hclosed]
      · split
        · next hkernel => simp [HandlerLocking.failsPush, hid, hkernel]
        · next hkernel => simp [HandlerLocking.failsPush, hkernel]
    · next hid => simp [HandlerLocking.failsPush, hid]
  rw [hsafe]
  refine ⟨TcpServer.fails_call List.not_mem_nil (fun _ => List.not_mem_nil), fun hfails hs => ?_⟩
  obtain ⟨st', hends⟩ := TcpServer.ends_call List.not_mem_nil (fun _ => List.not_mem_nil) hs
  exact hends.not_fails hfails

/-! ### Runs of the process -/

/-- A run of the process is a run of its scripts. -/
theorem run_brokerProcess (st : LockState Mutex ProcessThread) (inputs : List ProcessInput) :
    brokerProcess.run st inputs = lockMachine.run st (inputs.map ProcessInput.toLockInput) := by
  induction inputs generalizing st with
  | nil => rfl
  | cons input inputs ih => exact ih _

theorem trace_brokerProcess (st : LockState Mutex ProcessThread) (inputs : List ProcessInput) :
    lockMachine.trace st (inputs.map ProcessInput.toLockInput) =
      (brokerProcess.trace st inputs).map fun e => ⟨e.pre, e.input.toLockInput, e.output⟩ := by
  induction inputs generalizing st with
  | nil => rfl
  | cons input inputs ih => exact congrArg _ (ih _)

/-- A turn starts a script that takes a lock twice exactly if the kernel fails a push in it. -/
theorem startsRelock_iff {pre : LockState Mutex ProcessThread} {input : ProcessInput}
    {output : Bool} : StartsRelock ⟨pre, input.toLockInput, output⟩ ↔
      ∃ turn, input = .start turn ∧ output = true ∧ turn.failsPush = true := by
  constructor
  · rintro ⟨i, script, hinput, haccepted, hrelocks⟩
    cases input with
    | go thread => cases hinput
    | start turn =>
      refine ⟨turn, rfl, haccepted, ?_⟩
      by_contra hfails
      have hkeeps := (keeps_turn (Bool.eq_false_iff.mpr hfails)).disciplined
      cases hinput
      exact hkeeps.not_relocks hrelocks
  · rintro ⟨turn, rfl, haccepted, hfails⟩
    exact ⟨turn.thread, turn.script, rfl, haccepted, relocks_turn hfails⟩

/-- **No deadlock in the broker.** Let the threads of the process have begun any turns and taken
any steps. All of them can still come to the ends of their turns exactly if no turn was begun in
which the kernel fails a push by `SendTo`; in particular some thread can go on then. -/
theorem brokerProcess_ends_iff (inputs : List ProcessInput) :
    (∃ schedule : List ProcessThread,
      (brokerProcess.run (brokerProcess.run {} inputs) (schedule.map .go)).AllIdle) ↔
    ∀ e ∈ brokerProcess.trace {} inputs, ∀ turn, e.input = .start turn → e.output = true →
      turn.failsPush = false := by
  have hscripts : ∀ i script, .start i script ∈ inputs.map ProcessInput.toLockInput →
      processOrder.Disciplined i ∅ script ∨ Relocks ∅ script := by
    intro i script hmem
    obtain ⟨input, -, hinput⟩ := List.mem_map.mp hmem
    cases input with
    | go thread => cases hinput
    | start turn =>
      cases hinput
      cases hfails : turn.failsPush with
      | false => exact Or.inl (keeps_turn hfails).disciplined
      | true => exact Or.inr (relocks_turn hfails)
  have hiff := exists_allIdle_iff processOrder hscripts
  rw [trace_brokerProcess, List.forall_mem_map] at hiff
  simp only [startsRelock_iff] at hiff
  refine Iff.trans (exists_congr fun schedule => ?_) (hiff.trans (forall₂_congr fun e _ => ?_))
  · rw [run_brokerProcess, run_brokerProcess, List.map_map]
    rfl
  · constructor
    · intro hno turn hstart haccepted
      by_contra hfails
      exact hno ⟨turn, hstart, haccepted, Bool.eq_true_of_not_eq_false hfails⟩
    · rintro hall ⟨turn, hstart, haccepted, hfails⟩
      rw [hall turn hstart haccepted] at hfails
      cases hfails

end ProtoMsgQueue
