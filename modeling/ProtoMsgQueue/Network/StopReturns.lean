import ProtoMsgQueue.Network.ServerThreads

/-!
# `Stop` returns

A thread of the server that finds `running_` cleared ends, but it may have to go through what it has
begun: the events of an `epoll_wait`, the idle connections that were found, a connection to insert.
`left` counts the steps that the threads and the caller of `Stop` have to take at most, and
`stop_returns` says that so many rounds, in which each of them comes to a step, bring `Stop` to its
end, or the event thread hangs in a push that failed. Then `Stop` never returns.
-/

namespace ProtoMsgQueue

open UnorderedMap

/-! ### What is left to do -/

/-- The steps that `AcceptLoop` takes at most when `running_` is false. -/
def AcceptPoint.left : AcceptPoint → ℕ
  | .test => 1
  | .accept => 3
  | .insert _ _ => 2
  | .ended => 0

/-- The same for `EventLoop`, which takes four for each event. -/
def EventPoint.left : EventPoint → ℕ
  | .test => 1
  | .wait => 3 + 4 * 64
  | .handle connIds => 2 + 4 * connIds.length
  | .read _ connIds => 5 + 4 * connIds.length
  | .closeHandler _ connIds => 4 + 4 * connIds.length
  | .frames connIds => 3 + 4 * connIds.length
  | .hangs => 0
  | .ended => 0

/-- The same for `HeartbeatLoop`, with so many connections to look at. -/
def HeartbeatPoint.left (conns : ℕ) : HeartbeatPoint → ℕ
  | .test => 1
  | .sleep => 1
  | .look => 3 + 2 * conns
  | .close idleConns => 2 + 2 * idleConns.length
  | .closeHandler _ idleConns => 3 + 2 * idleConns.length
  | .ended => 0

/-- The same for `Stop`, with so many connections to take. -/
def StopPoint.left (conns : ℕ) : StopPoint → ℕ
  | .outside => 0
  | .closeListenFd => 7 + 2 * conns
  | .closeEpollFd => 6 + 2 * conns
  | .takeConnections => 5 + 2 * conns
  | .close connsToClose => 4 + 2 * connsToClose.length
  | .closeHandler _ connsToClose => 5 + 2 * connsToClose.length
  | .joinAccept => 3
  | .joinEvent => 2
  | .joinHeartbeat => 1

theorem HeartbeatPoint.left_le {conns conns' : ℕ} (h : conns ≤ conns') (point : HeartbeatPoint) :
    point.left conns ≤ point.left conns' := by
  cases point <;> simp only [left] <;> omega

theorem StopPoint.left_le {conns conns' : ℕ} (h : conns ≤ conns') (point : StopPoint) :
    point.left conns ≤ point.left conns' := by
  cases point <;> simp only [left] <;> omega

/-- Is it a call of `Start` or `Stop`? -/
def ServerThreadsOp.isCall : ServerThreadsOp → Bool
  | .start | .stop => true
  | _ => false

namespace ServerThreads

variable {config : BrokerConfig} {s s' : ServerThreads}

/-- The connections that are in `connections_`, or may come to be there. -/
def conns (s : ServerThreads) : ℕ := s.connections.keys.length + s.pending.toNat

/-- The steps that are taken at most until a `Stop` returns. -/
def left (s : ServerThreads) : ℕ :=
  s.acceptThread.left + s.eventThread.left + s.heartbeatThread.left s.conns +
    s.stopping.left s.conns

/-- A step of another thread than `AcceptLoop` that inserts nothing. -/
theorem conns_le (haccept : s'.acceptThread = s.acceptThread)
    (hlength : s'.connections.keys.length ≤ s.connections.keys.length) : s'.conns ≤ s.conns := by
  rw [conns, conns, pending, pending, haccept]
  exact Nat.add_le_add_right hlength _

/-- `AcceptLoop` leaves less to do, but when it has ended or waits for the mutex. -/
theorem left_acceptLoop (hrunning : s.running = false) (answer : AcceptAnswer) (nowMs : ℤ) :
    (s.acceptLoop answer nowMs = s ∧ (s.acceptThread = .ended ∨ s.mutexHeld = true)) ∨
      (s.acceptLoop answer nowMs).left < s.left := by
  have hstep : ∀ s' : ServerThreads, s'.eventThread = s.eventThread →
      s'.heartbeatThread = s.heartbeatThread → s'.stopping = s.stopping → s'.conns ≤ s.conns →
      s'.acceptThread.left < s.acceptThread.left → s'.left < s.left :=
    fun s' hevent hheartbeat hstopping hconns hless => by
      have hheartbeatLeft := s.heartbeatThread.left_le hconns
      have hstoppingLeft := s.stopping.left_le hconns
      rw [left, left, hevent, hheartbeat, hstopping]
      omega
  rw [acceptLoop.eq_def]
  split
  · next hpoint =>
    refine Or.inr (hstep _ rfl rfl rfl ?_ ?_)
    · simp [conns, pending, hpoint, hrunning]
    · simp [hpoint, hrunning, AcceptPoint.left]
  · next hpoint =>
    refine Or.inr ?_
    split
    · cases answer <;>
        exact hstep _ rfl rfl rfl (by simp [conns, pending, hpoint])
          (by simp [hpoint, AcceptPoint.left])
    · exact hstep _ rfl rfl rfl (by simp [conns, pending, hpoint])
        (by simp [hpoint, AcceptPoint.left])
  · next connId nowMs hpoint =>
    split
    · next hheld => exact Or.inl ⟨rfl, Or.inr hheld⟩
    · refine Or.inr (hstep _ rfl rfl rfl ?_ (by simp [hpoint, AcceptPoint.left]))
      have hle := length_keys_insert_le s.connections connId nowMs
      simpa [conns, pending, hpoint] using hle
  · exact Or.inl ⟨rfl, Or.inl ‹_›⟩

theorem length_updateLastActiveTime (connId : ConnectionId) (nowMs : ℤ) :
    (s.updateLastActiveTime connId nowMs).connections.keys.length = s.connections.keys.length := by
  rw [updateLastActiveTime]
  split
  · next hmem => exact length_keys_insert_of_mem hmem nowMs
  · rfl

/-- After a push that fails no more is left than the other events. -/
theorem left_pushFails (s : ServerThreads) (connId : ConnectionId) (connIds : List ConnectionId) :
    (s.pushFails connId connIds).eventThread.left ≤ 2 + 4 * connIds.length := by
  rw [pushFails]
  split
  · exact Nat.zero_le _
  · exact le_rfl

/-- `EventLoop` leaves less to do, but when it has ended or hangs. -/
theorem left_eventLoop (hrunning : s.running = false) (ready : Option (List ConnectionId))
    (course : ReadCourse) (nowMs : ℤ) :
    (s.eventLoop ready course nowMs = s ∧ (s.eventThread = .ended ∨ s.mutexHeld = true)) ∨
      (s.eventLoop ready course nowMs).left < s.left := by
  have hstep : ∀ s' : ServerThreads, s'.acceptThread = s.acceptThread →
      s'.heartbeatThread = s.heartbeatThread → s'.stopping = s.stopping →
      s'.connections.keys.length ≤ s.connections.keys.length →
      s'.eventThread.left < s.eventThread.left → s'.left < s.left :=
    fun s' haccept hheartbeat hstopping hlength hless => by
      have hconns := conns_le haccept hlength
      have hheartbeatLeft := s.heartbeatThread.left_le hconns
      have hstoppingLeft := s.stopping.left_le hconns
      rw [left, left, haccept, hheartbeat, hstopping]
      omega
  rw [eventLoop.eq_def]
  split
  · next hpoint =>
    exact Or.inr (hstep _ rfl rfl rfl le_rfl (by simp [hpoint, hrunning, EventPoint.left]))
  · next hpoint =>
    refine Or.inr ?_
    split
    · next connIds =>
      refine hstep _ rfl rfl rfl le_rfl ?_
      have htake := List.length_take_le 64 connIds
      rw [hpoint]
      simp only [EventPoint.left]
      omega
    · exact hstep _ rfl rfl rfl le_rfl (by simp [hpoint, EventPoint.left])
  · next hpoint =>
    exact Or.inr (hstep _ rfl rfl rfl le_rfl (by simp [hpoint, EventPoint.left]))
  · next connId connIds hpoint =>
    refine Or.inr (hstep _ rfl rfl rfl le_rfl ?_)
    rw [hpoint]
    split <;> simp only [EventPoint.left, List.length_cons] <;> omega
  · next connId connIds hpoint =>
    have hupdated : (s.updateLastActiveTime connId nowMs).connections.keys.length ≤
        s.connections.keys.length := (length_updateLastActiveTime connId nowMs).le
    refine Or.inr ?_
    split
    · cases course with
      | returns => exact hstep _ rfl rfl rfl hupdated (by simp [hpoint, EventPoint.left])
      | closes => exact hstep _ rfl rfl rfl le_rfl (by simp [hpoint, EventPoint.left])
      | pushFails target =>
        obtain ⟨-, hstopping, haccept, hheartbeat, hconns⟩ :=
          (s.updateLastActiveTime connId nowMs).pushFails_frame target connIds
        refine hstep _ haccept hheartbeat hstopping (hconns ▸ hupdated) ?_
        refine ((s.updateLastActiveTime connId nowMs).left_pushFails target connIds).trans_lt ?_
        simp [hpoint, EventPoint.left]
    · exact hstep _ rfl rfl rfl le_rfl (by simp [hpoint, EventPoint.left])
  · next connId connIds hpoint =>
    refine Or.inr (hstep _ rfl rfl rfl (length_keys_erase_le _ _) ?_)
    simp [hpoint, EventPoint.left]
  · next connIds hpoint =>
    refine Or.inr ?_
    cases course with
    | pushFails target =>
      obtain ⟨-, hstopping, haccept, hheartbeat, hconns⟩ := s.pushFails_frame target connIds
      refine hstep _ haccept hheartbeat hstopping (hconns ▸ le_rfl) ?_
      exact (s.left_pushFails target connIds).trans_lt (by simp [hpoint, EventPoint.left])
    | returns | closes => exact hstep _ rfl rfl rfl le_rfl (by simp [hpoint, EventPoint.left])
  · next hpoint => exact Or.inl ⟨rfl, Or.inr (by rw [mutexHeld, hpoint]; rfl)⟩
  · exact Or.inl ⟨rfl, Or.inl ‹_›⟩

theorem length_idleConns_le (order : VisitOrder ConnectionId ℤ) (nowMs : ℤ) :
    (s.idleConns config order nowMs).length ≤ s.conns :=
  (List.length_filter_le _ _).trans (by
    rw [length_visit]
    exact Nat.le_add_right _ _)

/-- `HeartbeatLoop` leaves less to do, but when it has ended or waits for the mutex. -/
theorem left_heartbeatLoop (hrunning : s.running = false) (order : VisitOrder ConnectionId ℤ)
    (nowMs : ℤ) :
    (s.heartbeatLoop config order nowMs = s ∧
      (s.heartbeatThread = .ended ∨ s.mutexHeld = true)) ∨
      (s.heartbeatLoop config order nowMs).left < s.left := by
  have hstep : ∀ s' : ServerThreads, s'.acceptThread = s.acceptThread →
      s'.eventThread = s.eventThread → s'.stopping = s.stopping →
      s'.connections.keys.length ≤ s.connections.keys.length →
      s'.heartbeatThread.left s'.conns < s.heartbeatThread.left s.conns → s'.left < s.left :=
    fun s' haccept hevent hstopping hlength hless => by
      have hconns := conns_le haccept hlength
      have hstoppingLeft := s.stopping.left_le hconns
      rw [left, left, haccept, hevent, hstopping]
      omega
  rw [heartbeatLoop]
  split
  · next hpoint =>
    exact Or.inr (hstep _ rfl rfl rfl le_rfl (by simp [hpoint, hrunning, HeartbeatPoint.left]))
  · next hpoint =>
    exact Or.inr (hstep _ rfl rfl rfl le_rfl (by simp [hpoint, hrunning, HeartbeatPoint.left]))
  · next hpoint =>
    split
    · next hheld => exact Or.inl ⟨rfl, Or.inr hheld⟩
    · refine Or.inr (hstep _ rfl rfl rfl le_rfl ?_)
      have hidle : (s.idleConns config order nowMs).length ≤ s.conns :=
        length_idleConns_le order nowMs
      rw [hpoint]
      simp only [HeartbeatPoint.left]
      omega
  · next hpoint =>
    exact Or.inr (hstep _ rfl rfl rfl le_rfl (by simp [hpoint, HeartbeatPoint.left]))
  · next connId idleConns hpoint =>
    refine Or.inr ?_
    split <;> refine hstep _ rfl rfl rfl le_rfl ?_ <;> rw [hpoint] <;>
      simp only [HeartbeatPoint.left, List.length_cons] <;> omega
  · next connId idleConns hpoint =>
    split
    · next hheld => exact Or.inl ⟨rfl, Or.inr hheld⟩
    · refine Or.inr (hstep _ rfl rfl rfl (length_keys_erase_le _ _) ?_)
      simp [hpoint, HeartbeatPoint.left]
  · exact Or.inl ⟨rfl, Or.inl ‹_›⟩

/-- `Stop` waits for nothing but the mutex and a thread that has not ended. -/
theorem left_stopStep (order : VisitOrder ConnectionId ℤ) :
    (s.stopStep order = s ∧ (s.stopping = .outside ∨ s.acceptThread ≠ .ended ∨
      s.eventThread ≠ .ended ∨ s.heartbeatThread ≠ .ended ∨ s.mutexHeld = true)) ∨
    (s.stopStep order).left < s.left := by
  have hstep : ∀ s' : ServerThreads, s'.acceptThread = s.acceptThread →
      s'.eventThread = s.eventThread → s'.heartbeatThread = s.heartbeatThread →
      s'.connections.keys.length ≤ s.connections.keys.length →
      s'.stopping.left s'.conns < s.stopping.left s.conns → s'.left < s.left :=
    fun s' haccept hevent hheartbeat hlength hless => by
      have hconns := conns_le haccept hlength
      have hheartbeatLeft := s.heartbeatThread.left_le hconns
      rw [left, left, haccept, hevent, hheartbeat]
      omega
  rw [stopStep]
  split
  · exact Or.inl ⟨rfl, Or.inl ‹_›⟩
  · next hpoint =>
    exact Or.inr (hstep _ rfl rfl rfl le_rfl (by simp [hpoint, StopPoint.left, conns, pending]))
  · next hpoint =>
    exact Or.inr (hstep _ rfl rfl rfl le_rfl (by simp [hpoint, StopPoint.left, conns, pending]))
  · next hpoint =>
    split
    · next hheld => exact Or.inl ⟨rfl, Or.inr (Or.inr (Or.inr (Or.inr hheld)))⟩
    · refine Or.inr (hstep _ rfl rfl rfl (Nat.zero_le _) ?_)
      rw [hpoint]
      simp only [StopPoint.left, length_visit, conns]
      omega
  · next hpoint =>
    exact Or.inr (hstep _ rfl rfl rfl le_rfl (by simp [hpoint, StopPoint.left]))
  · next connId connsToClose hpoint =>
    refine Or.inr ?_
    split <;> refine hstep _ rfl rfl rfl le_rfl ?_ <;> rw [hpoint] <;>
      simp only [StopPoint.left, List.length_cons] <;> omega
  · next connId connsToClose hpoint =>
    split
    · next hheld => exact Or.inl ⟨rfl, Or.inr (Or.inr (Or.inr (Or.inr hheld)))⟩
    · refine Or.inr (hstep _ rfl rfl rfl (length_keys_erase_le _ _) ?_)
      simp [hpoint, StopPoint.left]
  · next hpoint =>
    split
    · exact Or.inr (hstep _ rfl rfl rfl le_rfl (by simp [hpoint, StopPoint.left]))
    · exact Or.inl ⟨rfl, Or.inr (Or.inl ‹_›)⟩
  · next hpoint =>
    split
    · exact Or.inr (hstep _ rfl rfl rfl le_rfl (by simp [hpoint, StopPoint.left]))
    · exact Or.inl ⟨rfl, Or.inr (Or.inr (Or.inl ‹_›))⟩
  · next hpoint =>
    split
    · exact Or.inr (hstep _ rfl rfl rfl le_rfl (by simp [hpoint, StopPoint.left]))
    · exact Or.inl ⟨rfl, Or.inr (Or.inr (Or.inr (Or.inl ‹_›)))⟩

/-! ### `Stop` returns -/

/-- A step of a thread changes nothing, or leaves less to do. -/
theorem step_eq_or_left_lt (hrunning : s.running = false) {op : ServerThreadsOp}
    (hop : op.isCall = false) : ((serverThreads config).step s op).1 = s ∨
      ((serverThreads config).step s op).1.left < s.left := by
  cases op with
  | start | stop => cases hop
  | acceptLoop answer nowMs => exact (left_acceptLoop hrunning answer nowMs).imp_left And.left
  | eventLoop ready course nowMs =>
    exact (left_eventLoop hrunning ready course nowMs).imp_left And.left
  | heartbeatLoop order nowMs => exact (left_heartbeatLoop hrunning order nowMs).imp_left And.left
  | stopStep order => exact (s.left_stopStep order).imp_left And.left

theorem acceptLoop_frame (answer : AcceptAnswer) (nowMs : ℤ) :
    (s.acceptLoop answer nowMs).running = s.running ∧
      (s.acceptLoop answer nowMs).stopping = s.stopping ∧
      (s.acceptLoop answer nowMs).eventThread = s.eventThread := by
  rw [acceptLoop.eq_def]
  split
  · exact ⟨rfl, rfl, rfl⟩
  · split
    · cases answer <;> exact ⟨rfl, rfl, rfl⟩
    · exact ⟨rfl, rfl, rfl⟩
  · split <;> exact ⟨rfl, rfl, rfl⟩
  · exact ⟨rfl, rfl, rfl⟩

theorem running_step {op : ServerThreadsOp} (hop : op.isCall = false) :
    ((serverThreads config).step s op).1.running = s.running := by
  cases op with
  | start | stop => cases hop
  | acceptLoop answer nowMs => exact (s.acceptLoop_frame answer nowMs).1
  | eventLoop ready course nowMs => exact (s.eventLoop_frame ready course nowMs).1
  | heartbeatLoop order nowMs => exact (heartbeatLoop_frame order nowMs).1
  | stopStep order => exact (s.stopStep_frame order).1

/-- When `Stop` has returned it stays so. -/
theorem stopping_step {op : ServerThreadsOp} (hop : op.isCall = false)
    (hstopping : s.stopping = .outside) :
    ((serverThreads config).step s op).1.stopping = .outside := by
  cases op with
  | start | stop => cases hop
  | acceptLoop answer nowMs => exact (s.acceptLoop_frame answer nowMs).2.1.trans hstopping
  | eventLoop ready course nowMs =>
    exact (s.eventLoop_frame ready course nowMs).2.1.trans hstopping
  | heartbeatLoop order nowMs => exact (heartbeatLoop_frame order nowMs).2.1.trans hstopping
  | stopStep order =>
    change (s.stopStep order).stopping = .outside
    rw [stopStep, hstopping]
    exact hstopping

/-- Every thread of the server, and the caller of `Stop`, comes to a step. -/
structure Round (ops : List ServerThreadsOp) : Prop where
  isCall : ∀ op ∈ ops, op.isCall = false
  acceptLoop : ∃ answer nowMs, .acceptLoop answer nowMs ∈ ops
  eventLoop : ∃ ready course nowMs, .eventLoop ready course nowMs ∈ ops
  heartbeatLoop : ∃ order nowMs, .heartbeatLoop order nowMs ∈ ops
  stopStep : ∃ order, .stopStep order ∈ ops

/-- A round changes every state in which `Stop` has not returned and the event thread does not
hang. -/
theorem Round.moves {ops : List ServerThreadsOp} (hround : Round ops) (hrunning : s.running = false)
    (hstopping : s.stopping ≠ .outside) (hhangs : s.eventThread ≠ .hangs) :
    ∃ op ∈ ops, ((serverThreads config).step s op).1 ≠ s := by
  have hne : ∀ s' : ServerThreads, s'.left < s.left → s' ≠ s := fun s' hless heq =>
    hless.ne (congrArg left heq)
  have hfree : s.mutexHeld ≠ true := fun hheld => hhangs (of_decide_eq_true hheld)
  by_cases haccept : s.acceptThread = .ended
  · by_cases hevent : s.eventThread = .ended
    · by_cases hheartbeat : s.heartbeatThread = .ended
      · obtain ⟨order, hmem⟩ := hround.stopStep
        refine ⟨_, hmem, hne _ ((s.left_stopStep order).resolve_left fun h => ?_)⟩
        rcases h.2 with h | h | h | h | h
        · exact hstopping h
        · exact h haccept
        · exact h hevent
        · exact h hheartbeat
        · exact hfree h
      · obtain ⟨order, nowMs, hmem⟩ := hround.heartbeatLoop
        exact ⟨_, hmem, hne _ ((left_heartbeatLoop hrunning order nowMs).resolve_left fun h =>
          h.2.elim hheartbeat hfree)⟩
    · obtain ⟨ready, course, nowMs, hmem⟩ := hround.eventLoop
      exact ⟨_, hmem, hne _ ((left_eventLoop hrunning ready course nowMs).resolve_left fun h =>
        h.2.elim hevent hfree)⟩
  · obtain ⟨answer, nowMs, hmem⟩ := hround.acceptLoop
    exact ⟨_, hmem, hne _ ((left_acceptLoop hrunning answer nowMs).resolve_left fun h =>
      h.2.elim haccept hfree)⟩

/-! ### A push that failed -/

theorem eventThread_stopStep (order : VisitOrder ConnectionId ℤ) :
    (s.stopStep order).eventThread = s.eventThread := by
  rw [stopStep]
  split
  · rfl
  · rfl
  · rfl
  · split <;> rfl
  · rfl
  · split <;> rfl
  · split <;> rfl
  · split <;> rfl
  · split <;> rfl
  · split <;> rfl

/-- The event thread hangs for good. -/
theorem hangs_step (hhangs : s.eventThread = .hangs) {op : ServerThreadsOp}
    (hop : op.isCall = false) : ((serverThreads config).step s op).1.eventThread = .hangs := by
  cases op with
  | start | stop => cases hop
  | acceptLoop answer nowMs => exact (s.acceptLoop_frame answer nowMs).2.2.trans hhangs
  | eventLoop ready course nowMs =>
    change (s.eventLoop ready course nowMs).eventThread = .hangs
    rw [eventLoop.eq_def, hhangs]
    exact hhangs
  | heartbeatLoop order nowMs => exact (heartbeatLoop_frame order nowMs).2.2.2.1.trans hhangs
  | stopStep order => exact (s.eventThread_stopStep order).trans hhangs

/-- While `Stop` is under way, `Start` and `Stop` are not called. -/
theorem step_call (hstopping : s.stopping ≠ .outside) {op : ServerThreadsOp}
    (hop : op.isCall = true) : ((serverThreads config).step s op).1 = s := by
  cases op with
  | start => exact if_neg fun hnot => hstopping hnot.2
  | stop => exact if_neg hstopping
  | acceptLoop | eventLoop | heartbeatLoop | stopStep => cases hop

/-- `Stop` is under way, and the event thread hangs. -/
structure Hung (s : ServerThreads) : Prop where
  sound : s.Sound
  under : s.stopping ≠ .outside
  hangs : s.eventThread = .hangs

/-- `Stop` does not get past the event thread. -/
theorem Hung.step (hs : Hung s) (op : ServerThreadsOp) :
    Hung ((serverThreads config).step s op).1 := by
  cases hop : op.isCall with
  | true =>
    rw [step_call hs.under hop]
    exact hs
  | false =>
    have hsound : Sound ((serverThreads config).step s op).1 := hs.sound.run [op]
    have hhangs : ((serverThreads config).step s op).1.eventThread = .hangs :=
      hangs_step hs.hangs hop
    have hrunning : ((serverThreads config).step s op).1.running = false :=
      (running_step hop).trans (hs.sound.2.not_running hs.under)
    refine ⟨hsound, fun houtside => ?_, hhangs⟩
    have hended := hsound.2.event_ended hrunning (Or.inr houtside)
    rw [hhangs] at hended
    cases hended

/-- **`Stop` returns.** Let `Stop` be under way after any run. Whatever the loops find, and in
whatever order they and the caller come to their steps: when each of them has come to a step in more
rounds than there were steps left, `Stop` has returned and the threads have ended, unless the event
thread hangs in a push that failed. If it hangs, `Stop` does not return, whatever comes later. -/
theorem stop_returns (config : BrokerConfig) (ops : List ServerThreadsOp)
    (rounds : List (List ServerThreadsOp)) :
    let s := (serverThreads config).run {} ops
    let s' := (serverThreads config).run s rounds.flatten
    s.stopping ≠ .outside → (∀ round ∈ rounds, Round round) → s.left < rounds.length →
      (s'.eventThread ≠ .hangs → s'.Stopped ∧ s'.acceptThread = .ended ∧
        s'.eventThread = .ended ∧ s'.heartbeatThread = .ended) ∧
      (s'.eventThread = .hangs →
        ∀ ops', ((serverThreads config).run s' ops').stopping ≠ .outside) := by
  intro s s' hstopping hrounds hlen
  have hrunning : s.running = false := (sound_run ops).2.not_running hstopping
  have hisCall : ∀ round ∈ rounds, ∀ op ∈ round, op.isCall = false :=
    fun round hround => (hrounds round hround).isCall
  have hkeep : ∀ s op, s.running = false → op.isCall = false →
      ((serverThreads config).step s op).1.running = false :=
    fun s op hs hop => (running_step hop).trans hs
  have hdone : s'.stopping = .outside ∨ s'.eventThread = .hangs :=
    (serverThreads config).run_of_rounds hkeep
      (fun _ _ _ hop => Or.imp (stopping_step hop) fun hhangs => hangs_step hhangs hop)
      (fun _ _ hs hop => step_eq_or_left_lt hs hop) hisCall
      (fun round hround _ hs hnot => (hrounds round hround).moves hs
        (fun h => hnot (Or.inl h)) fun h => hnot (Or.inr h)) hrunning hlen
  have hsound : Sound s' := (sound_run ops).run rounds.flatten
  have hstopped : s'.running = false := by
    have hall : ∀ op ∈ rounds.flatten, op.isCall = false := fun op hop => by
      obtain ⟨round, hround, hop⟩ := List.mem_flatten.mp hop
      exact hisCall round hround op hop
    exact (serverThreads config).run_induction_of hrunning hkeep hall
  refine ⟨fun hnot => ?_, fun hhangs ops' => ?_⟩
  · have hreturned := hdone.resolve_right hnot
    exact ⟨⟨hstopped, hreturned⟩, hsound.2.accept_ended hstopped (by simp [hreturned]),
      hsound.2.event_ended hstopped (Or.inr hreturned),
      hsound.2.heartbeat_ended hstopped hreturned⟩
  · have hunder : s'.stopping ≠ .outside := fun houtside => by
      have hended := hsound.2.event_ended hstopped (Or.inr houtside)
      rw [hhangs] at hended
      cases hended
    have hhung : Hung ((serverThreads config).run s' ops') :=
      (serverThreads config).run_induction (Hung.mk hsound hunder hhangs)
        (fun _ op hs => Hung.step hs op) ops'
    exact hhung.under

/-- `Stop` is called while a connection is being accepted and `EventLoop` has got two events. -/
def stopRun : List ServerThreadsOp := [
  .start, .acceptLoop .accepted 0, .acceptLoop .accepted 0, .acceptLoop .accepted 0,
  .eventLoop none .returns 0, .acceptLoop .accepted 1, .eventLoop (some [1, 7]) .returns 1, .stop]

/-- A round in which each of them takes one step, and `OnRead` takes this course. -/
def oneStepEach (course : ReadCourse) : List ServerThreadsOp := [
  .heartbeatLoop (VisitOrder.entries ConnectionId ℤ) 2,
  .stopStep (VisitOrder.entries ConnectionId ℤ),
  .eventLoop (some [1, 7]) course 2, .acceptLoop .again 2]

theorem round_oneStepEach (course : ReadCourse) : Round (oneStepEach course) where
  isCall := by simp [oneStepEach, ServerThreadsOp.isCall]
  acceptLoop := ⟨.again, 2, by simp [oneStepEach]⟩
  eventLoop := ⟨some [1, 7], course, 2, by simp [oneStepEach]⟩
  heartbeatLoop := ⟨VisitOrder.entries ConnectionId ℤ, 2, by simp [oneStepEach]⟩
  stopStep := ⟨VisitOrder.entries ConnectionId ℤ, by simp [oneStepEach]⟩

/-- Rounds in which the first events are handled and the listening socket is closed at once; and
the same with a push to the connection that is read, which the kernel fails before `Stop` has taken
the connections. -/
theorem stop_returns_stopRun :
    let s := (serverThreads {}).run {} stopRun
    let rounds := fun course => (List.replicate 40 (oneStepEach course)).flatten
    let s' := (serverThreads {}).run s (rounds .closes)
    (s'.Stopped ∧ s'.acceptThread = .ended ∧ s'.eventThread = .ended ∧
      s'.heartbeatThread = .ended) ∧
    ∀ ops', ((serverThreads {}).run ((serverThreads {}).run s (rounds (.pushFails 1)))
      ops').stopping ≠ .outside := by
  have hreturns := fun course => stop_returns {} stopRun (List.replicate 40 (oneStepEach course))
    (by decide +kernel) (fun _ hround => List.eq_of_mem_replicate hround ▸ round_oneStepEach course)
    (by rw [List.length_replicate]; decide +kernel)
  exact ⟨(hreturns .closes).1 (by decide +kernel), (hreturns (.pushFails 1)).2 (by decide +kernel)⟩

end ServerThreads

end ProtoMsgQueue
