import ProtoMsgQueue.Lib.StepMachine
import ProtoMsgQueue.Mq.Sessions
import ProtoMsgQueue.Mq.TopicManagerCalls

/-!
# What becomes of the subscriptions of a closed connection

Only the heartbeat thread tells the broker about a connection it closes, and it does so before
it closes it. A subscription therefore outlives its connection when the peer or an error of
the kernel closes the connection, and when a Subscribe frame is handled between the two steps
of a heartbeat pass, or after a close. `subscriptions_end` says that these are the only ways.
-/

namespace ProtoMsgQueue

open UnorderedMap TopicManager Broker

variable {α : Type*} [TokenCount α] {lib : Libraries}

/-! ### Which frames give a connection a subscription -/

namespace Broker

variable (lib)

/-- Is the frame a subscription that is accepted? -/
def acceptsSubscription (b : Broker α) (connId : ConnectionId) (frame : Frame) : Bool :=
  frame.msgType = .subscribe &&
    match lib.parseSubscribeRequest frame.payload with
    | none => false
    | some req => (b.topicManager.subscribe req.topic ⟨req.subscriberId, connId⟩ req.groupId).2

/-- A connection gets a subscription by a subscription frame of its own. -/
theorem holdsConn_onFrameReceived {b : Broker α} {connId : ConnectionId} {frame : Frame}
    {env : HandlerEnv} {c : ConnectionId}
    (h : (b.onFrameReceived lib connId frame env).1.topicManager.HoldsConn c) :
    b.topicManager.HoldsConn c ∨ b.acceptsSubscription lib connId frame = true ∧ connId = c := by
  have hstep : (b.onFrameReceived lib connId frame env).1 =
      ((broker α lib).step b (.frame connId frame env)).1 := rfl
  rw [hstep] at h
  rcases b.topicManager_step lib (.frame connId frame env)
    with hcall | ⟨connId', req, ⟨frame', env', hop, htype, hparse⟩, heq⟩
  · exact Or.inl (h.of_subset hcall.subscribersOf_subset)
  · cases hop
    rw [heq] at h
    refine (holdsConn_subscribe.mp h).imp id fun hnew => ⟨?_, hnew.2⟩
    rw [acceptsSubscription, hparse, decide_eq_true htype, Bool.true_and]
    exact hnew.1

/-- The connection of an accepted subscription has one. -/
theorem holdsConn_of_acceptsSubscription {b : Broker α} {connId : ConnectionId} {frame : Frame}
    (env : HandlerEnv) (h : b.acceptsSubscription lib connId frame = true) :
    (b.onFrameReceived lib connId frame env).1.topicManager.HoldsConn connId := by
  rw [acceptsSubscription, Bool.and_eq_true, decide_eq_true_eq] at h
  obtain ⟨htype, hok⟩ := h
  have hne : frame.msgType ≠ .publish ∧ frame.msgType ≠ .batchPublish := by
    rw [htype]
    decide
  rw [onFrameReceived, if_neg hne.1, if_neg hne.2, if_pos htype]
  rcases hparse : lib.parseSubscribeRequest frame.payload with - | req
  · rw [hparse] at hok
    cases hok
  · rw [hparse] at hok
    exact holdsConn_subscribe.mpr (Or.inr ⟨hok, rfl⟩)

end Broker

/-! ### Connections that have ended -/

namespace Sessions

/-- The connections the running pass of the heartbeat thread found idle. -/
def passConns (st : Sessions α) : List ConnectionId :=
  match st.heartbeatPass with
  | none => []
  | some pass => pass.idleConns

/-- Those among them the broker will yet be told about. -/
def toNotify (st : Sessions α) : List ConnectionId :=
  match st.heartbeatPass with
  | none => []
  | some pass => pass.toNotify

/-- The connection is closed, and so is the pass that may have closed it. -/
def Ended (st : Sessions α) (connId : ConnectionId) : Prop :=
  connId ∉ st.connections ∧ connId ∉ st.passConns

/-- No connection that has ended has a subscription. -/
def NoDeadSubscription (st : Sessions α) : Prop :=
  ∀ connId, st.Ended connId → ¬st.broker.topicManager.HoldsConn connId

/-- The broker will be told about the connection, or it is open and no pass is closing it. -/
def Covered (st : Sessions α) (connId : ConnectionId) : Prop :=
  connId ∈ st.toNotify ∨ connId ∈ st.connections ∧ connId ∉ st.passConns

instance (st : Sessions α) (connId : ConnectionId) : Decidable (st.Ended connId) :=
  inferInstanceAs (Decidable (_ ∧ _))

instance (st : Sessions α) (connId : ConnectionId) : Decidable (st.Covered connId) :=
  inferInstanceAs (Decidable (_ ∨ _))

/-- Every connection with a subscription is covered. -/
def AllCovered (st : Sessions α) : Prop :=
  ∀ connId, st.broker.topicManager.HoldsConn connId → st.Covered connId

/-- The lists of a running pass: those to be notified of and those to be closed were idle. -/
def PassConsistent (st : Sessions α) : Prop :=
  ∀ pass, st.heartbeatPass = some pass →
    pass.toNotify ⊆ pass.idleConns ∧ pass.toClose ⊆ pass.idleConns

variable (lib) in
/-- A connection that is closed by the peer or after an error has no subscription, or the
broker will yet be told about it; and a subscription is accepted from a connection that is
covered. -/
def Tidy (e : SessionEvent α) : Prop :=
  match e.input with
  | .close connId cause => e.pre.closes cause = true →
      e.pre.broker.topicManager.HoldsConn connId → connId ∈ e.pre.toNotify
  | .frame frame _ => ∀ connId ∈ e.pre.reading,
      e.pre.broker.acceptsSubscription lib connId frame = true → e.pre.Covered connId
  | _ => True

instance : (e : SessionEvent α) → Decidable (Tidy lib e)
  | ⟨pre, .close connId cause, _⟩ => inferInstanceAs (Decidable (pre.closes cause = true →
      pre.broker.topicManager.HoldsConn connId → connId ∈ pre.toNotify))
  | ⟨pre, .frame frame _, _⟩ => inferInstanceAs (Decidable (∀ connId ∈ pre.reading,
      pre.broker.acceptsSubscription lib connId frame = true → pre.Covered connId))
  | ⟨_, .accept _, _⟩ | ⟨_, .onRead _ _, _⟩ | ⟨_, .onReadDone, _⟩ | ⟨_, .heartbeatCheck _ _, _⟩
  | ⟨_, .heartbeatStep, _⟩ => isTrue trivial

/-! ### One step -/

/-- The lists of the pass stay consistent. -/
theorem passConsistent_step {st : Sessions α} (hpass : st.PassConsistent) (op : SessionOp) :
    ((sessions α lib).step st op).1.PassConsistent := by
  cases op with
  | accept nowMs => exact hpass
  | onRead connId nowMs =>
    simp only [sessions, onRead]
    split <;> exact hpass
  | frame frame env =>
    simp only [sessions, handleFrame]
    split <;> exact hpass
  | onReadDone => exact hpass
  | close connId cause =>
    simp only [sessions]
    split <;> exact hpass
  | heartbeatCheck nowMs order =>
    simp only [sessions, heartbeatCheck]
    split
    · rintro pass ⟨⟩
      exact ⟨List.Subset.refl _, List.Subset.refl _⟩
    · exact hpass
  | heartbeatStep =>
    simp only [sessions, heartbeatStep]
    split
    · exact hpass
    · rename_i hrunning
      rintro pass ⟨⟩
      obtain ⟨hnotify, hclose⟩ := hpass _ hrunning
      exact ⟨fun c hc => hnotify (List.mem_cons_of_mem _ hc), hclose⟩
    · rename_i hrunning
      rintro pass ⟨⟩
      obtain ⟨hnotify, hclose⟩ := hpass _ hrunning
      exact ⟨hnotify, fun c hc => hclose (List.mem_cons_of_mem _ hc)⟩
    · rintro pass ⟨⟩

omit [TokenCount α] in
/-- What keeps the subscriptions and covers as many connections keeps all covered. -/
theorem AllCovered.mono {st st' : Sessions α} (hall : st.AllCovered)
    (hholds : ∀ c, st'.broker.topicManager.HoldsConn c → st.broker.topicManager.HoldsConn c)
    (hcovered : ∀ c, st'.broker.topicManager.HoldsConn c → st.Covered c → st'.Covered c) :
    st'.AllCovered :=
  fun c hc => hcovered c hc (hall c (hholds c hc))

/-- While all connections with a subscription are covered, a frame keeps it so iff it is no
subscription from a connection that is not covered. -/
theorem allCovered_frame {st : Sessions α} (hall : st.AllCovered) {connId : ConnectionId}
    (hreading : st.reading = some connId) (frame : Frame) (env : HandlerEnv) :
    (st.handleFrame lib frame env).1.AllCovered ↔
      (st.broker.acceptsSubscription lib connId frame = true → st.Covered connId) := by
  rw [handleFrame, hreading]
  constructor
  · intro h haccepts
    exact h connId (st.broker.holdsConn_of_acceptsSubscription lib env haccepts)
  · intro h c hc
    rcases Broker.holdsConn_onFrameReceived lib hc with hold | ⟨haccepts, rfl⟩
    · exact hall c hold
    · exact h haccepts

omit [TokenCount α] in
/-- Closing a connection keeps all covered iff it has no subscription or is yet to be
reported. -/
theorem allCovered_close {st : Sessions α} (hall : st.AllCovered) (connId : ConnectionId) :
    (st.close connId).AllCovered ↔
      (st.broker.topicManager.HoldsConn connId → connId ∈ st.toNotify) := by
  have hmem : ∀ c, c ∈ st.connections.erase connId ↔ c ≠ connId ∧ c ∈ st.connections :=
    fun c => AList.mem_erase
  constructor
  · intro h hholds
    rcases h connId hholds with hnotify | ⟨hopen, -⟩
    · exact hnotify
    · exact absurd rfl ((hmem connId).mp hopen).1
  · intro h c hholds
    rcases hall c hholds with hnotify | ⟨hopen, hpass⟩
    · exact Or.inl hnotify
    rcases eq_or_ne c connId with rfl | hne
    · exact Or.inl (h hholds)
    · exact Or.inr ⟨(hmem c).mpr ⟨hne, hopen⟩, hpass⟩

omit [TokenCount α] in
/-- A heartbeat pass begins with the broker still to be told of all it found. -/
theorem allCovered_heartbeatCheck {st : Sessions α} (hall : st.AllCovered) (nowMs : ℤ)
    (order : VisitOrder ConnectionId ℤ) : (st.heartbeatCheck nowMs order).AllCovered := by
  rw [heartbeatCheck]
  split
  · rename_i hidle
    refine hall.mono (fun c hc => hc) fun c _ hcovered => ?_
    by_cases hfound : c ∈ st.idleConns nowMs order
    · exact Or.inl hfound
    · rcases hcovered with hnotify | ⟨hopen, -⟩
      · rw [toNotify, hidle.2] at hnotify
        cases hnotify
      · exact Or.inr ⟨hopen, hfound⟩
  · exact hall

omit [TokenCount α] in
/-- A heartbeat pass keeps all covered: whom it reports has no subscription left, whom it
closes was reported. -/
theorem allCovered_heartbeatStep {st : Sessions α} (hpass : st.PassConsistent)
    (hall : st.AllCovered) : st.heartbeatStep.AllCovered := by
  rw [heartbeatStep]
  split
  · exact hall
  · rename_i idle connId toNotify toClose hrunning
    intro c hc
    obtain ⟨hholds, hne⟩ := holdsConn_unsubscribeByConnId.mp hc
    have hcovered := hall c hholds
    simp only [Covered, Sessions.toNotify, passConns, hrunning, List.mem_cons] at hcovered ⊢
    exact hcovered.imp (fun h => h.resolve_left hne) id
  · rename_i idle connId toClose hrunning
    intro c hc
    have hcovered := hall c hc
    simp only [Covered, Sessions.toNotify, passConns, hrunning, List.not_mem_nil, false_or]
      at hcovered ⊢
    have hne : c ≠ connId := by
      rintro rfl
      exact hcovered.2 ((hpass _ hrunning).2 List.mem_cons_self)
    exact ⟨AList.mem_erase.mpr ⟨hne, hcovered.1⟩, hcovered.2⟩
  · rename_i idle hrunning
    intro c hc
    have hcovered := hall c hc
    simp only [Covered, Sessions.toNotify, passConns, hrunning, List.not_mem_nil, false_or]
      at hcovered ⊢
    exact ⟨hcovered.1, id⟩

/-- **One step** keeps all connections with a subscription covered iff it is tidy. -/
theorem allCovered_step_iff {st : Sessions α} (hpass : st.PassConsistent) (hall : st.AllCovered)
    (op : SessionOp) : ((sessions α lib).step st op).1.AllCovered ↔
      Tidy lib ((sessions α lib).event st op) := by
  cases op with
  | accept nowMs =>
    refine iff_of_true (hall.mono (fun c hc => hc) fun c _ hcovered => ?_) trivial
    exact hcovered.imp id fun h => ⟨(AList.mem_insert _).mpr (Or.inr h.1), h.2⟩
  | onRead connId nowMs =>
    refine iff_of_true ?_ trivial
    simp only [sessions, onRead]
    split
    · refine hall.mono (fun c hc => hc) fun c _ hcovered => ?_
      exact hcovered.imp id fun h => ⟨(AList.mem_insert _).mpr (Or.inr h.1), h.2⟩
    · exact hall
  | frame frame env =>
    rcases hreading : st.reading with - | connId
    · simp only [sessions, handleFrame, Tidy, StepMachine.event, hreading]
      exact iff_of_true hall fun c hc => absurd hc (Option.not_mem_none c)
    · simp only [sessions, Tidy, StepMachine.event, hreading, Option.mem_some_iff, forall_eq']
      exact allCovered_frame hall hreading frame env
  | onReadDone => exact iff_of_true hall trivial
  | close connId cause =>
    simp only [sessions, Tidy, StepMachine.event]
    split
    · rename_i hcloses
      rw [allCovered_close hall, forall_prop_of_true hcloses]
    · rename_i hcloses
      exact iff_of_true hall fun h => absurd h hcloses
  | heartbeatCheck nowMs order =>
    exact iff_of_true (allCovered_heartbeatCheck hall nowMs order) trivial
  | heartbeatStep => exact iff_of_true (allCovered_heartbeatStep hpass hall) trivial

/-! ### Every run -/

/-- **Exactly the tidy runs.** All connections with a subscription are covered throughout a run
iff every step of it is tidy. -/
theorem allCovered_iff_tidy (broker : Broker α) (hnone : ∀ c, ¬broker.topicManager.HoldsConn c)
    (ops : List SessionOp) :
    (sessions α lib).Always (fun _ st => st.AllCovered) (ofBroker broker) ops ↔
      (sessions α lib).Along (fun _ e => Tidy lib e) (ofBroker broker) ops := by
  refine (sessions α lib).always_iff_along (J := fun _ st => st.PassConsistent)
    (A := fun _ _ => True) ?_ (fun c hc => absurd hc (hnone c)) ?_ ?_ fun _ _ _ _ => trivial
  · rintro pass ⟨⟩
  · exact fun h st op hpass _ => passConsistent_step hpass op
  · exact fun h st op hpass _ hall => allCovered_step_iff hpass hall op

omit [TokenCount α] in
/-- A covered connection has not ended. -/
theorem not_ended_of_covered {st : Sessions α} (hpass : st.PassConsistent) {connId : ConnectionId}
    (hcovered : st.Covered connId) : ¬st.Ended connId := by
  rintro ⟨hclosed, hidle⟩
  rcases hcovered with hnotify | ⟨hopen, -⟩
  · simp only [toNotify, passConns] at hnotify hidle
    split at hnotify
    · cases hnotify
    · rename_i pass hrunning
      rw [hrunning] at hidle
      exact hidle ((hpass pass hrunning).1 hnotify)
  · exact hclosed hopen

variable (lib) in
/-- A Subscribe frame of this connection, with this request, is answered with the error of a
subscription that exists. -/
def RefusedSubscription (e : SessionEvent α) (connId : ConnectionId) (req : SubscribeRequest) :
    Prop :=
  ∃ frame env, e.input = .frame frame env ∧ e.pre.reading = some connId ∧
    frame.msgType = .subscribe ∧ lib.parseSubscribeRequest frame.payload = some req ∧
    e.output = .respond connId (.ofErrorCode .alreadySubscribed "Already subscribed")

/-- A refused request names a subscriber that has the subscription. -/
theorem RefusedSubscription.exists_subscriber {st : Sessions α} {op : SessionOp}
    {connId : ConnectionId} {req : SubscribeRequest}
    (h : RefusedSubscription lib ((sessions α lib).event st op) connId req) :
    ∃ sub ∈ st.broker.topicManager.subscribersOf req.topic (groupKey req.groupId),
      sub.id = req.subscriberId := by
  obtain ⟨frame, env, hinput, hreading, htype, hparse, houtput⟩ := h
  obtain rfl : op = .frame frame env := hinput
  have hne : frame.msgType ≠ .publish ∧ frame.msgType ≠ .batchPublish := by
    rw [htype]
    decide
  have hreading' : st.reading = some connId := hreading
  simp only [StepMachine.event, sessions, handleFrame, hreading', Broker.onFrameReceived,
    if_neg hne.1, if_neg hne.2, if_pos htype, hparse, Broker.handleSubscribe] at houtput
  have hrefused : (st.broker.topicManager.subscribe req.topic ⟨req.subscriberId, connId⟩
      req.groupId).2 = false := by
    by_contra hok
    rw [if_pos (Bool.eq_true_of_not_eq_false hok)] at houtput
    simp [BrokerResult.respond, Response.ofErrorCode] at houtput
  rw [subscribe_snd, Bool.not_eq_false', List.any_eq_true] at hrefused
  obtain ⟨sub, hmem, hid⟩ := hrefused
  exact ⟨sub, hmem, of_decide_eq_true hid⟩

/-- **No subscription outlives its connection** in a tidy run: once a connection is closed, and
the heartbeat pass that may have closed it is over, it has no subscription. A request to
subscribe is then refused only for the subscription of a connection that has not ended. -/
theorem subscriptions_end (config : BrokerConfig) (store : StoreConfig) (steadyNow : ℤ)
    {ops : List SessionOp}
    (htidy : (sessions α lib).Along (fun _ e => Tidy lib e)
      (ofBroker (Broker.ofConfig config store steadyNow)) ops) :
    (sessions α lib).Always (fun _ st => st.NoDeadSubscription)
        (ofBroker (Broker.ofConfig config store steadyNow)) ops ∧
      ∀ e ∈ (sessions α lib).trace (ofBroker (Broker.ofConfig config store steadyNow)) ops,
        ∀ connId req, RefusedSubscription lib e connId req →
          ∃ sub ∈ e.pre.broker.topicManager.subscribersOf req.topic (groupKey req.groupId),
            sub.id = req.subscriberId ∧ ¬e.pre.Ended sub.connId := by
  have hnone : ∀ c, ¬(Broker.ofConfig config store steadyNow :
      Broker α).topicManager.HoldsConn c := by
    intro c hc
    exact absurd ((holdsConn_iff _ c).mp hc) (by simp [Broker.ofConfig, unsubscribeByConnId])
  have hcovered := (allCovered_iff_tidy _ hnone ops).mpr htidy
  have hpass : ∀ before, ((sessions α lib).run
      (ofBroker (Broker.ofConfig config store steadyNow)) before).PassConsistent := by
    refine fun before => (sessions α lib).run_induction ?_ ?_ before
    · rintro pass ⟨⟩
    · exact fun st op h => passConsistent_step h op
  constructor
  · intro before hbefore c hended hholds
    exact not_ended_of_covered (hpass before) (hcovered before hbefore c hholds) hended
  · intro e he connId req hrefused
    obtain ⟨before, after, hops, heq⟩ := (sessions α lib).mem_trace he
    rw [heq] at hrefused ⊢
    obtain ⟨sub, hmem, hid⟩ := hrefused.exists_subscriber
    have hbefore : before <+: ops := ⟨_, hops.symm⟩
    refine ⟨sub, hmem, hid, not_ended_of_covered (hpass before) ?_⟩
    exact hcovered before hbefore _ ⟨_, _, sub, hmem, rfl⟩

/-! ### Two runs -/

/-- A connection subscribes; the heartbeat thread finds it idle, and it is read again only
after it was closed. A second connection subscribes with the same identifier. -/
def idleRun : List SessionOp := [
  .accept 0, .onRead 1 10, .frame subscribeFrame (.ofClocks 0 0), .onReadDone,
  .heartbeatCheck 20000 (.entries _ _), .heartbeatStep, .heartbeatStep, .heartbeatStep,
  .onRead 1 20010, .accept 20020, .onRead 2 20030, .frame subscribeFrame (.ofClocks 0 0)]

/-- A connection subscribes and is closed by the peer. A second connection subscribes with the
same identifier. -/
def peerClosedRun : List SessionOp := [
  .accept 0, .onRead 1 10, .frame subscribeFrame (.ofClocks 0 0), .onReadDone, .close 1 .peer,
  .accept 20, .onRead 2 30, .frame subscribeFrame (.ofClocks 0 0)]

/-- The subscription of the idle connection ends, and the second connection gets its own. -/
theorem subscriptions_end_idleRun :
    (sessions ℚ subscribeLibraries).Always (fun _ st => st.NoDeadSubscription)
        (ofBroker (Broker.ofConfig {} {} 0)) idleRun ∧
      ∀ e ∈ (sessions ℚ subscribeLibraries).trace (ofBroker (Broker.ofConfig {} {} 0)) idleRun,
        ∀ connId req, RefusedSubscription subscribeLibraries e connId req →
          ∃ sub ∈ e.pre.broker.topicManager.subscribersOf req.topic (groupKey req.groupId),
            sub.id = req.subscriberId ∧ ¬e.pre.Ended sub.connId := by
  refine subscriptions_end {} {} 0 ?_
  refine StepMachine.along_of_forall_mem _ ?_
  decide +kernel

/-- The subscription of the connection that was closed by the peer is kept, and the second
connection is refused because of it. -/
theorem not_subscriptions_end_peerClosed :
    ¬((sessions ℚ subscribeLibraries).Always (fun _ st => st.NoDeadSubscription)
        (ofBroker (Broker.ofConfig {} {} 0)) peerClosedRun) ∧
      ∃ e ∈ (sessions ℚ subscribeLibraries).trace (ofBroker (Broker.ofConfig {} {} 0))
        peerClosedRun,
        RefusedSubscription subscribeLibraries e 2 { topic := "t", subscriberId := "c" } ∧
          ∀ sub ∈ e.pre.broker.topicManager.subscribersOf "t" none, e.pre.Ended sub.connId := by
  constructor
  · intro h
    exact h (peerClosedRun.take 5) (List.take_prefix _ _) 1 (by decide +kernel) (by decide +kernel)
  · refine ⟨(sessions ℚ subscribeLibraries).event ((sessions ℚ subscribeLibraries).run
      (ofBroker (Broker.ofConfig {} {} 0)) (peerClosedRun.take 7))
      (.frame subscribeFrame (.ofClocks 0 0)), ?_, ⟨subscribeFrame, .ofClocks 0 0, rfl, ?_, rfl, rfl,
      ?_⟩, ?_⟩
    · exact StepMachine.trace_concat _ _ (peerClosedRun.take 7) _ ▸
        List.mem_append_right _ List.mem_cons_self
    all_goals decide +kernel

end Sessions

end ProtoMsgQueue
