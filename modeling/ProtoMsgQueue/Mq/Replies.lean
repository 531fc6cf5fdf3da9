import ProtoMsgQueue.Mq.HandlerCases

/-!
# One reply for every request

A request carries no number that its reply repeats: a client matches replies and requests by
their order. `replies_eq` is what makes that sound at the broker: over every run, the replies
handed to a connection are one for each of its frames, of the type that answers the frame, and in
the order of the frames. Only a heartbeat is left unanswered, where heartbeats are disabled.
Whatever else is handed to a connection is a push.
-/

namespace ProtoMsgQueue

open UnorderedMap

/-- Does the frame answer a request? -/
def OutFrame.isReply : OutFrame → Bool
  | .response _ | .pong | .admin _ => true
  | .push _ | .batchPush _ => false

/-- What answers a frame of a type. -/
inductive ReplyKind where
  | response
  | pong
  | admin
deriving DecidableEq, Repr

/-- The kind of a reply; none for a push. -/
def OutFrame.replyKind? : OutFrame → Option ReplyKind
  | .response _ => some .response
  | .pong => some .pong
  | .admin _ => some .admin
  | .push _ | .batchPush _ => none

theorem OutFrame.replyKind?_isSome (frame : OutFrame) :
    frame.replyKind?.isSome = frame.isReply := by
  cases frame <;> rfl

/-- The kind of reply that a frame asks for. -/
def FrameMessageType.replyKind (msgType : FrameMessageType) : ReplyKind :=
  if msgType = .ping then .pong else if msgType = .admin then .admin else .response

namespace Broker

variable {α : Type*} [TokenCount α] (lib : Libraries)

/-- Does the broker leave a frame of this type unanswered? -/
def ignores (b : Broker α) (msgType : FrameMessageType) : Bool :=
  msgType = .ping && !b.configManager.globalConfig.heartbeatEnabled

/-- The kind of reply that a frame gets, if any. -/
def replyKind? (b : Broker α) (msgType : FrameMessageType) : Option ReplyKind :=
  if b.ignores msgType then none else some msgType.replyKind

/-- The replies handed to a connection. -/
def repliesTo (connId : ConnectionId) (sent : List Sent) : List OutFrame :=
  (sent.filter fun s => s.connId = connId && s.frame.isReply).map Sent.frame

@[simp] theorem repliesTo_append (connId : ConnectionId) (sent sent' : List Sent) :
    repliesTo connId (sent ++ sent') = repliesTo connId sent ++ repliesTo connId sent' := by
  simp [repliesTo]

/-! ### Pushes are no replies -/

/-- A list of frames without replies. -/
def OnlyPushes (sent : List Sent) : Prop := ∀ s ∈ sent, s.frame.isReply = false

theorem OnlyPushes.repliesTo_eq_nil {sent : List Sent} (h : OnlyPushes sent)
    (connId : ConnectionId) : repliesTo connId sent = [] := by
  rw [repliesTo, List.filter_eq_nil_iff.mpr, List.map_nil]
  intro s hs
  simp [h s hs]

theorem onlyPushes_append {sent sent' : List Sent} (h : OnlyPushes sent) (h' : OnlyPushes sent') :
    OnlyPushes (sent ++ sent') := fun s hs =>
  (List.mem_append.mp hs).elim (h s) (h' s)

omit [TokenCount α] in
theorem onlyPushes_pushPublished (b : Broker α) (req : PublishRequest) (payload : Payload)
    (compressed : Bool) (msgId : MessageId) (env : HandlerEnv) :
    OnlyPushes (b.pushPublished req payload compressed msgId env).2 := by
  intro s hs
  rcases List.mem_append.mp hs with hs | hs
  · obtain ⟨sub, -, rfl⟩ := List.mem_map.mp hs
    rfl
  · obtain ⟨n, hn, rfl⟩ := List.mem_mapIdx.mp hs
    rfl

theorem isReply_topicFrames {useBatch : Bool} {topic : TopicName} {msgs : List StoredMessage}
    {frame : OutFrame} (h : frame ∈ topicFrames useBatch topic msgs) : frame.isReply = false := by
  rw [topicFrames] at h
  split at h
  · rw [List.mem_singleton.mp h]
    rfl
  · obtain ⟨msg, -, rfl⟩ := List.mem_map.mp h
    rfl

omit [TokenCount α] in
theorem onlyPushes_pushTopic (b : Broker α) (env : HandlerEnv) (topic : TopicName)
    (msgs : List StoredMessage) : OnlyPushes (b.pushTopic env topic msgs).2 := by
  intro s hs
  obtain ⟨connId, -, hs⟩ := List.mem_flatMap.mp hs
  obtain ⟨frame, hframe, rfl⟩ := List.mem_map.mp hs
  exact isReply_topicFrames hframe

omit [TokenCount α] in
theorem onlyPushes_pushTopics (env : HandlerEnv)
    (topicMessages : UnorderedMap TopicName (List StoredMessage)) (topics : List TopicName)
    (b : Broker α) : OnlyPushes (pushTopics env topicMessages topics b).2 := by
  induction topics generalizing b with
  | nil => exact nofun
  | cons topic topics ih =>
    exact onlyPushes_append (onlyPushes_pushTopic b env topic _)
      (ih (b.pushTopic env topic (valueAt topicMessages topic [])).1)

/-! ### The frames of a handler -/

/-- What a handler sends: pushes, then its reply. -/
inductive Answers (connId : ConnectionId) (kind : ReplyKind) : List Sent → Prop where
  | reply {pushes reply} (hpushes : OnlyPushes pushes) (hkind : reply.replyKind? = some kind) :
      Answers connId kind (pushes ++ [⟨connId, reply⟩])

/-- A reply alone. -/
theorem answers_singleton {connId : ConnectionId} {kind : ReplyKind} {reply : OutFrame}
    (hkind : reply.replyKind? = some kind) : Answers connId kind [⟨connId, reply⟩] :=
  List.nil_append [Sent.mk connId reply] ▸ .reply nofun hkind

theorem answers_handlePublish (b : Broker α) (connId : ConnectionId)
    (parsed : Option PublishRequest) (env : HandlerEnv) :
    Answers connId .response (b.handlePublish lib connId parsed env).2.sent := by
  rcases parsed with - | req
  · exact answers_singleton rfl
  have houtcome := b.publishOutcome lib connId req env
  generalize b.handlePublish lib connId (some req) env = out at houtcome ⊢
  cases houtcome with
  | duplicate | refused => exact answers_singleton rfl
  | admitted =>
    rw [storePublish]
    dsimp only
    split
    · exact answers_singleton rfl
    · exact .reply (onlyPushes_pushPublished _ _ _ _ _ _) rfl

theorem answers_handleBatchPublish (b : Broker α) (connId : ConnectionId)
    (parsed : Option BatchPublishRequest) (env : HandlerEnv) :
    Answers connId .response (b.handleBatchPublish lib connId parsed env).2.sent := by
  rcases parsed with - | req
  · exact answers_singleton rfl
  have houtcome := b.batchOutcome lib connId req env
  generalize b.handleBatchPublish lib connId (some req) env = out at houtcome ⊢
  cases houtcome with
  | empty | refused | tooLarge => exact answers_singleton rfl
  | admitted =>
    rcases storeBatchPublish_cases lib _ connId req.messages env with ⟨-, -, heq⟩ | ⟨-, heq⟩
    · rw [heq]
      exact answers_singleton rfl
    · rw [heq]
      exact .reply (onlyPushes_pushTopics _ _ _ _) rfl

omit [TokenCount α] in
theorem answers_handlePull (b : Broker α) (connId : ConnectionId) (parsed : Option PullRequest)
    (env : HandlerEnv) : Answers connId .response (b.handlePull connId parsed env).2.sent := by
  rcases parsed with - | req
  · exact answers_singleton rfl
  have hframes : ∀ (useBatch : Bool) (pushed : List PushMessage),
      OnlyPushes ((if useBatch then [OutFrame.batchPush pushed]
        else pushed.map OutFrame.push).map (Sent.mk connId)) := by
    intro useBatch pushed s hs
    obtain ⟨frame, hframe, rfl⟩ := List.mem_map.mp hs
    cases useBatch with
    | true =>
      rw [List.mem_singleton.mp hframe]
      rfl
    | false =>
      obtain ⟨msg, -, rfl⟩ := List.mem_map.mp hframe
      rfl
  exact .reply (hframes _ _) rfl

omit [TokenCount α] in
theorem answers_handleAdmin (b : Broker α) (connId : ConnectionId) (parsed : Option AdminRequest)
    (env : HandlerEnv) : Answers connId .admin (b.handleAdmin connId parsed env).2.sent := by
  rcases parsed with - | ⟨command, topic⟩
  · exact answers_singleton rfl
  cases command with
  | getTopicInfo | deleteTopic | cleanupTopic =>
    simp only [handleAdmin]
    split <;> exact answers_singleton rfl
  | _ => exact answers_singleton rfl

/-- A heartbeat is answered if heartbeats are enabled. -/
theorem step_ping (b : Broker α) (connId : ConnectionId) {frame : Frame} (env : HandlerEnv)
    (htype : frame.msgType = .ping) : (broker α lib).step b (.frame connId frame env) =
      if b.configManager.globalConfig.heartbeatEnabled then b.handlePing connId else (b, {}) := by
  simp only [broker, onFrameReceived, htype]
  rfl

/-- What a handler sends for a frame of a type: nothing to an ignored one, else pushes and the
reply. -/
def AnswersFrame (b : Broker α) (connId : ConnectionId) (msgType : FrameMessageType)
    (sent : List Sent) : Prop :=
  if b.ignores msgType then sent = [] else Answers connId msgType.replyKind sent

omit [TokenCount α] in
/-- A response to a frame of any other type. -/
theorem answersFrame_of_response {b : Broker α} {connId : ConnectionId}
    {msgType msgType' : FrameMessageType} {sent : List Sent}
    (h : Answers connId .response sent) (htype : msgType = msgType')
    (hother : msgType' ≠ .ping ∧ msgType' ≠ .admin) : AnswersFrame b connId msgType sent := by
  rw [AnswersFrame, htype, if_neg (by simp [ignores, hother.1]), FrameMessageType.replyKind,
    if_neg hother.1, if_neg hother.2]
  exact h

/-- **The reply to a frame**, behind the pushes that it causes. -/
theorem answers_frame (b : Broker α) (connId : ConnectionId) (frame : Frame) (env : HandlerEnv) :
    AnswersFrame b connId frame.msgType
      ((broker α lib).step b (.frame connId frame env)).2.sent := by
  by_cases hping : frame.msgType = .ping
  · rw [step_ping lib b connId env hping, AnswersFrame, hping]
    cases henabled : b.configManager.globalConfig.heartbeatEnabled with
    | true =>
      rw [if_neg (by simp [ignores, henabled])]
      exact answers_singleton rfl
    | false =>
      rw [if_pos (by simp [ignores, henabled])]
      rfl
  have houtcome := b.frameOutcome lib connId frame env
  generalize (broker α lib).step b (.frame connId frame env) = out at houtcome ⊢
  cases houtcome with
  | publish htype =>
    exact answersFrame_of_response (answers_handlePublish lib b connId _ env) htype (by decide)
  | batchPublish htype =>
    exact answersFrame_of_response (answers_handleBatchPublish lib b connId _ env) htype (by decide)
  | batchDisabled htype => exact answersFrame_of_response (answers_singleton rfl) htype (by decide)
  | subscribe htype =>
    refine answersFrame_of_response ?_ htype (by decide)
    cases lib.parseSubscribeRequest frame.payload <;> exact answers_singleton rfl
  | unsubscribe htype =>
    refine answersFrame_of_response ?_ htype (by decide)
    cases lib.parseUnsubscribeRequest frame.payload <;> exact answers_singleton rfl
  | pull htype =>
    exact answersFrame_of_response (answers_handlePull b connId _ env) htype (by decide)
  | ack htype =>
    refine answersFrame_of_response ?_ htype (by decide)
    cases lib.parseAckRequest frame.payload <;> exact answers_singleton rfl
  | ping htype | pingIgnored htype => exact absurd htype hping
  | admin htype =>
    have hne : FrameMessageType.admin ≠ .ping := by decide
    rw [AnswersFrame, htype, if_neg (by simp [ignores, hne])]
    exact answers_handleAdmin b connId _ env
  | unknown htype =>
    have hadmin : frame.msgType ≠ .admin := by
      rintro hadmin
      rw [hadmin] at htype
      exact htype (by decide)
    exact answersFrame_of_response (answers_singleton rfl) rfl ⟨hping, hadmin⟩

/-! ### Every run -/

omit [TokenCount α] in
/-- The replies to a frame are one reply to its connection, of the kind the frame asks for. -/
theorem AnswersFrame.repliesTo_eq {b : Broker α} {connId : ConnectionId}
    {msgType : FrameMessageType} {sent : List Sent} (h : AnswersFrame b connId msgType sent)
    (other : ConnectionId) : (repliesTo other sent).map OutFrame.replyKind? =
      if connId = other then ((b.replyKind? msgType).toList).map some else [] := by
  rw [AnswersFrame] at h
  rw [replyKind?]
  cases hignored : b.ignores msgType with
  | true =>
    rw [hignored, if_pos rfl] at h
    rw [h, if_pos rfl]
    simp [repliesTo]
  | false =>
    rw [hignored, if_neg Bool.false_ne_true] at h
    rw [if_neg Bool.false_ne_true]
    obtain ⟨hpushes, hkind⟩ := h
    rename_i pushes reply
    have hreply : reply.isReply = true := by
      rw [← OutFrame.replyKind?_isSome, hkind]
      rfl
    rw [repliesTo_append, hpushes.repliesTo_eq_nil, List.nil_append]
    by_cases heq : connId = other <;> simp [repliesTo, heq, hreply, hkind]

/-- The kind of reply that a step owes to a connection, if any. -/
def owed? (connId : ConnectionId) (e : BrokerEvent α) : Option ReplyKind :=
  match e.input with
  | .frame connId' frame _ => if connId' = connId then e.pre.replyKind? frame.msgType else none
  | _ => none

/-- A step replies what it owes. -/
theorem replies_step (b : Broker α) (op : BrokerOp) (connId : ConnectionId) :
    (repliesTo connId ((broker α lib).step b op).2.sent).map OutFrame.replyKind? =
      ((owed? connId ((broker α lib).event b op)).toList).map some := by
  cases op with
  | frame connId' frame env =>
    rw [(b.answers_frame lib connId' frame env).repliesTo_eq connId]
    simp only [owed?, StepMachine.event_input, StepMachine.event_pre]
    split <;> rfl
  | _ => rfl

/-- The replies in recorded steps are those that the steps owe. -/
theorem replies_events (connId : ConnectionId) {h : List (BrokerEvent α)}
    (hh : ∀ e ∈ h, e.output = ((broker α lib).step e.pre e.input).2) :
    (repliesTo connId (h.flatMap fun e => e.output.sent)).map OutFrame.replyKind? =
      (h.filterMap (owed? connId)).map some := by
  induction h with
  | nil => rfl
  | cons e h ih =>
    have hstep := replies_step lib e.pre e.input connId
    rw [← hh e List.mem_cons_self] at hstep
    rw [List.flatMap_cons, repliesTo_append, List.map_append, hstep,
      ih fun e he => hh e (List.mem_cons_of_mem _ he), List.filterMap_eq_flatMap_toList,
      List.filterMap_eq_flatMap_toList, List.flatMap_cons, List.map_append]
    rfl

/-- **One reply for every request, in order.** Over every run, the replies handed to a connection
answer its frames one by one: as many replies as answered frames, of the kinds that these ask for,
in their order. -/
theorem replies_eq (b : Broker α) (ops : List BrokerOp) (connId : ConnectionId) :
    let h := (broker α lib).trace b ops
    (repliesTo connId (h.flatMap fun e => e.output.sent)).map OutFrame.replyKind? =
      (h.filterMap (owed? connId)).map some :=
  replies_events lib connId fun _ he => (broker α lib).output_of_mem_trace he

end Broker

end ProtoMsgQueue
