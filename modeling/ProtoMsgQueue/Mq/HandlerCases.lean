import ProtoMsgQueue.Mq.Broker

/-!
# What the handlers of the broker do

One theorem for each kind of step says all that it does to the deduplication window and
which messages it stores. Of all handlers only `handlePublish` asks the window and marks it;
`handleBatchPublish` stores without either; nothing else stores a message of a producer.
-/

namespace ProtoMsgQueue

open UnorderedMap

/-- The types of frames that the broker handles. -/
def FrameMessageType.handled : List FrameMessageType :=
  [.publish, .batchPublish, .subscribe, .unsubscribe, .pull, .ack, .ping, .admin]

/-- A response with a short text. -/
def Response.Brief (resp : Response) : Prop := resp.errorMsg.utf8ByteSize < 128

instance (resp : Response) : Decidable resp.Brief := Nat.decLt _ _

namespace Broker

variable {α : Type*} [TokenCount α] (lib : Libraries)

/-! ### What the parts of the handlers change -/

/-- A connection's limit changes the limiters of connections. -/
theorem acquirePublishPermit_eq (b : Broker α) (connId : ConnectionId) (tokens : UInt32)
    (env : HandlerEnv) : ∃ limiters, (b.acquirePublishPermit connId tokens env).1 =
      { b with publishLimiters := limiters } := by
  rw [acquirePublishPermit]
  split <;> exact ⟨_, rfl⟩

/-- The global limit changes the global limiter. -/
theorem acquireGlobalPermit_eq (b : Broker α) (tokens : UInt32) (env : HandlerEnv) :
    ∃ limiter, (b.acquireGlobalPermit tokens env).1 = { b with globalPublishLimiter := limiter } := by
  rw [acquireGlobalPermit]
  split <;> exact ⟨_, rfl⟩

/-- The rate limits change the limiters. -/
theorem checkRateLimits_eq (b : Broker α) (connId : ConnectionId) (tokens : UInt32)
    (env : HandlerEnv) : ∃ limiters globalLimiter refused, b.checkRateLimits connId tokens env =
      ({ b with publishLimiters := limiters, globalPublishLimiter := globalLimiter }, refused) := by
  suffices h : ∃ limiters globalLimiter, (b.checkRateLimits connId tokens env).1 =
      { b with publishLimiters := limiters, globalPublishLimiter := globalLimiter } by
    obtain ⟨limiters, globalLimiter, heq⟩ := h
    exact ⟨limiters, globalLimiter, _, Prod.ext heq rfl⟩
  obtain ⟨limiters, hconn⟩ := b.acquirePublishPermit_eq connId tokens env
  obtain ⟨limiter, hglobal⟩ :=
    (b.acquirePublishPermit connId tokens env).1.acquireGlobalPermit_eq tokens env
  rw [hconn] at hglobal
  rw [checkRateLimits]
  split
  · split
    · rename_i heq
      rw [heq] at hconn
      exact ⟨limiters, b.globalPublishLimiter, hconn⟩
    · rename_i heq
      rw [heq] at hconn
      dsimp only at hconn
      subst hconn
      split
      all_goals
        rename_i hasked
        rw [hasked] at hglobal
        exact ⟨limiters, limiter, hglobal⟩
  · exact ⟨b.publishLimiters, b.globalPublishLimiter, rfl⟩

/-- The refusal of a request is a short text. -/
theorem brief_checkRateLimits {b : Broker α} {connId : ConnectionId} {tokens : UInt32}
    {env : HandlerEnv} {errorMsg : String}
    (h : (b.checkRateLimits connId tokens env).2 = some errorMsg) :
    (Response.ofErrorCode .rateLimitExceeded errorMsg).Brief := by
  rw [checkRateLimits] at h
  split at h
  · split at h
    · obtain rfl := Option.some_inj.mp h
      decide
    · split at h
      · obtain rfl := Option.some_inj.mp h
        decide
      · cases h
  · cases h

omit [TokenCount α] in
/-- The pushes of a batch change the topic manager. -/
theorem pushTopics_eq (env : HandlerEnv)
    (topicMessages : UnorderedMap TopicName (List StoredMessage)) (topics : List TopicName)
    (b : Broker α) :
    ∃ tm, (pushTopics env topicMessages topics b).1 = { b with topicManager := tm } := by
  induction topics generalizing b with
  | nil => exact ⟨_, rfl⟩
  | cons topic topics ih =>
    obtain ⟨tm, htm⟩ := ih (b.pushTopic env topic (valueAt topicMessages topic [])).1
    exact ⟨tm, htm⟩

omit [TokenCount α] in
/-- A batch stores messages of its own, in order. -/
theorem sublist_storeBatch (b : Broker α) (env : HandlerEnv) (n : ℕ) (msgs : List PublishRequest)
    (st : BatchState) : ∃ stored, (b.storeBatch lib env n msgs st).stored = st.stored ++ stored ∧
      (stored.map StoredRequest.req).Sublist msgs := by
  induction msgs generalizing n st with
  | nil => exact ⟨[], by simp [storeBatch], List.Sublist.slnil⟩
  | cons msg msgs ih =>
    rw [storeBatch]
    dsimp only
    split
    · obtain ⟨stored, heq, hsub⟩ := ih (n + 1) _
      rw [heq]
      exact ⟨⟨msg, _⟩ :: stored, List.append_assoc _ _ _, hsub.cons_cons msg⟩
    · obtain ⟨stored, heq, hsub⟩ := ih (n + 1) _
      exact ⟨stored, heq, hsub.cons msg⟩

/-! ### The ways of a request -/

/-- Is the request a duplicate the broker does not process? -/
def isDuplicateRequest (b : Broker α) (req : PublishRequest) : Bool :=
  b.deduplicates req.producerId && b.dedupWindow.isDuplicate req.producerId req.sequenceId

/-- What becomes of a publish request: it is a duplicate, refused by the limits, or offered to
the store. -/
inductive PublishOutcome (b : Broker α) (connId : ConnectionId) (req : PublishRequest)
    (env : HandlerEnv) : Broker α × BrokerResult → Prop where
  | duplicate (hdup : b.isDuplicateRequest req = true) :
      PublishOutcome b connId req env (b, .respond connId (.ofBool true "" req.sequenceId))
  | refused {limiters globalLimiter errorMsg} (hnew : b.isDuplicateRequest req = false)
      (hcheck : b.checkRateLimits connId 1 env =
        ({ b with publishLimiters := limiters, globalPublishLimiter := globalLimiter },
          some errorMsg)) :
      PublishOutcome b connId req env
        ({ b with publishLimiters := limiters, globalPublishLimiter := globalLimiter },
          .respond connId (.ofErrorCode .rateLimitExceeded errorMsg))
  | admitted {limiters globalLimiter} (hnew : b.isDuplicateRequest req = false)
      (hcheck : b.checkRateLimits connId 1 env =
        ({ b with publishLimiters := limiters, globalPublishLimiter := globalLimiter }, none)) :
      PublishOutcome b connId req env
        (storePublish lib
          { b with publishLimiters := limiters, globalPublishLimiter := globalLimiter }
          connId req env)

theorem publishOutcome (b : Broker α) (connId : ConnectionId) (req : PublishRequest)
    (env : HandlerEnv) :
    PublishOutcome lib b connId req env (b.handlePublish lib connId (some req) env) := by
  rw [handlePublish]
  split
  · rename_i hdup
    exact .duplicate hdup
  · rename_i hnew
    rw [← isDuplicateRequest, Bool.not_eq_true] at hnew
    obtain ⟨limiters, globalLimiter, refused, hcheck⟩ := b.checkRateLimits_eq connId 1 env
    rw [hcheck]
    cases refused with
    | none => exact .admitted hnew hcheck
    | some errorMsg => exact .refused hnew hcheck

/-- What becomes of a batch: it is empty, refused by the limits, too large, or offered to the
store. -/
inductive BatchOutcome (b : Broker α) (connId : ConnectionId) (req : BatchPublishRequest)
    (env : HandlerEnv) : Broker α × BrokerResult → Prop where
  | empty (hempty : req.messages = []) :
      BatchOutcome b connId req env
        (b, .respond connId (.ofErrorCode .invalidRequest "Empty batch publish request"))
  | refused {limiters globalLimiter errorMsg} (hne : req.messages ≠ [])
      (hcheck : b.checkRateLimits connId (UInt32.ofNat req.messages.length) env =
        ({ b with publishLimiters := limiters, globalPublishLimiter := globalLimiter },
          some errorMsg)) :
      BatchOutcome b connId req env
        ({ b with publishLimiters := limiters, globalPublishLimiter := globalLimiter },
          .respond connId (.ofErrorCode .rateLimitExceeded errorMsg))
  | tooLarge {limiters globalLimiter} (hne : req.messages ≠ [])
      (hcheck : b.checkRateLimits connId (UInt32.ofNat req.messages.length) env =
        ({ b with publishLimiters := limiters, globalPublishLimiter := globalLimiter }, none))
      (hlarge : b.configManager.globalConfig.maxBatchSize < UInt32.ofNat req.messages.length) :
      BatchOutcome b connId req env
        ({ b with publishLimiters := limiters, globalPublishLimiter := globalLimiter },
          .respond connId (.ofErrorCode .batchSizeExceeded "Batch size exceeds limit"))
  | admitted {limiters globalLimiter} (hne : req.messages ≠ [])
      (hcheck : b.checkRateLimits connId (UInt32.ofNat req.messages.length) env =
        ({ b with publishLimiters := limiters, globalPublishLimiter := globalLimiter }, none))
      (hsize : UInt32.ofNat req.messages.length ≤ b.configManager.globalConfig.maxBatchSize) :
      BatchOutcome b connId req env
        (storeBatchPublish lib
          { b with publishLimiters := limiters, globalPublishLimiter := globalLimiter }
          connId req.messages env)

theorem batchOutcome (b : Broker α) (connId : ConnectionId) (req : BatchPublishRequest)
    (env : HandlerEnv) :
    BatchOutcome lib b connId req env (b.handleBatchPublish lib connId (some req) env) := by
  rw [handleBatchPublish]
  dsimp only
  split
  · rename_i hempty
    exact .empty hempty
  rename_i hne
  obtain ⟨limiters, globalLimiter, refused, hcheck⟩ :=
    b.checkRateLimits_eq connId (UInt32.ofNat req.messages.length) env
  rw [hcheck]
  cases refused with
  | some errorMsg => exact .refused hne hcheck
  | none =>
    dsimp only
    split
    · rename_i hlarge
      exact .tooLarge hne hcheck hlarge
    · rename_i hsize
      exact .admitted hne hcheck (UInt32.not_lt.mp hsize)

omit [TokenCount α] in
/-- The loop over a batch keeps account of what it stores. -/
theorem storeBatch_account (b : Broker α) (env : HandlerEnv) (n : ℕ) (msgs : List PublishRequest)
    (st : BatchState) (hsuccess : st.anySuccess = true ↔ st.stored ≠ [])
    (hmessages : st.storedMessages = [] ↔ st.stored = []) :
    ((b.storeBatch lib env n msgs st).anySuccess = true ↔
        (b.storeBatch lib env n msgs st).stored ≠ []) ∧
      ((b.storeBatch lib env n msgs st).storedMessages = [] ↔
        (b.storeBatch lib env n msgs st).stored = []) := by
  induction msgs generalizing n st with
  | nil => exact ⟨hsuccess, hmessages⟩
  | cons msg msgs ih =>
    rw [storeBatch]
    dsimp only
    split
    · exact ih (n + 1) _ (by simp) (by simp)
    · exact ih (n + 1) _ hsuccess hmessages

omit [TokenCount α] in
/-- A batch that passed the checks is refused by the store, or some of it is stored and pushed. -/
theorem storeBatchPublish_cases (b : Broker α) (connId : ConnectionId)
    (msgs : List PublishRequest) (env : HandlerEnv) :
    let st := b.storeBatch lib env 0 msgs { store := b.store }
    let topicMessages := groupByTopic st.storedMessages
    let pushed := pushTopics env topicMessages (env.batchOrder.visit topicMessages)
      { b with store := st.store }
    (st.stored = [] ∧ st.storedMessages = [] ∧ b.storeBatchPublish lib connId msgs env =
      ({ b with store := st.store },
        .respond connId (.ofErrorCode .bufferFull "Backpressure: buffer full" 0))) ∨
    (st.stored ≠ [] ∧ b.storeBatchPublish lib connId msgs env =
      (pushed.1,
        { sent := pushed.2 ++ [⟨connId, .response (.ofBool true "" st.lastMsgId)⟩]
          stored := st.stored })) := by
  intro st topicMessages pushed
  obtain ⟨hsuccess, hmessages⟩ := storeBatch_account lib b env 0 msgs { store := b.store }
    (by simp) (by simp)
  rw [storeBatchPublish]
  cases hany : st.anySuccess with
  | false =>
    have hnone : st.stored = [] := by
      by_contra hne
      rw [hsuccess.mpr hne] at hany
      cases hany
    exact Or.inl ⟨hnone, hmessages.mpr hnone, rfl⟩
  | true => exact Or.inr ⟨hsuccess.mp hany, rfl⟩

/-! ### What the handlers store and mark -/

omit [TokenCount α] in
/-- Marking changes the window of a broker that deduplicates. -/
theorem dedupWindow_markProcessed (b : Broker α) (req : PublishRequest) (env : HandlerEnv) :
    (b.markProcessed req env).dedupWindow =
      if b.deduplicates req.producerId then
        b.dedupWindow.markProcessed req.producerId req.sequenceId env.markedAt
      else b.dedupWindow := by
  rw [markProcessed]
  split <;> rfl

omit [TokenCount α] in
@[simp] theorem store_markProcessed (b : Broker α) (req : PublishRequest) (env : HandlerEnv) :
    (b.markProcessed req env).store = b.store := by
  rw [markProcessed]
  split <;> rfl

omit [TokenCount α] in
@[simp] theorem topicManager_markProcessed (b : Broker α) (req : PublishRequest)
    (env : HandlerEnv) : (b.markProcessed req env).topicManager = b.topicManager := by
  rw [markProcessed]
  split <;> rfl

omit [TokenCount α] in
/-- A request that passed the checks is refused by the store, or stored and marked. -/
theorem storePublish_cases (b : Broker α) (connId : ConnectionId) (req : PublishRequest)
    (env : HandlerEnv) :
    let out := b.storePublish lib connId req env
    (out.1.dedupWindow = b.dedupWindow ∧ out.2.stored = [] ∧
      ∀ resp, ⟨connId, .response resp⟩ ∈ out.2.sent → resp.success = false) ∨
    ∃ msgId, out.1.dedupWindow = (b.markProcessed req env).dedupWindow ∧
      out.2.stored = [⟨req, msgId⟩] := by
  rw [storePublish]
  dsimp only
  split
  · refine Or.inl ⟨rfl, rfl, ?_⟩
    simp [BrokerResult.respond, Response.ofErrorCode]
  · refine Or.inr ⟨_, ?_, rfl⟩
    rw [dedupWindow_markProcessed, dedupWindow_markProcessed]
    rfl

/-- **A publish request** is refused, or answered as a duplicate, or stored and marked. -/
theorem handlePublish_cases (b : Broker α) (connId : ConnectionId)
    (parsed : Option PublishRequest) (env : HandlerEnv) :
    let out := b.handlePublish lib connId parsed env
    (out.1.dedupWindow = b.dedupWindow ∧ out.2.stored = [] ∧
      ∀ resp, ⟨connId, .response resp⟩ ∈ out.2.sent → resp.success = false) ∨
    (∃ req, parsed = some req ∧ b.isDuplicateRequest req = true ∧
      out.1.dedupWindow = b.dedupWindow ∧ out.2.stored = []) ∨
    ∃ req msgId, parsed = some req ∧ b.isDuplicateRequest req = false ∧
      (b.checkRateLimits connId 1 env).2 = none ∧
      out.1.dedupWindow = (b.markProcessed req env).dedupWindow ∧
      out.2.stored = [⟨req, msgId⟩] := by
  rcases parsed with - | req
  · refine Or.inl ⟨rfl, rfl, ?_⟩
    simp [handlePublish, BrokerResult.respond, Response.ofErrorCode]
  intro out
  have houtcome : PublishOutcome lib b connId req env out := b.publishOutcome lib connId req env
  clear_value out
  cases houtcome with
  | duplicate hdup => exact Or.inr (Or.inl ⟨req, rfl, hdup, rfl, rfl⟩)
  | refused hnew hcheck =>
    refine Or.inl ⟨rfl, rfl, ?_⟩
    simp [BrokerResult.respond, Response.ofErrorCode]
  | admitted hnew hcheck =>
    rcases storePublish_cases lib _ connId req env with hrefused | ⟨msgId, hmark, hstored⟩
    · exact Or.inl hrefused
    · refine Or.inr (Or.inr ⟨req, msgId, rfl, hnew, by rw [hcheck], ?_, hstored⟩)
      rw [dedupWindow_markProcessed] at hmark ⊢
      exact hmark

/-- **A batch** marks nothing. What it stores are messages of the batch, in order, and it
stores something only if it passed the limits. -/
theorem handleBatchPublish_cases (b : Broker α) (connId : ConnectionId)
    (parsed : Option BatchPublishRequest) (env : HandlerEnv) :
    let out := b.handleBatchPublish lib connId parsed env
    out.1.dedupWindow = b.dedupWindow ∧
      (out.2.stored = [] ∨ ∃ req, parsed = some req ∧
        (b.checkRateLimits connId (UInt32.ofNat req.messages.length) env).2 = none ∧
        UInt32.ofNat req.messages.length ≤ b.configManager.globalConfig.maxBatchSize ∧
        (out.2.stored.map StoredRequest.req).Sublist req.messages) := by
  rcases parsed with - | req
  · exact ⟨rfl, Or.inl rfl⟩
  intro out
  have houtcome : BatchOutcome lib b connId req env out := b.batchOutcome lib connId req env
  clear_value out
  cases houtcome with
  | empty | refused | tooLarge => exact ⟨rfl, Or.inl rfl⟩
  | admitted hne hcheck hsize =>
    rcases storeBatchPublish_cases lib _ connId req.messages env with ⟨-, -, heq⟩ | ⟨-, heq⟩
    · rw [heq]
      exact ⟨rfl, Or.inl rfl⟩
    · rw [heq]
      obtain ⟨tm, htm⟩ := pushTopics_eq env _ _ _
      rw [htm]
      refine ⟨rfl, Or.inr ⟨req, rfl, by rw [hcheck], hsize, ?_⟩⟩
      obtain ⟨stored, heq, hsub⟩ := sublist_storeBatch lib _ env 0 req.messages
        { store := b.store }
      rw [heq]
      exact hsub

/-- How the broker handles a frame, by the type of the frame. -/
inductive FrameOutcome (b : Broker α) (connId : ConnectionId) (frame : Frame) (env : HandlerEnv) :
    Broker α × BrokerResult → Prop where
  | publish (htype : frame.msgType = .publish) :
      FrameOutcome b connId frame env
        (b.handlePublish lib connId (lib.parsePublishRequest frame.payload) env)
  | batchPublish (htype : frame.msgType = .batchPublish)
      (henabled : b.configManager.globalConfig.batchPublishEnabled = true) :
      FrameOutcome b connId frame env
        (b.handleBatchPublish lib connId (lib.parseBatchPublishRequest frame.payload) env)
  | batchDisabled (htype : frame.msgType = .batchPublish)
      (hdisabled : b.configManager.globalConfig.batchPublishEnabled = false) :
      FrameOutcome b connId frame env
        (b, .respond connId (.ofErrorCode .invalidRequest "Batch publish is disabled"))
  | subscribe (htype : frame.msgType = .subscribe) :
      FrameOutcome b connId frame env
        (b.handleSubscribe connId (lib.parseSubscribeRequest frame.payload))
  | unsubscribe (htype : frame.msgType = .unsubscribe) :
      FrameOutcome b connId frame env
        (b.handleUnsubscribe connId (lib.parseUnsubscribeRequest frame.payload))
  | pull (htype : frame.msgType = .pull) :
      FrameOutcome b connId frame env
        (b.handlePull connId (lib.parsePullRequest frame.payload) env)
  | ack (htype : frame.msgType = .ack) :
      FrameOutcome b connId frame env (b.handleAck connId (lib.parseAckRequest frame.payload))
  | ping (htype : frame.msgType = .ping) :
      FrameOutcome b connId frame env (b.handlePing connId)
  | pingIgnored (htype : frame.msgType = .ping) : FrameOutcome b connId frame env (b, {})
  | admin (htype : frame.msgType = .admin) :
      FrameOutcome b connId frame env
        (b.handleAdmin connId (lib.parseAdminRequest frame.payload) env)
  | unknown (htype : frame.msgType ∉ FrameMessageType.handled) :
      FrameOutcome b connId frame env
        (b, .respond connId (.ofErrorCode .unknown "Unknown message type"))

/-- A frame has one of these outcomes. -/
theorem frameOutcome (b : Broker α) (connId : ConnectionId) (frame : Frame) (env : HandlerEnv) :
    FrameOutcome lib b connId frame env ((broker α lib).step b (.frame connId frame env)) := by
  -- the cases of the dispatch, in its order
  simp only [broker, onFrameReceived]
  split
  · rename_i htype
    exact .publish htype
  rename_i hpublish
  split
  · rename_i htype
    split
    · rename_i henabled
      exact .batchPublish htype henabled
    · rename_i hdisabled
      exact .batchDisabled htype (Bool.eq_false_iff.mpr hdisabled)
  rename_i hbatch
  split
  · rename_i htype
    exact .subscribe htype
  rename_i hsubscribe
  split
  · rename_i htype
    exact .unsubscribe htype
  rename_i hunsubscribe
  split
  · rename_i htype
    exact .pull htype
  rename_i hpull
  split
  · rename_i htype
    exact .ack htype
  rename_i hack
  split
  · rename_i htype
    split
    · exact .ping htype
    · exact .pingIgnored htype
  rename_i hping
  split
  · rename_i htype
    exact .admin htype
  rename_i hadmin
  refine .unknown ?_
  simp [FrameMessageType.handled, *]

/-- A publish frame is handled as a publish request. -/
theorem step_publish (b : Broker α) (connId : ConnectionId) {frame : Frame} (env : HandlerEnv)
    (htype : frame.msgType = .publish) : (broker α lib).step b (.frame connId frame env) =
      b.handlePublish lib connId (lib.parsePublishRequest frame.payload) env := by
  simp only [broker, onFrameReceived, if_pos htype]

/-- A batch frame is handled as a batch, if batches are enabled. -/
theorem step_batchPublish (b : Broker α) (connId : ConnectionId) {frame : Frame}
    (env : HandlerEnv) (htype : frame.msgType = .batchPublish) :
    (broker α lib).step b (.frame connId frame env) =
      if b.configManager.globalConfig.batchPublishEnabled then
        b.handleBatchPublish lib connId (lib.parseBatchPublishRequest frame.payload) env
      else (b, .respond connId (.ofErrorCode .invalidRequest "Batch publish is disabled")) := by
  have hne : frame.msgType ≠ .publish := by rw [htype]; decide
  simp only [broker, onFrameReceived, if_neg hne, if_pos htype]

omit [TokenCount α] in
/-- An administration command marks and stores nothing. -/
theorem handleAdmin_quiet (b : Broker α) (connId : ConnectionId) (parsed : Option AdminRequest)
    (env : HandlerEnv) : (b.handleAdmin connId parsed env).1.dedupWindow = b.dedupWindow ∧
      (b.handleAdmin connId parsed env).2.stored = [] := by
  rcases parsed with - | ⟨command, topic⟩
  · exact ⟨rfl, rfl⟩
  cases command with
  | getTopicInfo | deleteTopic | cleanupTopic =>
    simp only [handleAdmin]
    split <;> exact ⟨rfl, rfl⟩
  | _ => exact ⟨rfl, rfl⟩

/-- Is the step a frame of this type? -/
def IsFrame (msgType : FrameMessageType) (op : BrokerOp) : Prop :=
  ∃ connId frame env, op = .frame connId frame env ∧ frame.msgType = msgType

/-- **All other steps** mark nothing and store no message of a producer. -/
theorem step_other (b : Broker α) {op : BrokerOp} (hpublish : ¬IsFrame .publish op)
    (hbatch : ¬IsFrame .batchPublish op) :
    ((broker α lib).step b op).1.dedupWindow = b.dedupWindow ∧
      ∀ r ∈ ((broker α lib).step b op).2.stored, r.req.producerId = "" := by
  cases op with
  | frame connId frame env =>
    have hp : frame.msgType ≠ .publish := fun h => hpublish ⟨connId, frame, env, rfl, h⟩
    have hb : frame.msgType ≠ .batchPublish := fun h => hbatch ⟨connId, frame, env, rfl, h⟩
    suffices h : ((broker α lib).step b (.frame connId frame env)).1.dedupWindow =
        b.dedupWindow ∧ ((broker α lib).step b (.frame connId frame env)).2.stored = [] by
      exact ⟨h.1, by simp [h.2]⟩
    have houtcome := b.frameOutcome lib connId frame env
    generalize (broker α lib).step b (.frame connId frame env) = out at houtcome ⊢
    cases houtcome with
    | publish htype => exact absurd htype hp
    | batchPublish htype | batchDisabled htype => exact absurd htype hb
    | subscribe => cases lib.parseSubscribeRequest frame.payload <;> exact ⟨rfl, rfl⟩
    | unsubscribe => cases lib.parseUnsubscribeRequest frame.payload <;> exact ⟨rfl, rfl⟩
    | pull => cases lib.parsePullRequest frame.payload <;> exact ⟨rfl, rfl⟩
    | ack => cases lib.parseAckRequest frame.payload <;> exact ⟨rfl, rfl⟩
    | admin => exact handleAdmin_quiet b connId _ env
    | ping | pingIgnored | unknown => exact ⟨rfl, rfl⟩
  | publishLocal topic payload env =>
    refine ⟨rfl, fun r hr => ?_⟩
    simp only [broker, publishLocal] at hr
    split at hr
    · rw [List.mem_singleton.mp hr]
    · exact absurd hr List.not_mem_nil
  | _ => exact ⟨rfl, by simp [broker]⟩

end Broker

end ProtoMsgQueue
