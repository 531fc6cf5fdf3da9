import ProtoMsgQueue.Mq.HandlerCases
import ProtoMsgQueue.Storage.TopicAt

/-!
# The operations a broker asks of its store

`storeOps` lists, for each step of a broker, the operations the handlers make on the store, in
order and with their arguments: a request that passes the checks publishes its payload as
`compressPayload` leaves it, a batch publishes its messages one by one, a first subscription
creates the topic. `store_step` says that the store goes through this run of `messageStore`,
and `published_step` that the messages a step reports as stored are those accepted in it.
-/

namespace ProtoMsgQueue

open UnorderedMap

namespace Broker

variable {α : Type*} [TokenCount α] (lib : Libraries)

/-! ### The operations -/

/-- Publish the message of a request, the `n`-th of its frame. -/
def publishOp (b : Broker α) (req : PublishRequest) (env : HandlerEnv) (n : ℕ) : StoreOp :=
  .onTopic req.topic (.publish (b.compressPayload lib req).1 (b.requestTtlMs req)
    (env.expiryNowMs n) (env.publishNowMs n))

/-- Does a publish request pass the checks? -/
def admitsPublish (b : Broker α) (connId : ConnectionId) (req : PublishRequest)
    (env : HandlerEnv) : Bool :=
  !b.isDuplicateRequest req && (b.checkRateLimits connId 1 env).2.isNone

/-- Does a batch pass the checks? -/
def admitsMessages (b : Broker α) (connId : ConnectionId) (msgs : List PublishRequest)
    (env : HandlerEnv) : Bool :=
  msgs ≠ [] && (b.checkRateLimits connId (UInt32.ofNat msgs.length) env).2.isNone &&
    UInt32.ofNat msgs.length ≤ b.configManager.globalConfig.maxBatchSize

/-- The operations of an administration command. -/
def adminOps : Option AdminRequest → List StoreOp
  | some ⟨.deleteTopic, topic⟩ => if topic = "" then [] else [.deleteTopic topic]
  | some ⟨.cleanupTopic, topic⟩ =>
    if topic = "" then [] else [.deleteTopic topic, .createTopic topic]
  | _ => []

/-- The operations of a frame on the store. -/
def frameOps (b : Broker α) (connId : ConnectionId) (frame : Frame) (env : HandlerEnv) :
    List StoreOp :=
  if frame.msgType = .publish then
    match lib.parsePublishRequest frame.payload with
    | none => []
    | some req => if b.admitsPublish connId req env then [b.publishOp lib req env 0] else []
  else if frame.msgType = .batchPublish then
    match lib.parseBatchPublishRequest frame.payload with
    | none => []
    | some req =>
      if b.configManager.globalConfig.batchPublishEnabled &&
          b.admitsMessages connId req.messages env then
        req.messages.mapIdx fun n msg => b.publishOp lib msg env n
      else []
  else if frame.msgType = .subscribe then
    match lib.parseSubscribeRequest frame.payload with
    | none => []
    | some req =>
      if (b.topicManager.subscribe req.topic ⟨req.subscriberId, connId⟩ req.groupId).2 then
        [.createTopic req.topic]
      else []
  else if frame.msgType = .pull then
    match lib.parsePullRequest frame.payload with
    | none => []
    | some req => [.onTopic req.topic (.pull (consumerOf req.subscriberId req.groupId)
        req.maxMessages env.pullNowMs env.pulledAt)]
  else if frame.msgType = .ack then
    match lib.parseAckRequest frame.payload with
    | none => []
    | some req =>
      [.onTopic req.topic (.ack (consumerOf req.subscriberId req.groupId) req.messageId)]
  else if frame.msgType = .admin then adminOps (lib.parseAdminRequest frame.payload)
  else []

/-- The operations of a step on the store. -/
def storeOps (b : Broker α) : BrokerOp → List StoreOp
  | .frame connId frame env => b.frameOps lib connId frame env
  | .publishLocal topic payload env =>
    [.onTopic topic (.publish payload 0 (env.expiryNowMs 0) (env.publishNowMs 0))]
  | .retryPass topic clock order => [.onTopic topic (.retryPass clock order)]
  | .expirePass topic nowMs => [.onTopic topic (.expirePass nowMs)]
  | _ => []

/-- The payload under which a step stores the message of a request. -/
def storedPayload (b : Broker α) : BrokerOp → PublishRequest → Payload
  | .frame _ _ _, req => (b.compressPayload lib req).1
  | _, req => req.payload

/-! ### Publishing -/

/-- What a stored message was published as. -/
def publishedAs (b : Broker α) (r : StoredRequest) : TopicName × MessageId × Payload :=
  (r.req.topic, r.msgId, (b.compressPayload lib r.req).1)

omit [TokenCount α] in
/-- The loop over a batch publishes its messages one by one. -/
theorem storeBatch_ops (b : Broker α) (env : HandlerEnv) (n : ℕ) (msgs : List PublishRequest)
    (st : BatchState) :
    let ops := msgs.mapIdx fun i msg => b.publishOp lib msg env (n + i)
    ∃ stored, (b.storeBatch lib env n msgs st).stored = st.stored ++ stored ∧
      (b.storeBatch lib env n msgs st).store = messageStore.run st.store ops ∧
      (messageStore.trace st.store ops).filterMap StoreEvent.published? =
        stored.map (b.publishedAs lib) := by
  induction msgs generalizing n st with
  | nil => exact ⟨[], by simp [storeBatch], rfl, rfl⟩
  | cons msg msgs ih =>
    have hpublished := published?_publish st.store msg.topic (b.compressPayload lib msg).1
      (b.requestTtlMs msg) (env.expiryNowMs n) (env.publishNowMs n)
    have hshift : (fun i msg => b.publishOp lib msg env (n + (i + 1))) =
        fun i msg => b.publishOp lib msg env (n + 1 + i) := by
      funext i msg
      rw [Nat.add_assoc, Nat.add_comm 1]
    rw [storeBatch, List.mapIdx_cons, hshift, Nat.add_zero]
    dsimp only
    rw [StepMachine.run_cons, StepMachine.trace_cons, List.filterMap_cons, publishOp, hpublished]
    split
    · obtain ⟨stored, heq, hrun, htrace⟩ := ih (n + 1) { st with
        store := _, storedMessages := _, lastMsgId := _, anySuccess := true, stored := _ }
      rw [heq, hrun]
      exact ⟨_, List.append_assoc _ _ _, rfl, congrArg (List.cons _) htrace⟩
    · rename_i hfull
      obtain ⟨stored, heq, hrun, htrace⟩ := ih (n + 1) { st with store := _ }
      rw [heq, hrun]
      exact ⟨stored, rfl, rfl, htrace⟩

omit [TokenCount α] in
/-- A request that passed the checks is published. -/
theorem storePublish_ops (b : Broker α) (connId : ConnectionId) (req : PublishRequest)
    (env : HandlerEnv) :
    (b.storePublish lib connId req env).1.store =
        messageStore.run b.store [b.publishOp lib req env 0] ∧
      (messageStore.trace b.store [b.publishOp lib req env 0]).filterMap StoreEvent.published? =
        (b.storePublish lib connId req env).2.stored.map (b.publishedAs lib) := by
  have hpublished := published?_publish b.store req.topic (b.compressPayload lib req).1
    (b.requestTtlMs req) (env.expiryNowMs 0) (env.publishNowMs 0)
  rw [published?_trace_singleton, publishOp, hpublished]
  simp only [storePublish]
  split
  · rename_i hfull
    rw [if_neg (by simpa using hfull)]
    exact ⟨rfl, rfl⟩
  · rename_i hstored
    rw [if_pos (by simpa using hstored)]
    exact ⟨store_markProcessed _ req env, rfl⟩

/-- A publish request makes these operations on the store, and stores what they accept. -/
theorem handlePublish_ops (b : Broker α) (connId : ConnectionId) (req : PublishRequest)
    (env : HandlerEnv) :
    let ops := if b.admitsPublish connId req env then [b.publishOp lib req env 0] else []
    (b.handlePublish lib connId (some req) env).1.store = messageStore.run b.store ops ∧
      (messageStore.trace b.store ops).filterMap StoreEvent.published? =
        (b.handlePublish lib connId (some req) env).2.stored.map (b.publishedAs lib) := by
  intro ops
  have hops : ops = if b.admitsPublish connId req env then [b.publishOp lib req env 0] else [] := rfl
  rw [admitsPublish] at hops
  have houtcome := b.publishOutcome lib connId req env
  generalize b.handlePublish lib connId (some req) env = out at houtcome ⊢
  cases houtcome with
  | duplicate hdup =>
    rw [hdup, if_neg (by simp)] at hops
    rw [hops]
    exact ⟨rfl, rfl⟩
  | refused hnew hcheck =>
    rw [hnew, hcheck, if_neg (by simp)] at hops
    rw [hops]
    exact ⟨rfl, rfl⟩
  | admitted hnew hcheck =>
    rw [hnew, hcheck, if_pos (by simp)] at hops
    rw [hops]
    exact storePublish_ops lib _ connId req env

/-- A batch makes these operations on the store, and stores what they accept. -/
theorem handleBatchPublish_ops (b : Broker α) (connId : ConnectionId) (req : BatchPublishRequest)
    (env : HandlerEnv) :
    let ops := if b.admitsMessages connId req.messages env then
        req.messages.mapIdx fun n msg => b.publishOp lib msg env n
      else []
    (b.handleBatchPublish lib connId (some req) env).1.store = messageStore.run b.store ops ∧
      (messageStore.trace b.store ops).filterMap StoreEvent.published? =
        (b.handleBatchPublish lib connId (some req) env).2.stored.map (b.publishedAs lib) := by
  intro ops
  have hops : ops = if b.admitsMessages connId req.messages env then
      req.messages.mapIdx fun n msg => b.publishOp lib msg env n else [] := rfl
  rw [admitsMessages] at hops
  have houtcome := b.batchOutcome lib connId req env
  generalize b.handleBatchPublish lib connId (some req) env = out at houtcome ⊢
  cases houtcome with
  | empty hempty =>
    rw [hempty, if_neg (by simp)] at hops
    rw [hops]
    exact ⟨rfl, rfl⟩
  | refused hne hcheck =>
    rw [hcheck, if_neg (by simp)] at hops
    rw [hops]
    exact ⟨rfl, rfl⟩
  | tooLarge hne hcheck hlarge =>
    rw [hcheck, if_neg (by simpa using fun _ => hlarge)] at hops
    rw [hops]
    exact ⟨rfl, rfl⟩
  | @admitted limiters globalLimiter hne hcheck hsize =>
    rw [hcheck, if_pos (by simpa [hne] using hsize)] at hops
    obtain ⟨stored, heq, hrun, htrace⟩ := storeBatch_ops lib
      { b with publishLimiters := limiters, globalPublishLimiter := globalLimiter } env 0
      req.messages { store := b.store }
    have hshift : (req.messages.mapIdx fun i msg => publishOp lib
        { b with publishLimiters := limiters, globalPublishLimiter := globalLimiter } msg env
        (0 + i)) = ops := by
      rw [hops]
      simp only [Nat.zero_add]
      rfl
    rw [List.nil_append] at heq
    rw [hshift, ← heq] at htrace
    rw [hshift] at hrun
    rcases storeBatchPublish_cases lib _ connId req.messages env with
      ⟨hnone, -, hout⟩ | ⟨-, hout⟩
    · rw [hnone] at htrace
      rw [hout]
      exact ⟨hrun, htrace⟩
    · obtain ⟨tm, htm⟩ := pushTopics_eq env _ _ _
      rw [hout, htm]
      exact ⟨hrun, htrace⟩

/-! ### All steps -/

omit [TokenCount α] in
/-- An administration command creates and deletes topics. -/
theorem handleAdmin_ops (b : Broker α) (connId : ConnectionId) (parsed : Option AdminRequest)
    (env : HandlerEnv) :
    (b.handleAdmin connId parsed env).1.store = messageStore.run b.store (adminOps parsed) ∧
      (messageStore.trace b.store (adminOps parsed)).filterMap StoreEvent.published? = [] ∧
        (b.handleAdmin connId parsed env).2.stored = [] := by
  rcases parsed with - | ⟨command, topic⟩
  · exact ⟨rfl, rfl, rfl⟩
  cases command with
  | getTopicInfo =>
    simp only [handleAdmin]
    split <;> exact ⟨rfl, rfl, rfl⟩
  | deleteTopic | cleanupTopic =>
    simp only [handleAdmin, adminOps]
    split <;> exact ⟨rfl, rfl, rfl⟩
  | _ => exact ⟨rfl, rfl, rfl⟩

/-- **A step in the store.** Every step of the broker makes these operations on its store, and
the messages it reports as stored are those accepted by them. -/
theorem store_step (b : Broker α) (op : BrokerOp) :
    ((broker α lib).step b op).1.store = messageStore.run b.store (b.storeOps lib op) ∧
      (messageStore.trace b.store (b.storeOps lib op)).filterMap StoreEvent.published? =
        ((broker α lib).step b op).2.stored.map fun r =>
          (r.req.topic, r.msgId, b.storedPayload lib op r.req) := by
  cases op with
  | frame connId frame env =>
    have houtcome := b.frameOutcome lib connId frame env
    simp only [storeOps, frameOps, storedPayload]
    generalize (broker α lib).step b (.frame connId frame env) = out at houtcome ⊢
    cases houtcome with
    | publish htype =>
      rw [htype]
      cases lib.parsePublishRequest frame.payload with
      | none => exact ⟨rfl, rfl⟩
      | some req => exact b.handlePublish_ops lib connId req env
    | batchPublish htype henabled =>
      rw [htype, henabled]
      cases lib.parseBatchPublishRequest frame.payload with
      | none => exact ⟨rfl, rfl⟩
      | some req => exact b.handleBatchPublish_ops lib connId req env
    | batchDisabled htype hdisabled =>
      rw [htype, hdisabled]
      cases lib.parseBatchPublishRequest frame.payload <;> exact ⟨rfl, rfl⟩
    | subscribe htype =>
      rw [htype]
      cases lib.parseSubscribeRequest frame.payload with
      | none => exact ⟨rfl, rfl⟩
      | some req =>
        simp only [handleSubscribe]
        split <;> exact ⟨rfl, rfl⟩
    | unsubscribe htype =>
      rw [htype]
      cases lib.parseUnsubscribeRequest frame.payload <;> exact ⟨rfl, rfl⟩
    | pull htype =>
      rw [htype]
      cases lib.parsePullRequest frame.payload <;> exact ⟨rfl, rfl⟩
    | ack htype =>
      rw [htype]
      cases lib.parseAckRequest frame.payload <;> exact ⟨rfl, rfl⟩
    | ping htype | pingIgnored htype =>
      rw [htype]
      exact ⟨rfl, rfl⟩
    | admin htype =>
      rw [htype]
      obtain ⟨hstore, hpublished, hstored⟩ :=
        b.handleAdmin_ops connId (lib.parseAdminRequest frame.payload) env
      rw [hstored]
      exact ⟨hstore, hpublished⟩
    | unknown htype =>
      simp only [FrameMessageType.handled, List.mem_cons, not_or] at htype
      simp only [htype, if_false]
      exact ⟨rfl, rfl⟩
  | publishLocal topic payload env =>
    have hpublished := published?_publish b.store topic payload 0 (env.expiryNowMs 0)
      (env.publishNowMs 0)
    refine ⟨rfl, ?_⟩
    simp only [broker, publishLocal, storeOps]
    rw [published?_trace_singleton, hpublished]
    split <;> rfl
  | _ => exact ⟨rfl, rfl⟩

end Broker

end ProtoMsgQueue
