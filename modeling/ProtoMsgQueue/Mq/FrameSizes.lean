import ProtoMsgQueue.Mq.OutFrames
import ProtoMsgQueue.Mq.Receivers
import ProtoMsgQueue.Storage.Backpressure
import ProtoMsgQueue.Storage.Waiting

/-!
# How large the frames of a broker are

Only the decoder knows the payload limit: a push adds fields to a payload that came close to it,
and a batch push puts any number of messages into one frame. `FramesFit` says, of a request and
the state in which it arrives, that the messages it makes the broker send stay within the limit:
for a publish its own message, for a batch those that find room in their topics, and for a pull
those that wait for the consumer. `decodable_sent_iff` says that a peer decodes all frames of a
run exactly if every request meets this condition.
-/

namespace ProtoMsgQueue

open UnorderedMap TopicManager WireFormat

/-! ### Answers -/

/-- A short answer is within the limit. -/
theorem Response.Brief.fitsFrame {resp : Response} (h : resp.Brief) :
    FitsFrame (OutFrame.response resp).wireSize := by
  have hsuccess : (Field.uint 1 resp.success.toNat).size ≤ varintSize (8 * 1) + 1 :=
    Field.size_uint_le one_pos ((Bool.toNat_le resp.success).trans_lt (by decide))
  have hid : (Field.uint 3 (resp.messageId % 2 ^ 64)).size ≤ varintSize (8 * 3) + 10 :=
    Field.size_uint_le (by decide) ((Nat.mod_lt _ (by decide)).trans (by decide))
  have hcode : (Field.uint 4 resp.errorCode.toNat).size ≤ varintSize (8 * 4) + 5 :=
    Field.size_uint_le (by decide) (resp.errorCode.toNat_lt.trans (by decide))
  have htext : (Field.bytes 2 (utf8Bytes resp.errorMsg)).size ≤ varintSize (8 * 2 + 2) + 1 + 128 := by
    rw [Field.size]
    split
    · exact Nat.zero_le _
    · rw [length_utf8Bytes, lengthDelimitedSize]
      exact Nat.add_le_add (Nat.add_le_add_left (varintSize_le one_pos h) _) (le_of_lt h)
  refine Or.inl (le_trans ?_ (by decide : 160 ≤ kMaxPayloadSize))
  rw [OutFrame.wireSize, OutFrame.wireFields, Response.wireFields, messageSize_cons,
    messageSize_cons, messageSize_cons, messageSize_cons, messageSize_nil]
  have htags : varintSize (8 * 1) + varintSize (8 * 3) + varintSize (8 * 4) +
      varintSize (8 * 2 + 2) = 4 := by decide
  omega

/-! ### The messages of a request -/

/-- Messages of a topic can be sent, together in one frame or each in its own. -/
def MessagesFit (together : Bool) (topic : TopicName) (msgs : List StoredMessage) : Prop :=
  if together then
    FitsFrame (msgs.map fun msg =>
      lengthDelimitedSize 1 (PushMessage.ofStored msg topic false).wireSize).sum
  else ∀ msg ∈ msgs, FitsFrame (PushMessage.ofStored msg topic false).wireSize

instance (together : Bool) (topic : TopicName) (msgs : List StoredMessage) :
    Decidable (MessagesFit together topic msgs) := by
  unfold MessagesFit
  infer_instance

/-- Is the step a frame for one of the handlers that send messages? -/
def BrokerOp.asksForMessages : BrokerOp → Bool
  | .frame _ received _ => received.msgType = .publish || received.msgType = .batchPublish ||
    received.msgType = .pull
  | _ => false

namespace Broker

variable {α : Type*} [TokenCount α] (lib : Libraries) (b : Broker α)

/-- The message of a publish request as it is pushed at a time. -/
def pushedMessage (req : PublishRequest) (nowMs : UInt64) : PushMessage where
  messageId := (b.store.roomAt req.topic).nextMsgId
  topic := req.topic
  payload := (b.compressPayload lib req).1
  timestamp := nowMs.toNat
  retryCount := 0
  compressed := (b.compressPayload lib req).2

/-- A publish request that passes the checks and finds room has a message that can be pushed to
those who are to get it. -/
def PublishFits (connId : ConnectionId) (req : PublishRequest) (env : HandlerEnv) : Prop :=
  b.admitsPublish connId req env = true →
    (b.store.roomAt req.topic).accepts (b.compressPayload lib req).1 = true →
      ∀ nowMs ∈ pushTimes b.topicManager req.topic env,
        FitsFrame (b.pushedMessage lib req nowMs).wireSize

/-- The messages of a batch that find room, the `n`-th first, as they are pushed. -/
def fittingMessages (env : HandlerEnv) :
    ℕ → List PublishRequest → (TopicName → TopicRoom) → List StoredMessage
  | _, [], _ => []
  | n, msg :: msgs, rooms =>
    let payload := (b.compressPayload lib msg).1
    let room := rooms msg.topic
    let rest := fittingMessages env (n + 1) msgs
      (Function.update rooms msg.topic (room.publish payload))
    if room.accepts payload then
      { id := room.nextMsgId, topicName := msg.topic, payload := payload
        timestamp := (env.pushNowMs n).toNat, retryCount := 0 } :: rest
    else rest

/-- The messages of a batch for a topic. -/
def fittingOf (env : HandlerEnv) (msgs : List PublishRequest) (topic : TopicName) :
    List StoredMessage :=
  (b.fittingMessages lib env 0 msgs b.store.roomAt).filter fun msg => msg.topicName = topic

/-- The messages of a batch that passes the checks can be pushed, for every topic that somebody
follows. -/
def BatchFits (connId : ConnectionId) (msgs : List PublishRequest) (env : HandlerEnv) : Prop :=
  b.admitsMessages connId msgs env = true →
    ∀ topic ∈ msgs.map PublishRequest.topic, HasReceiver b.topicManager topic env →
      MessagesFit (b.batchPush && 1 < (b.fittingOf lib env msgs topic).length) topic
        (delivered (b.batchPush && 1 < (b.fittingOf lib env msgs topic).length)
          (b.fittingOf lib env msgs topic))

/-- The messages that a pull gets. -/
def waitingMessages (req : PullRequest) (env : HandlerEnv) : List StoredMessage :=
  (b.store.waitingFor req.topic (consumerOf req.subscriberId req.groupId) env.pullNowMs).take
    req.maxMessages.toNat

/-- The messages that wait for the consumer of a pull can be sent. -/
def PullFits (req : PullRequest) (env : HandlerEnv) : Prop :=
  MessagesFit (b.batchPush && 1 < (b.waitingMessages req env).length) req.topic
    (b.waitingMessages req env)

/-- **The condition.** The messages that a request makes the broker send stay within the limit of
a payload. -/
def FramesFit : BrokerOp → Prop
  | .frame connId frame env =>
    (frame.msgType = .publish → ∀ req ∈ lib.parsePublishRequest frame.payload,
      b.PublishFits lib connId req env) ∧
    (frame.msgType = .batchPublish → b.configManager.globalConfig.batchPublishEnabled = true →
      ∀ req ∈ lib.parseBatchPublishRequest frame.payload,
        b.BatchFits lib connId req.messages env) ∧
    (frame.msgType = .pull → ∀ req ∈ lib.parsePullRequest frame.payload, b.PullFits req env)
  | _ => True

instance (connId : ConnectionId) (req : PublishRequest) (env : HandlerEnv) :
    Decidable (b.PublishFits lib connId req env) := by
  unfold PublishFits
  -- over the list, not over all clock readings
  have := List.decidableBAll (fun nowMs => FitsFrame (b.pushedMessage lib req nowMs).wireSize)
    (pushTimes b.topicManager req.topic env)
  infer_instance

instance (connId : ConnectionId) (msgs : List PublishRequest) (env : HandlerEnv) :
    Decidable (b.BatchFits lib connId msgs env) := by
  unfold BatchFits
  infer_instance

instance (req : PullRequest) (env : HandlerEnv) : Decidable (b.PullFits req env) := by
  unfold PullFits
  infer_instance

instance (op : BrokerOp) : Decidable (b.FramesFit lib op) := by
  cases op <;> unfold FramesFit <;> infer_instance

/-! ### What the store accepts -/

omit [TokenCount α] in
/-- A request that passed the checks is stored if there is room. -/
theorem stored_storePublish (connId : ConnectionId) (req : PublishRequest) (env : HandlerEnv) :
    (b.storePublish lib connId req env).2.stored =
      if (b.store.roomAt req.topic).accepts (b.compressPayload lib req).1 then
        [⟨req, (b.store.roomAt req.topic).nextMsgId⟩]
      else [] := by
  obtain ⟨hid, haccepts, -⟩ := b.store.publish_roomAt req.topic (b.compressPayload lib req).1
    (b.requestTtlMs req) (env.expiryNowMs 0) (env.publishNowMs 0)
  rw [storePublish, ← haccepts, ← hid]
  dsimp only
  cases (b.store.publish req.topic (b.compressPayload lib req).1 (b.requestTtlMs req)
    (env.expiryNowMs 0) (env.publishNowMs 0)).2.2 <;> rfl

/-- A publish request is stored if it passes the checks and there is room. -/
theorem stored_handlePublish (connId : ConnectionId) (req : PublishRequest) (env : HandlerEnv) :
    (b.handlePublish lib connId (some req) env).2.stored =
      if b.admitsPublish connId req env &&
          (b.store.roomAt req.topic).accepts (b.compressPayload lib req).1 then
        [⟨req, (b.store.roomAt req.topic).nextMsgId⟩]
      else [] := by
  rw [admitsPublish]
  have houtcome := b.publishOutcome lib connId req env
  generalize b.handlePublish lib connId (some req) env = out at houtcome ⊢
  cases houtcome with
  | duplicate hdup =>
    rw [hdup]
    rfl
  | refused hnew hcheck =>
    rw [hnew, hcheck]
    rfl
  | @admitted limiters globalLimiter hnew hcheck =>
    rw [hnew, hcheck]
    exact stored_storePublish lib { b with
      publishLimiters := limiters, globalPublishLimiter := globalLimiter } connId req env

omit [TokenCount α] in
/-- A batch stores the messages that find room. -/
theorem storedMessages_storeBatch (env : HandlerEnv) (n : ℕ) (msgs : List PublishRequest)
    (st : BatchState) : (b.storeBatch lib env n msgs st).storedMessages =
      st.storedMessages ++ b.fittingMessages lib env n msgs st.store.roomAt := by
  induction msgs generalizing n st with
  | nil => exact (List.append_nil _).symm
  | cons msg msgs ih =>
    obtain ⟨hid, haccepts, hroom⟩ := st.store.publish_roomAt msg.topic
      (b.compressPayload lib msg).1 (b.requestTtlMs msg) (env.expiryNowMs n) (env.publishNowMs n)
    rw [storeBatch, fittingMessages, ← haccepts, ← hid, ← hroom]
    dsimp only
    split
    · exact (ih _ _).trans (List.append_assoc _ _ _)
    · exact ih _ _

omit [TokenCount α] in
/-- Which messages find room depends on the broker through their compression only. -/
theorem fittingMessages_congr {b b' : Broker α} (h : b'.compressPayload lib = b.compressPayload lib)
    (env : HandlerEnv) (n : ℕ) (msgs : List PublishRequest) (rooms : TopicName → TopicRoom) :
    b'.fittingMessages lib env n msgs rooms = b.fittingMessages lib env n msgs rooms := by
  induction msgs generalizing n rooms with
  | nil => rfl
  | cons msg msgs ih => rw [fittingMessages, fittingMessages, h, ih]

/-- What a batch stores before it pushes anything. -/
theorem storedByBatch_eq (connId : ConnectionId) (msgs : List PublishRequest) (env : HandlerEnv) :
    b.storedByBatch lib connId msgs env =
      if b.admitsMessages connId msgs env then b.fittingMessages lib env 0 msgs b.store.roomAt
      else [] := by
  rw [storedByBatch, admitsMessages]
  split
  · rename_i hempty
    rw [if_neg (by simp [hempty])]
  rename_i hne
  obtain ⟨limiters, globalLimiter, refused, hcheck⟩ :=
    b.checkRateLimits_eq connId (UInt32.ofNat msgs.length) env
  rw [hcheck]
  rcases refused with - | errorMsg
  swap
  · rw [if_neg (by simp)]
  dsimp only
  split
  · rename_i hsize
    rw [if_neg (by simpa using fun _ => hsize)]
  · rename_i hsize
    rw [if_pos (by simpa [hne] using hsize)]
    refine (storedMessages_storeBatch lib _ env 0 msgs _).trans ?_
    refine (List.nil_append _).trans (fittingMessages_congr lib ?_ env 0 msgs b.store.roomAt)
    rfl

omit [TokenCount α] in
/-- They are for the topics of the batch. -/
theorem topicName_mem_of_mem_fittingMessages {env : HandlerEnv} {n : ℕ}
    {msgs : List PublishRequest} {rooms : TopicName → TopicRoom} {m : StoredMessage}
    (hm : m ∈ b.fittingMessages lib env n msgs rooms) :
    m.topicName ∈ msgs.map PublishRequest.topic := by
  induction msgs generalizing n rooms with
  | nil => cases hm
  | cons msg msgs ih =>
    rw [fittingMessages] at hm
    rw [List.map_cons]
    split at hm
    · rcases List.mem_cons.mp hm with rfl | hm
      · exact List.mem_cons_self
      · exact List.mem_cons_of_mem _ (ih hm)
    · exact List.mem_cons_of_mem _ (ih hm)

/-! ### One step -/

/-- The frames of a topic hold the messages that are delivered. -/
theorem forall_mem_topicFrames (together : Bool) (topic : TopicName) (msgs : List StoredMessage) :
    (∀ frame ∈ topicFrames together topic msgs, FitsFrame frame.wireSize) ↔
      MessagesFit together topic (delivered together msgs) := by
  cases together with
  | true =>
    rw [topicFrames, if_pos rfl, List.forall_mem_singleton, OutFrame.wireSize_batchPush,
      List.map_map]
    rfl
  | false =>
    rw [topicFrames, if_neg Bool.false_ne_true, List.forall_mem_map]
    rfl

omit [TokenCount α] in
/-- Nothing to send is within the limit. -/
theorem messagesFit_delivered_nil (batchPush : Bool) (topic : TopicName) :
    MessagesFit (batchPush && 1 < ([] : List StoredMessage).length) topic
      (delivered (batchPush && 1 < ([] : List StoredMessage).length) []) := by
  have htogether : (batchPush && decide (1 < ([] : List StoredMessage).length)) = false := by
    simp
  rw [htogether]
  exact nofun

variable {lib b}

/-- The frames of a publish request. -/
theorem forall_sent_handlePublish (hkeyed : b.topicManager.Keyed) (connId : ConnectionId)
    (req : PublishRequest) (env : HandlerEnv) :
    (∀ s ∈ (b.handlePublish lib connId (some req) env).2.sent, FitsFrame s.frame.wireSize) ↔
      b.PublishFits lib connId req env := by
  obtain ⟨resp, hbrief, hsent⟩ := b.sent_handlePublish lib connId (some req) env
  rw [hsent, List.forall_mem_append, List.forall_mem_singleton, and_iff_left hbrief.fitsFrame,
    List.forall_mem_map, stored_handlePublish, PublishFits]
  cases b.admitsPublish connId req env with
  | false => exact iff_of_true nofun nofun
  | true =>
    cases (b.store.roomAt req.topic).accepts (b.compressPayload lib req).1 with
    | false => exact iff_of_true nofun nofun
    | true =>
      rw [Bool.and_self, if_pos rfl, List.flatMap_singleton]
      have hpushes := forall_mem_publishPushes hkeyed req (b.compressPayload lib req).1
        (b.compressPayload lib req).2 (b.store.roomAt req.topic).nextMsgId env
        fun frame => FitsFrame frame.wireSize
      exact hpushes.trans ⟨fun h _ _ => h, fun h => h rfl rfl⟩

/-- The frames of a batch. -/
theorem forall_sent_handleBatchPublish (hkeyed : b.topicManager.Keyed) (connId : ConnectionId)
    (req : BatchPublishRequest) (env : HandlerEnv) :
    (∀ s ∈ (b.handleBatchPublish lib connId (some req) env).2.sent,
      FitsFrame s.frame.wireSize) ↔ b.BatchFits lib connId req.messages env := by
  obtain ⟨resp, hbrief, hsent⟩ := b.sent_batch lib connId req env
  set stored := b.storedByBatch lib connId req.messages env with hstored
  rw [storedByBatch_eq] at hstored
  have hframes := forall_mem_topicsPushes b.batchPush env (groupByTopic stored)
    (env.batchOrder.nodup_visit (groupByTopic stored)) hkeyed fun frame => FitsFrame frame.wireSize
  rw [hsent, List.forall_mem_append, List.forall_mem_singleton, and_iff_left hbrief.fitsFrame,
    List.forall_mem_map, hframes, BatchFits]
  simp only [forall_mem_topicFrames, env.batchOrder.mem_visit]
  cases hadmits : b.admitsMessages connId req.messages env with
  | false =>
    rw [hadmits, if_neg Bool.false_ne_true] at hstored
    rw [hstored]
    refine iff_of_true (fun topic htopic => absurd htopic (AList.notMem_empty topic)) ?_
    intro hfalse
    cases hfalse
  | true =>
    rw [hadmits, if_pos rfl] at hstored
    have hvalue : ∀ topic, valueAt (groupByTopic stored) topic [] =
        b.fittingOf lib env req.messages topic := by
      intro topic
      rw [valueAt_groupByTopic, hstored, fittingOf]
    simp only [hvalue, forall_const]
    constructor
    · intro h topic _ hreceiver
      by_cases htopic : topic ∈ groupByTopic stored
      · exact h topic htopic hreceiver
      · -- no message of the topic found room
        have hnone := hvalue topic
        rw [valueAt, AList.lookup_eq_none.mpr htopic, Option.getD_none] at hnone
        rw [← hnone]
        exact messagesFit_delivered_nil b.batchPush topic
    · intro h topic _ hreceiver
      rcases hmsgs : b.fittingOf lib env req.messages topic with - | ⟨m, msgs⟩
      · exact messagesFit_delivered_nil b.batchPush topic
      · have hm : m ∈ b.fittingOf lib env req.messages topic := hmsgs ▸ List.mem_cons_self
        obtain ⟨hm, hname⟩ := List.mem_filter.mp hm
        have htopic := topicName_mem_of_mem_fittingMessages lib b hm
        rw [of_decide_eq_true hname] at htopic
        rw [← hmsgs]
        exact h topic htopic hreceiver

omit [TokenCount α] in
/-- The frames of a pull. -/
theorem forall_sent_handlePull (connId : ConnectionId) (req : PullRequest) (env : HandlerEnv) :
    (∀ s ∈ (b.handlePull connId (some req) env).2.sent, FitsFrame s.frame.wireSize) ↔
      b.PullFits req env := by
  obtain ⟨resp, hbrief, hsent⟩ := b.sent_handlePull connId req env
  rw [hsent, List.forall_mem_append, List.forall_mem_singleton, and_iff_left hbrief.fitsFrame,
    List.forall_mem_map, PullFits, pullFrames]
  have hpull := b.store.pull_eq_take req.topic (consumerOf req.subscriberId req.groupId)
    req.maxMessages env.pullNowMs env.pulledAt
  rw [← waitingMessages] at hpull
  dsimp only
  rw [hpull]
  cases b.batchPush && decide (1 < (b.waitingMessages req env).length) with
  | true =>
    rw [if_pos rfl, List.forall_mem_singleton, OutFrame.wireSize_batchPush, List.map_map]
    rfl
  | false =>
    rw [if_neg Bool.false_ne_true, List.forall_mem_map, List.forall_mem_map]
    rfl

/-- **One step.** All frames with messages of a step are within the limit iff its request meets
the condition. -/
theorem forall_sent_step_iff (hkeyed : b.topicManager.Keyed) (op : BrokerOp) :
    (op.asksForMessages = true →
      ∀ s ∈ ((broker α lib).step b op).2.sent, FitsFrame s.frame.wireSize) ↔
        b.FramesFit lib op := by
  cases op with
  | frame connId frame env =>
    have hanswer : ∀ resp : Response, resp.Brief →
        ∀ s ∈ (BrokerResult.respond connId resp).sent, FitsFrame s.frame.wireSize := by
      intro resp hbrief s hs
      rw [List.mem_singleton.mp hs]
      exact hbrief.fitsFrame
    rw [FramesFit]
    by_cases hpublish : frame.msgType = .publish
    · have hasks : BrokerOp.asksForMessages (.frame connId frame env) = true := by
        simp [BrokerOp.asksForMessages, hpublish]
      rw [imp_iff_right hasks, step_publish lib b connId env hpublish]
      refine Iff.trans ?_ (and_iff_left ?_).symm
      · rw [imp_iff_right hpublish]
        rcases lib.parsePublishRequest frame.payload with - | req
        · exact iff_of_true (hanswer _ (by decide)) nofun
        · simp only [Option.mem_some_iff, forall_eq']
          exact forall_sent_handlePublish hkeyed connId req env
      · rw [hpublish]
        exact ⟨nofun, nofun⟩
    by_cases hbatch : frame.msgType = .batchPublish
    · have hasks : BrokerOp.asksForMessages (.frame connId frame env) = true := by
        simp [BrokerOp.asksForMessages, hbatch]
      rw [imp_iff_right hasks, step_batchPublish lib b connId env hbatch,
        and_iff_right fun h => absurd h hpublish]
      refine Iff.trans ?_ (and_iff_left ?_).symm
      · rw [imp_iff_right hbatch]
        cases b.configManager.globalConfig.batchPublishEnabled with
        | false => exact iff_of_true (hanswer _ (by decide)) nofun
        | true =>
          rw [if_pos rfl, imp_iff_right rfl]
          rcases lib.parseBatchPublishRequest frame.payload with - | req
          · exact iff_of_true (hanswer _ (by decide)) nofun
          · simp only [Option.mem_some_iff, forall_eq']
            exact forall_sent_handleBatchPublish hkeyed connId req env
      · rw [hbatch]
        exact nofun
    rw [and_iff_right fun h => absurd h hpublish, and_iff_right fun h => absurd h hbatch]
    by_cases hpull : frame.msgType = .pull
    · have hasks : BrokerOp.asksForMessages (.frame connId frame env) = true := by
        simp [BrokerOp.asksForMessages, hpull]
      rw [imp_iff_right hasks, step_pull lib b connId env hpull, imp_iff_right hpull]
      rcases lib.parsePullRequest frame.payload with - | req
      · exact iff_of_true (hanswer _ (by decide)) nofun
      · simp only [Option.mem_some_iff, forall_eq']
        exact forall_sent_handlePull connId req env
    · refine iff_of_true (fun hasks => ?_) fun h => absurd h hpull
      simp [BrokerOp.asksForMessages, hpublish, hbatch, hpull] at hasks
  | _ => exact iff_of_true nofun trivial

/-- A peer decodes the frames of a step iff its request meets the condition. -/
theorem decodable_step_iff {serializeToString : OutFrame → Option (List UInt8)}
    (hserialize : Serializes serializeToString) (hkeyed : b.topicManager.Keyed) (op : BrokerOp) :
    (op.asksForMessages = true →
      ∀ s ∈ ((broker α lib).step b op).2.sent, Decodable serializeToString s.frame) ↔
        b.FramesFit lib op := by
  simp only [decodable_iff hserialize]
  exact forall_sent_step_iff hkeyed op

/-! ### Whole runs -/

/-- **Frames.** A peer decodes all frames of a run that the handlers of publishes, batches and
pulls send iff each of their requests meets the condition in the state in which it arrives. -/
theorem decodable_sent_iff (lib : Libraries)
    {serializeToString : OutFrame → Option (List UInt8)} (hserialize : Serializes serializeToString)
    (config : BrokerConfig) (store : StoreConfig) (steadyNow : ℤ) (ops : List BrokerOp) :
    (broker α lib).Along (fun _ e => e.input.asksForMessages = true →
        ∀ s ∈ e.output.sent, Decodable serializeToString s.frame)
        (ofConfig config store steadyNow) ops ↔
      (broker α lib).Along (fun _ e => e.pre.FramesFit lib e.input)
        (ofConfig config store steadyNow) ops := by
  induction ops using List.reverseRecOn with
  | nil => exact iff_of_true (StepMachine.along_nil _ _ _) (StepMachine.along_nil _ _ _)
  | append_singleton ops op ih =>
    rw [StepMachine.along_concat, StepMachine.along_concat, ih]
    have hkeyed := keyed_run (α := α) lib config store steadyNow ops
    exact and_congr_right fun _ => decodable_step_iff hserialize hkeyed op

/-- The last request of a run whose frames are all decoded meets the condition. -/
theorem framesFit_of_along {serializeToString : OutFrame → Option (List UInt8)}
    (hserialize : Serializes serializeToString) {config : BrokerConfig} {store : StoreConfig}
    {steadyNow : ℤ} {ops : List BrokerOp} {op : BrokerOp}
    (h : (broker α lib).Along (fun _ e => e.input.asksForMessages = true →
        ∀ s ∈ e.output.sent, Decodable serializeToString s.frame)
      (ofConfig config store steadyNow) (ops ++ [op])) :
    ((broker α lib).run (ofConfig config store steadyNow) ops).FramesFit lib op := by
  rw [StepMachine.along_concat] at h
  exact (decodable_step_iff hserialize (keyed_run lib config store steadyNow ops) op).mp h.2

/-! ### A payload close to the limit -/

/-- A publish request for topic `t` on the wire. -/
def publishBytes (payload : Payload) : List UInt8 :=
  encodeMessage [.bytes 1 [116], .bytes 2 payload]

/-- Parsers that know the publish requests for topic `t` and the subscription of `c`. -/
def publishLibraries : Libraries where
  parsePublishRequest
    | 10 :: 1 :: 116 :: 18 :: rest =>
      match readVarint rest with
      | none => none
      | some (length, payload) =>
        if payload.length = length then some { topic := "t", payload := payload } else none
    | _ => none
  parseBatchPublishRequest _ := none
  parseSubscribeRequest := subscribeLibraries.parseSubscribeRequest
  parseUnsubscribeRequest _ := none
  parsePullRequest _ := none
  parseAckRequest _ := none
  parseAdminRequest _ := none
  compress2 _ := none

/-- The frame of a publish request. -/
def publishFrame (payload : Payload) : Frame :=
  { msgType := .publish, payload := publishBytes payload }

/-- A subscription of topic `t`, then a message for it. -/
def publishRun (payload : Payload) : List BrokerOp := [
  .frame 1 subscribeFrame (.ofClocks 0 1700000000000),
  .frame 2 (publishFrame payload) (.ofClocks 1000000 1700000000001)]

/-- A small message is pushed in a frame that the subscriber decodes. -/
theorem decodable_sent_smallPayload :
    (broker ℚ publishLibraries).Along (fun _ e => e.input.asksForMessages = true →
        ∀ s ∈ e.output.sent, Decodable wireSerializer s.frame)
      (ofConfig {} { defaultBufferSize := 128 } 0) (publishRun [97]) := by
  refine (decodable_sent_iff publishLibraries serializes_wireSerializer {}
    { defaultBufferSize := 128 } 0 (publishRun [97])).mpr ?_
  rw [StepMachine.along_iff_getElem]
  decide +kernel

theorem publishBytes_eq {payload : Payload} (hne : payload ≠ []) : publishBytes payload =
    10 :: 1 :: 116 :: 18 :: (varint payload.length ++ payload) := by
  have htopic : (Field.bytes 1 [116]).encode = [10, 1, 116] := by decide
  have hpayload : (Field.bytes 2 payload).encode = 18 :: (varint payload.length ++ payload) := by
    rw [Field.encode, if_neg hne, lengthDelimited, List.append_assoc]
    rfl
  rw [publishBytes, encodeMessage, List.flatMap_cons, List.flatMap_cons, List.flatMap_nil,
    List.append_nil, htopic, hpayload]
  rfl

theorem parse_publishBytes {payload : Payload} (hne : payload ≠ []) :
    publishLibraries.parsePublishRequest (publishBytes payload) =
      some { topic := "t", payload := payload } := by
  rw [publishBytes_eq hne]
  simp only [publishLibraries, readVarint_varint, if_true]

/-- A broker with one subscription to topic `t`, whose ring buffers are larger than a payload. -/
def largeBroker : Broker ℚ :=
  (broker ℚ publishLibraries).run (ofConfig {} { defaultBufferSize := 2 * kMaxPayloadSize } 0)
    [.frame 1 subscribeFrame (.ofClocks 0 1700000000000)]

theorem compressPayload_largeBroker (req : PublishRequest) :
    largeBroker.compressPayload publishLibraries req = (req.payload, req.compressed) := by
  have hoff : ∀ topic size, largeBroker.shouldCompress topic size = false := fun _ _ => rfl
  rw [compressPayload, hoff]
  rfl

theorem admitsPublish_largeBroker (payload : Payload) :
    largeBroker.admitsPublish 2 { topic := "t", payload := payload }
      (.ofClocks 1000000 1700000000001) = true := by
  have hdedup : largeBroker.deduplicates "" = false := by decide +kernel
  have hlimits : (largeBroker.checkRateLimits 2 1
      (.ofClocks 1000000 1700000000001)).2.isNone = true := by decide +kernel
  rw [admitsPublish, isDuplicateRequest, hdedup, hlimits]
  rfl

/-- The push of a payload that just fits its publish request. -/
theorem wireSize_push_nearLimit {payload : Payload}
    (hlength : payload.length = kMaxPayloadSize - 8) (hne : payload ≠ []) :
    PushMessage.wireSize ⟨1, "t", payload, 1700000000001, 0, false⟩ = kMaxPayloadSize + 9 := by
  have hpayload : (Field.bytes 3 payload).size = kMaxPayloadSize - 3 := by
    rw [Field.size, if_neg hne, lengthDelimitedSize, hlength]
    decide
  have htopic : (Field.bytes 2 (utf8Bytes "t")).size = 3 := by decide +kernel
  rw [PushMessage.wireSize, PushMessage.wireFields]
  simp only [messageSize_cons, messageSize_nil, hpayload, htopic]
  decide +kernel

/-- A payload that just fits its publish request is too long for a push. -/
theorem not_framesFit_largeBroker {payload : Payload}
    (hlength : payload.length = kMaxPayloadSize - 8) (hne : payload ≠ []) :
    ¬largeBroker.FramesFit publishLibraries
      (.frame 2 (publishFrame payload) (.ofClocks 1000000 1700000000001)) := by
  set env : HandlerEnv := .ofClocks 1000000 1700000000001
  intro h
  have hfits := h.1 rfl { topic := "t", payload := payload } (parse_publishBytes hne)
    (admitsPublish_largeBroker payload)
  have hroom : (largeBroker.store.roomAt "t").accepts payload = true := by
    have hfree : (largeBroker.store.roomAt "t").free = 2 * kMaxPayloadSize := by decide +kernel
    rw [TopicRoom.accepts, decide_eq_true_iff, hfree, hlength]
    decide
  have hid : (largeBroker.store.roomAt "t").nextMsgId = 1 := by decide +kernel
  have htimes : 1700000000001 ∈ pushTimes largeBroker.topicManager "t" env := by decide +kernel
  rw [compressPayload_largeBroker] at hfits
  have hpush := hfits hroom 1700000000001 htimes
  rw [pushedMessage, compressPayload_largeBroker, hid] at hpush
  have hsize := wireSize_push_nearLimit hlength hne
  have htime : (1700000000001 : UInt64).toNat = 1700000000001 := by decide +kernel
  rw [htime, hsize] at hpush
  exact absurd hpush (by decide)

/-- The publish request itself is within the limit. -/
theorem encodable_publishFrame {payload : Payload}
    (hlength : payload.length = kMaxPayloadSize - 8) (hne : payload ≠ []) :
    StreamingFrameCodec.Encodable (publishFrame payload) := by
  refine ⟨rfl, rfl, ?_⟩
  rw [publishFrame, publishBytes_eq hne]
  simp only [List.length_cons, List.length_append, length_varint, hlength]
  decide

/-- **Too large.** A codec accepts both frames of the run, but not the push that the second one
leads to. -/
theorem not_decodable_sent_nearLimit :
    Serializes wireSerializer ∧ StreamingFrameCodec.Encodable subscribeFrame ∧
      StreamingFrameCodec.Encodable
        (publishFrame (List.replicate (kMaxPayloadSize - 8) 0)) ∧
      ¬(broker ℚ publishLibraries).Along (fun _ e => e.input.asksForMessages = true →
          ∀ s ∈ e.output.sent, Decodable wireSerializer s.frame)
        (ofConfig {} { defaultBufferSize := 2 * kMaxPayloadSize } 0)
        (publishRun (List.replicate (kMaxPayloadSize - 8) 0)) := by
  have hlength : (List.replicate (kMaxPayloadSize - 8) (0 : UInt8)).length = kMaxPayloadSize - 8 :=
    List.length_replicate
  generalize List.replicate (kMaxPayloadSize - 8) (0 : UInt8) = payload at hlength ⊢
  have hne : payload ≠ [] := by
    rintro rfl
    exact absurd hlength (by decide)
  refine ⟨serializes_wireSerializer, by decide, encodable_publishFrame hlength hne, fun halong => ?_⟩
  have hrun : publishRun payload = [.frame 1 subscribeFrame (.ofClocks 0 1700000000000)] ++
      [.frame 2 (publishFrame payload) (.ofClocks 1000000 1700000000001)] := rfl
  rw [hrun] at halong
  have hfits := framesFit_of_along serializes_wireSerializer halong
  rw [← largeBroker] at hfits
  exact not_framesFit_largeBroker hlength hne hfits

end Broker

end ProtoMsgQueue
