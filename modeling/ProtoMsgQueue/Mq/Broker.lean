import ProtoMsgQueue.Common.DedupWindow
import ProtoMsgQueue.Common.RateLimiter
import ProtoMsgQueue.Mq.TopicManager
import ProtoMsgQueue.Protocol.FrameCodec
import ProtoMsgQueue.Protocol.Messages
import ProtoMsgQueue.Storage.MemoryMessageStore

/-!
# The broker

`Broker` of `mq/broker.cpp`: the handlers of the frames, over the topic manager, the store,
the deduplication window and the rate limiters. One thread handles all frames, so a run is a
list of frames, with the background passes of the store and the calls an application makes
in between.

Clock readings and the orders of loops over maps are inputs of a handler, collected in
`HandlerEnv`. A handler returns the new broker, the frames it hands to connections, and
which messages it stored.
-/

namespace ProtoMsgQueue

open UnorderedMap

variable {α : Type*}

/-- The broker. The rate limiters of the connections are kept here, by connection. -/
structure Broker (α : Type*) where
  store : MemoryMessageStore
  topicManager : TopicManager := {}
  configManager : ConfigManager
  /-- The configuration the connections see: a copy made when the broker was built. -/
  serverConfig : BrokerConfig
  dedupWindow : DedupWindow
  globalPublishLimiter : Option (TokenBucket α)
  /-- The limiters of connections that have published. -/
  publishLimiters : UnorderedMap ConnectionId (TokenBucket α) := ∅

/-- What a handler reads from its environment. -/
structure HandlerEnv where
  /-- The steady clock when a connection's limiter is made. -/
  limiterMadeAt : ℤ
  /-- The steady clock when the connection's limiter is asked. -/
  limiterAt : ℤ
  /-- The steady clock when the global limiter is asked. -/
  globalLimiterAt : ℤ
  /-- The system clock for the expiry of the `n`-th message of a request. -/
  expiryNowMs : ℕ → UInt64
  /-- The system clock for the store's timestamp of the `n`-th message. -/
  publishNowMs : ℕ → UInt64
  /-- The system clock for the timestamp of the `n`-th message in pushes. -/
  pushNowMs : ℕ → UInt64
  /-- The steady clock when the deduplication window is marked. -/
  markedAt : ℤ
  /-- The system clock of a pull. -/
  pullNowMs : UInt64
  /-- The steady clock when a pull delivers its `n`-th message. -/
  pulledAt : ℕ → ℤ
  /-- The order of a loop over the groups of a topic. -/
  groupOrder : VisitOrder String ConsumerGroup
  /-- The order of a loop over the topics of the manager. -/
  topicOrder : VisitOrder TopicName TopicInfo
  /-- The order of the loop over the topics of a batch. -/
  batchOrder : VisitOrder TopicName (List StoredMessage)

/-- An environment in which the clocks stand still and loops follow the association lists. -/
def HandlerEnv.ofClocks (steadyNow : ℤ) (nowMs : UInt64) : HandlerEnv where
  limiterMadeAt := steadyNow
  limiterAt := steadyNow
  globalLimiterAt := steadyNow
  expiryNowMs _ := nowMs
  publishNowMs _ := nowMs
  pushNowMs _ := nowMs
  markedAt := steadyNow
  pullNowMs := nowMs
  pulledAt _ := steadyNow
  groupOrder := .entries _ _
  topicOrder := .entries _ _
  batchOrder := .entries _ _

/-- The contents of a frame a broker sends. -/
inductive OutFrame where
  | response (resp : Response)
  | push (msg : PushMessage)
  | batchPush (msgs : List PushMessage)
  | pong
  | admin (resp : AdminResponse)
deriving DecidableEq, Repr

/-- A frame handed to a connection. -/
structure Sent where
  connId : ConnectionId
  frame : OutFrame
deriving DecidableEq, Repr

/-- A message the store accepted: the request it came with and its identifier. -/
structure StoredRequest where
  req : PublishRequest
  msgId : MessageId
deriving DecidableEq, Repr

/-- What a handler did. -/
structure BrokerResult where
  /-- The frames it sent, in order. -/
  sent : List Sent := []
  /-- The messages it stored, in order. -/
  stored : List StoredRequest := []
deriving DecidableEq, Repr

/-- A handler that only responds. -/
def BrokerResult.respond (connId : ConnectionId) (resp : Response) : BrokerResult where
  sent := [⟨connId, .response resp⟩]

/-- A handler that only responds to an administration command. -/
def BrokerResult.respondAdmin (connId : ConnectionId) (success : Bool) (errorMsg : String)
    (jsonResult : String := "") : BrokerResult where
  sent := [⟨connId, .admin ⟨success, errorMsg, jsonResult⟩⟩]

/-- A message as it is pushed. -/
def PushMessage.ofStored (msg : StoredMessage) (topic : TopicName) (compressed : Bool) :
    PushMessage where
  messageId := msg.id
  topic := topic
  payload := msg.payload
  timestamp := msg.timestamp
  retryCount := msg.retryCount
  compressed := compressed

namespace Broker

variable [TokenCount α] (lib : Libraries) (broker : Broker α)

/-- A new broker. -/
def ofConfig (config : BrokerConfig) (store : StoreConfig) (steadyNow : ℤ) : Broker α where
  store := MemoryMessageStore.ofConfig store
  configManager := { globalConfig := config }
  serverConfig := config
  dedupWindow := { maxProducers := config.dedupWindowSize.toNat }
  globalPublishLimiter :=
    if config.rateLimitEnabled then
      some (TokenBucket.ofRate config.globalPublishRate config.rateLimitBurst steadyNow)
    else none

/-! ### Rate limits -/

/-- `Connection::AcquirePublishPermit`: ask a connection's limiter, made at the first use. -/
def acquirePublishPermit (connId : ConnectionId) (tokens : UInt32) (env : HandlerEnv) :
    Broker α × Bool :=
  if broker.serverConfig.rateLimitEnabled then
    let limiter := (broker.publishLimiters.lookup connId).getD
      (TokenBucket.ofRate broker.serverConfig.connPublishRate broker.serverConfig.rateLimitBurst
        env.limiterMadeAt)
    let (limiter, ok) := limiter.acquire tokens env.limiterAt
    ({ broker with publishLimiters := broker.publishLimiters.insert connId limiter }, ok)
  else (broker, true)

/-- Ask the global limiter, if there is one. -/
def acquireGlobalPermit (tokens : UInt32) (env : HandlerEnv) : Broker α × Bool :=
  match broker.globalPublishLimiter with
  | none => (broker, true)
  | some limiter =>
    let (limiter, ok) := limiter.acquire tokens env.globalLimiterAt
    ({ broker with globalPublishLimiter := some limiter }, ok)

/-- The limits of a publish request: that of the connection, then the global one. The text
of the error if one of them refuses. -/
def checkRateLimits (connId : ConnectionId) (tokens : UInt32) (env : HandlerEnv) :
    Broker α × Option String :=
  if broker.configManager.globalConfig.rateLimitEnabled then
    match broker.acquirePublishPermit connId tokens env with
    | (broker, false) => (broker, some "Rate limit exceeded")
    | (broker, true) =>
      match broker.acquireGlobalPermit tokens env with
      | (broker, false) => (broker, some "Global rate limit exceeded")
      | (broker, true) => (broker, none)
  else (broker, none)

/-! ### Compression and pushes -/

/-- Does the configuration ask for compression of a payload of this size? -/
def shouldCompress (topic : TopicName) (payloadSize : ℕ) : Bool :=
  let globalConfig := broker.configManager.globalConfig
  if !globalConfig.compressionEnabled then false
  else if payloadSize < globalConfig.compressionThresholdBytes.toNat then false
  else if (broker.topicManager.getTopicConfig topic).compressionEnabled then true
  else globalConfig.compressionEnabled

/-- The payload that is stored for a request, and whether it is compressed. -/
def compressPayload (req : PublishRequest) : Payload × Bool :=
  if broker.shouldCompress req.topic req.payload.length && !req.compressed then
    let compressed := lib.compress req.payload
    if compressed ≠ [] && compressed.length < req.payload.length then (compressed, true)
    else (req.payload, req.compressed)
  else (req.payload, req.compressed)

/-- How long the message of a request lives. -/
def requestTtlMs (req : PublishRequest) : UInt32 :=
  if broker.configManager.globalConfig.ttlEnabled then req.ttlMs else 0

/-- The connection of a member of a group; zero if the group has no such member. -/
def memberConnId (members : List ConsumerGroupMember) (subscriberId : SubscriberId) :
    ConnectionId :=
  match members.find? fun member => member.subscriberId = subscriberId with
  | none => 0
  | some member => member.connId

/-- Select a member of each group in turn. The connections that get the message. -/
def selectTargets (topic : TopicName) :
    List ConsumerGroup → TopicManager → TopicManager × List ConnectionId
  | [], tm => (tm, [])
  | group :: groups, tm =>
    if group.members = [] then selectTargets topic groups tm
    else
      let (tm, selectedMember) := tm.selectNextMember topic group.groupId
      let (tm', targets) := selectTargets topic groups tm
      let targetConnId := memberConnId group.members selectedMember
      if selectedMember = "" || targetConnId = 0 then (tm', targets)
      else (tm', targetConnId :: targets)

/-- Select a member of each group of a topic. -/
def selectGroupTargets (topic : TopicName) (env : HandlerEnv) : Broker α × List ConnectionId :=
  let groups := broker.topicManager.getConsumerGroups env.groupOrder topic
  let (topicManager, targets) := selectTargets topic groups broker.topicManager
  ({ broker with topicManager := topicManager }, targets)

/-! ### Publish -/

/-- Push a stored message to the broadcast subscribers of its topic and to one member of
each group. The broadcast and every group have a timestamp of their own. -/
def pushPublished (req : PublishRequest) (payload : Payload) (compressed : Bool)
    (msgId : MessageId) (env : HandlerEnv) : Broker α × List Sent :=
  let pushAt (n : ℕ) : OutFrame :=
    .push ⟨msgId, req.topic, payload, (env.pushNowMs n).toNat, 0, compressed⟩
  let subscribers := broker.topicManager.getSubscribers req.topic
  let (broker, targets) := broker.selectGroupTargets req.topic env
  (broker, subscribers.map (fun sub => ⟨sub.connId, pushAt 0⟩) ++
    targets.mapIdx fun n connId => ⟨connId, pushAt (n + 1)⟩)

/-- Does the broker check a request of this producer for duplicates? -/
def deduplicates (producerId : String) : Bool :=
  broker.configManager.globalConfig.dedupEnabled && producerId ≠ ""

/-- Note in the deduplication window that a request was processed. -/
def markProcessed (req : PublishRequest) (env : HandlerEnv) : Broker α :=
  if broker.deduplicates req.producerId then
    { broker with
      dedupWindow := broker.dedupWindow.markProcessed req.producerId req.sequenceId env.markedAt }
  else broker

/-- Store the message of a request that passed the checks, push it and respond. -/
def storePublish (connId : ConnectionId) (req : PublishRequest) (env : HandlerEnv) :
    Broker α × BrokerResult :=
  let (payload, compressed) := broker.compressPayload lib req
  let (store, msgId, success) := broker.store.publish req.topic payload (broker.requestTtlMs req)
    (env.expiryNowMs 0) (env.publishNowMs 0)
  let broker := { broker with store := store }
  if !success then
    (broker, .respond connId (.ofErrorCode .bufferFull "Backpressure: buffer full" 0))
  else
    let (broker, pushes) := broker.pushPublished req payload compressed msgId env
    (broker.markProcessed req env,
      { sent := pushes ++ [⟨connId, .response (.ofBool true "" msgId)⟩]
        stored := [⟨req, msgId⟩] })

/-- Handle a publish request; `none` is one that does not parse. -/
def handlePublish (connId : ConnectionId) (parsed : Option PublishRequest) (env : HandlerEnv) :
    Broker α × BrokerResult :=
  match parsed with
  | none =>
    (broker, .respond connId (.ofErrorCode .invalidRequest "Failed to parse publish request"))
  | some req =>
    -- A duplicate gets an idempotent response and is not processed again.
    if broker.deduplicates req.producerId &&
        broker.dedupWindow.isDuplicate req.producerId req.sequenceId then
      (broker, .respond connId (.ofBool true "" req.sequenceId))
    else
      match broker.checkRateLimits connId 1 env with
      | (broker, some errorMsg) =>
        (broker, .respond connId (.ofErrorCode .rateLimitExceeded errorMsg))
      | (broker, none) => broker.storePublish lib connId req env

/-! ### Batch publish -/

/-- What the loop over a batch changes. -/
structure BatchState where
  store : MemoryMessageStore
  /-- The stored messages as they are pushed. -/
  storedMessages : List StoredMessage := []
  lastMsgId : MessageId := 0
  anySuccess : Bool := false
  stored : List StoredRequest := []

/-- The loop over the messages of a batch, the `n`-th first. -/
def storeBatch (env : HandlerEnv) : ℕ → List PublishRequest → BatchState → BatchState
  | _, [], st => st
  | n, msg :: msgs, st =>
    let (payload, _) := broker.compressPayload lib msg
    let (store, msgId, success) := st.store.publish msg.topic payload (broker.requestTtlMs msg)
      (env.expiryNowMs n) (env.publishNowMs n)
    let st := { st with store := store }
    if success then
      let message : StoredMessage :=
        { id := msgId, topicName := msg.topic, payload := payload
          timestamp := (env.pushNowMs n).toNat, retryCount := 0 }
      storeBatch env (n + 1) msgs
        { st with
          storedMessages := st.storedMessages ++ [message]
          lastMsgId := msgId
          anySuccess := true
          stored := st.stored ++ [⟨msg, msgId⟩] }
    else storeBatch env (n + 1) msgs st

/-- The stored messages of a batch by topic. -/
def groupByTopic (msgs : List StoredMessage) : UnorderedMap TopicName (List StoredMessage) :=
  msgs.foldl (fun m msg => m.insert msg.topicName (valueAt m msg.topicName [] ++ [msg])) ∅

/-- The frames pushed for the messages of one topic: one frame, with all messages or with
the first one alone. -/
def topicFrames (useBatch : Bool) (topic : TopicName) (msgs : List StoredMessage) :
    List OutFrame :=
  if useBatch then [.batchPush (msgs.map fun msg => .ofStored msg topic false)]
  else (msgs.take 1).map fun msg => .push (.ofStored msg topic false)

/-- Push the messages of one topic. -/
def pushTopic (env : HandlerEnv) (topic : TopicName) (msgs : List StoredMessage) :
    Broker α × List Sent :=
  let useBatch := broker.configManager.globalConfig.batchPushEnabled && 1 < msgs.length
  let frames := topicFrames useBatch topic msgs
  let subscribers := broker.topicManager.getSubscribers topic
  let (broker, targets) := broker.selectGroupTargets topic env
  (broker, (subscribers.map SubscriberInfo.connId ++ targets).flatMap fun connId =>
    frames.map (Sent.mk connId))

/-- Push the messages of the topics of a batch. -/
def pushTopics (env : HandlerEnv) (topicMessages : UnorderedMap TopicName (List StoredMessage)) :
    List TopicName → Broker α → Broker α × List Sent
  | [], broker => (broker, [])
  | topic :: topics, broker =>
    let (broker, sent) := broker.pushTopic env topic (valueAt topicMessages topic [])
    let (broker, sent') := pushTopics env topicMessages topics broker
    (broker, sent ++ sent')

/-- Store the messages of a batch that passed the checks, push them and respond. -/
def storeBatchPublish (connId : ConnectionId) (msgs : List PublishRequest) (env : HandlerEnv) :
    Broker α × BrokerResult :=
  let st := broker.storeBatch lib env 0 msgs { store := broker.store }
  let broker := { broker with store := st.store }
  if !st.anySuccess then
    (broker, .respond connId (.ofErrorCode .bufferFull "Backpressure: buffer full" 0))
  else
    let topicMessages := groupByTopic st.storedMessages
    let (broker, pushes) :=
      pushTopics env topicMessages (env.batchOrder.visit topicMessages) broker
    (broker,
      { sent := pushes ++ [⟨connId, .response (.ofBool true "" st.lastMsgId)⟩]
        stored := st.stored })

/-- Handle a batch; `none` is one that does not parse. -/
def handleBatchPublish (connId : ConnectionId) (parsed : Option BatchPublishRequest)
    (env : HandlerEnv) : Broker α × BrokerResult :=
  match parsed with
  | none =>
    (broker, .respond connId
      (.ofErrorCode .invalidRequest "Failed to parse batch publish request"))
  | some req =>
    if req.messages = [] then
      (broker, .respond connId (.ofErrorCode .invalidRequest "Empty batch publish request"))
    else
      let messagesSize := UInt32.ofNat req.messages.length
      match broker.checkRateLimits connId messagesSize env with
      | (broker, some errorMsg) =>
        (broker, .respond connId (.ofErrorCode .rateLimitExceeded errorMsg))
      | (broker, none) =>
        if broker.configManager.globalConfig.maxBatchSize < messagesSize then
          (broker, .respond connId (.ofErrorCode .batchSizeExceeded "Batch size exceeds limit"))
        else broker.storeBatchPublish lib connId req.messages env

/-! ### Consumers -/

/-- Handle a subscription. -/
def handleSubscribe (connId : ConnectionId) (parsed : Option SubscribeRequest) :
    Broker α × BrokerResult :=
  match parsed with
  | none =>
    (broker, .respond connId (.ofErrorCode .invalidRequest "Failed to parse subscribe request"))
  | some req =>
    let (topicManager, success) :=
      broker.topicManager.subscribe req.topic ⟨req.subscriberId, connId⟩ req.groupId
    let store := if success then (broker.store.createTopic req.topic).1 else broker.store
    ({ broker with topicManager := topicManager, store := store },
      .respond connId (if success then .ofErrorCode .success ""
        else .ofErrorCode .alreadySubscribed "Already subscribed"))

/-- Handle the end of a subscription. -/
def handleUnsubscribe (connId : ConnectionId) (parsed : Option UnsubscribeRequest) :
    Broker α × BrokerResult :=
  match parsed with
  | none =>
    (broker, .respond connId
      (.ofErrorCode .invalidRequest "Failed to parse unsubscribe request"))
  | some req =>
    let (topicManager, success) :=
      broker.topicManager.unsubscribe req.topic req.subscriberId req.groupId
    ({ broker with topicManager := topicManager },
      .respond connId (if success then .ofErrorCode .success ""
        else .ofErrorCode .notSubscribed "Not subscribed"))

/-- The consumer a request speaks for: its group, or its subscriber without one. -/
def consumerOf (subscriberId : SubscriberId) (groupId : String) : Consumer :=
  if groupId = "" then ⟨false, subscriberId⟩ else ⟨true, groupId⟩

/-- Handle a pull: the messages, then the response with the last identifier. -/
def handlePull (connId : ConnectionId) (parsed : Option PullRequest) (env : HandlerEnv) :
    Broker α × BrokerResult :=
  match parsed with
  | none =>
    (broker, .respond connId (.ofErrorCode .invalidRequest "Failed to parse pull request"))
  | some req =>
    let (store, msgs) := broker.store.pull req.topic (consumerOf req.subscriberId req.groupId)
      req.maxMessages env.pullNowMs env.pulledAt
    let pushed := msgs.map fun msg => PushMessage.ofStored msg req.topic false
    let useBatch := broker.configManager.globalConfig.batchPushEnabled && 1 < msgs.length
    let frames := if useBatch then [OutFrame.batchPush pushed] else pushed.map OutFrame.push
    let lastId := (msgs.getLast?.map StoredMessage.id).getD 0
    ({ broker with store := store },
      { sent := frames.map (Sent.mk connId) ++ [⟨connId, .response (.ofBool true "" lastId)⟩] })

/-- Handle an acknowledgement. -/
def handleAck (connId : ConnectionId) (parsed : Option AckRequest) : Broker α × BrokerResult :=
  match parsed with
  | none =>
    (broker, .respond connId (.ofErrorCode .invalidRequest "Failed to parse ack request"))
  | some req =>
    let (store, success) :=
      broker.store.ack req.topic (consumerOf req.subscriberId req.groupId) req.messageId
    ({ broker with store := store },
      .respond connId (if success then .ofErrorCode .success ""
        else .ofErrorCode .messageNotFound "Message not found"))

/-! ### Administration -/

/-- The texts between commas. -/
def joinNames (sep : String) : List String → String
  | [] => ""
  | [name] => name
  | name :: names => name ++ sep ++ joinNames sep names

/-- The answer to the command that lists the topics. -/
def topicsJson (names : List String) : String :=
  "\x7b\"topics\":" ++ ("[\"" ++ joinNames "\",\"" names ++ "\"]") ++ "\x7d"

/-- The answer to the command that describes a topic. -/
def topicInfoJson (topic : TopicName) (hasTopic : Bool) (subscribers groups : ℕ) : String :=
  "\x7b\"topic\":\"" ++ topic ++ "\"" ++
  ",\"exists\":" ++ (if hasTopic then "true" else "false") ++
  ",\"subscribers\":" ++ toString subscribers ++
  ",\"consumer_groups\":" ++ toString groups ++ "\x7d"

/-- Handle an administration command. -/
def handleAdmin (connId : ConnectionId) (parsed : Option AdminRequest) (env : HandlerEnv) :
    Broker α × BrokerResult :=
  match parsed with
  | none => (broker, .respondAdmin connId false "Failed to parse admin request")
  | some req =>
    match req.command with
    | .listTopics =>
      let topics := broker.topicManager.getAllTopics env.topicOrder
      (broker, .respondAdmin connId true "" (topicsJson (topics.map TopicInfo.name)))
    | .getTopicInfo =>
      if req.topic = "" then (broker, .respondAdmin connId false "Topic name required")
      else
        let tm := broker.topicManager
        (broker, .respondAdmin connId true "" (topicInfoJson req.topic (tm.hasTopic req.topic)
          (tm.getSubscribers req.topic).length
          (tm.getConsumerGroups env.groupOrder req.topic).length))
    | .deleteTopic =>
      if req.topic = "" then (broker, .respondAdmin connId false "Topic name required")
      else
        ({ broker with
            store := (broker.store.deleteTopic req.topic).1
            topicManager := (broker.topicManager.unregisterTopic req.topic).1 },
          .respondAdmin connId true "" "\x7b\"deleted\":true\x7d")
    | .getStats =>
      let topics := broker.topicManager.getAllTopics env.topicOrder
      (broker, .respondAdmin connId true "" ("\x7b\"topics\":" ++ toString topics.length ++
        ",\"dedup_producers\":" ++ toString broker.dedupWindow.producerCount ++ "\x7d"))
    | .getConnections =>
      -- A placeholder: the server does not expose the number of connections.
      (broker, .respondAdmin connId true "" "\x7b\"connections\":0\x7d")
    | .cleanupTopic =>
      if req.topic = "" then (broker, .respondAdmin connId false "Topic name required")
      else
        let store := (broker.store.deleteTopic req.topic).1
        ({ broker with store := (store.createTopic req.topic).1 },
          .respondAdmin connId true "" "\x7b\"cleaned\":true\x7d")
    | .unknown => (broker, .respondAdmin connId false "Unknown admin command")

/-! ### All frames -/

/-- Handle a heartbeat. -/
def handlePing (connId : ConnectionId) : Broker α × BrokerResult :=
  (broker, { sent := [⟨connId, .pong⟩] })

/-- Handle a frame. -/
def onFrameReceived (connId : ConnectionId) (frame : Frame) (env : HandlerEnv) :
    Broker α × BrokerResult :=
  let config := broker.configManager.globalConfig
  if frame.msgType = .publish then
    broker.handlePublish lib connId (lib.parsePublishRequest frame.payload) env
  else if frame.msgType = .batchPublish then
    if config.batchPublishEnabled then
      broker.handleBatchPublish lib connId (lib.parseBatchPublishRequest frame.payload) env
    else
      (broker, .respond connId (.ofErrorCode .invalidRequest "Batch publish is disabled"))
  else if frame.msgType = .subscribe then
    broker.handleSubscribe connId (lib.parseSubscribeRequest frame.payload)
  else if frame.msgType = .unsubscribe then
    broker.handleUnsubscribe connId (lib.parseUnsubscribeRequest frame.payload)
  else if frame.msgType = .pull then
    broker.handlePull connId (lib.parsePullRequest frame.payload) env
  else if frame.msgType = .ack then
    broker.handleAck connId (lib.parseAckRequest frame.payload)
  else if frame.msgType = .ping then
    if config.heartbeatEnabled then broker.handlePing connId else (broker, {})
  else if frame.msgType = .admin then
    broker.handleAdmin connId (lib.parseAdminRequest frame.payload) env
  else (broker, .respond connId (.ofErrorCode .unknown "Unknown message type"))

/-- A connection was closed by the heartbeat check. -/
def onConnectionClosed (connId : ConnectionId) : Broker α :=
  { broker with topicManager := (broker.topicManager.unsubscribeByConnId connId).1 }

/-- Publish without a frame: the message has no expiry and no producer, and is not pushed. -/
def publishLocal (topic : TopicName) (payload : Payload) (env : HandlerEnv) :
    Broker α × BrokerResult :=
  let (store, msgId, success) :=
    broker.store.publish topic payload 0 (env.expiryNowMs 0) (env.publishNowMs 0)
  ({ broker with store := store },
    { stored := if success then [⟨{ topic := topic, payload := payload }, msgId⟩] else [] })

end Broker

/-! ### Runs -/

/-- What happens to a broker. -/
inductive BrokerOp where
  /-- A frame arrives. -/
  | frame (connId : ConnectionId) (frame : Frame) (env : HandlerEnv)
  /-- A connection is closed by the heartbeat check. -/
  | connectionClosed (connId : ConnectionId)
  /-- The application publishes. -/
  | publishLocal (topic : TopicName) (payload : Payload) (env : HandlerEnv)
  /-- The application configures a topic. -/
  | setTopicConfig (topic : TopicName) (config : TopicConfig)
  /-- The application changes the global configuration. -/
  | setGlobalConfig (config : BrokerConfig)
  /-- The store's retry thread visits a topic. -/
  | retryPass (topic : TopicName) (clock : TopicData.PassClock) (order : PassOrder)
  /-- The store's expiration thread visits a topic. -/
  | expirePass (topic : TopicName) (nowMs : UInt64)

/-- The broker as a machine. -/
def broker (α : Type*) [TokenCount α] (lib : Libraries) :
    StepMachine (Broker α) BrokerOp BrokerResult where
  step b
    | .frame connId frame env => b.onFrameReceived lib connId frame env
    | .connectionClosed connId => (b.onConnectionClosed connId, {})
    | .publishLocal topic payload env => b.publishLocal topic payload env
    | .setTopicConfig topic config =>
      ({ b with configManager := b.configManager.setTopicConfig topic config }, {})
    | .setGlobalConfig config =>
      ({ b with configManager := { b.configManager with globalConfig := config } }, {})
    | .retryPass topic clock order =>
      ({ b with store := (b.store.processPendingRetries topic clock order).1 }, {})
    | .expirePass topic nowMs => ({ b with store := b.store.expireTopicMessages topic nowMs }, {})

/-- A recorded step of a broker. -/
abbrev BrokerEvent (α : Type*) := StepMachine.Event (Broker α) BrokerOp BrokerResult

end ProtoMsgQueue
