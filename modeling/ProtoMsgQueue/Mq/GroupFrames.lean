import ProtoMsgQueue.Mq.BatchFanOut
import ProtoMsgQueue.Mq.StoreOps
import ProtoMsgQueue.Storage.HandedOnce

/-!
# The frames for a consumer group

A connection can be a broadcast subscriber of a topic and a member of several of its groups, so
the frames a broker sends do not say whom a message is for. `groupFrames` lists the frames with
messages that a step sends, each with the group it is sent for: the group a member was selected
from, or the group of a pull request. `sent_step` says that these are the frames sent.
-/

namespace ProtoMsgQueue

open UnorderedMap TopicManager

/-- A frame handed to a connection, and the consumer group it is for; none for a subscriber. -/
structure TaggedSent where
  group : Option String
  sent : Sent

/-- The identifiers of the messages of a topic that frames hold for a group. -/
def deliveredTo (topic : TopicName) (group : String) (frames : List TaggedSent) :
    List MessageId :=
  (((frames.filter fun f => f.group = some group).flatMap fun f => f.sent.frame.messages).filter
    fun msg => msg.topic = topic).map PushMessage.messageId

theorem deliveredTo_append (topic : TopicName) (group : String) (frames frames' : List TaggedSent) :
    deliveredTo topic group (frames ++ frames') =
      deliveredTo topic group frames ++ deliveredTo topic group frames' := by
  simp [deliveredTo]

namespace Broker

variable {α : Type*}

/-! ### Selected members with their groups -/

/-- `selectTargets`, with the group of each connection. -/
def selectMembers (topic : TopicName) :
    List ConsumerGroup → TopicManager → List (String × ConnectionId)
  | [], _ => []
  | group :: groups, tm =>
    if group.members = [] then selectMembers topic groups tm
    else
      let (tm, selectedMember) := tm.selectNextMember topic group.groupId
      let targetConnId := memberConnId group.members selectedMember
      if selectedMember = "" || targetConnId = 0 then selectMembers topic groups tm
      else (group.groupId, targetConnId) :: selectMembers topic groups tm

/-- The members selected for a topic. -/
def selectedMembers (topic : TopicName) (env : HandlerEnv) (tm : TopicManager) :
    List (String × ConnectionId) :=
  selectMembers topic (tm.getConsumerGroups env.groupOrder topic) tm

theorem map_snd_selectMembers (topic : TopicName) (groups : List ConsumerGroup)
    (tm : TopicManager) :
    (selectMembers topic groups tm).map Prod.snd = (selectTargets topic groups tm).2 := by
  induction groups generalizing tm with
  | nil => rfl
  | cons group groups ih =>
    rw [selectMembers, selectTargets]
    split
    · exact ih tm
    · dsimp only
      split
      · exact ih _
      · rw [List.map_cons, ih]

/-- Each group has one selected member at most. -/
theorem map_fst_selectMembers_sublist (topic : TopicName) (groups : List ConsumerGroup)
    (tm : TopicManager) :
    ((selectMembers topic groups tm).map Prod.fst).Sublist (groups.map ConsumerGroup.groupId) := by
  induction groups generalizing tm with
  | nil => exact .slnil
  | cons group groups ih =>
    rw [selectMembers, List.map_cons]
    split
    · exact (ih tm).cons _
    · dsimp only
      split
      · exact (ih _).cons _
      · exact (ih _).cons_cons _

/-! ### The frames of a publish and of a batch -/

/-- The pushes of `pushPublished`. -/
def publishPushes (req : PublishRequest) (payload : Payload) (compressed : Bool)
    (msgId : MessageId) (env : HandlerEnv) (tm : TopicManager) : List TaggedSent :=
  let pushAt (n : ℕ) : OutFrame :=
    .push ⟨msgId, req.topic, payload, (env.pushNowMs n).toNat, 0, compressed⟩
  (tm.getSubscribers req.topic).map (fun sub => ⟨none, sub.connId, pushAt 0⟩) ++
    (selectedMembers req.topic env tm).mapIdx fun n p => ⟨some p.1, p.2, pushAt (n + 1)⟩

/-- The pushes of `pushTopic`. -/
def topicPushes (batchPush : Bool) (env : HandlerEnv) (topic : TopicName)
    (msgs : List StoredMessage) (tm : TopicManager) : List TaggedSent :=
  let frames := topicFrames (batchPush && 1 < msgs.length) topic msgs
  let receivers : List (Option String × ConnectionId) :=
    (tm.getSubscribers topic).map (fun sub => (none, sub.connId)) ++
      (selectedMembers topic env tm).map fun p => (some p.1, p.2)
  receivers.flatMap fun p => frames.map fun frame => ⟨p.1, p.2, frame⟩

/-- The pushes of `pushTopics`. -/
def topicsPushes (batchPush : Bool) (env : HandlerEnv)
    (topicMessages : UnorderedMap TopicName (List StoredMessage)) :
    List TopicName → TopicManager → List TaggedSent
  | [], _ => []
  | topic :: topics, tm =>
    topicPushes batchPush env topic (valueAt topicMessages topic []) tm ++
      topicsPushes batchPush env topicMessages topics
        (selectTargets topic (tm.getConsumerGroups env.groupOrder topic) tm).1

theorem map_sent_publishPushes (b : Broker α) (req : PublishRequest) (payload : Payload)
    (compressed : Bool) (msgId : MessageId) (env : HandlerEnv) :
    (publishPushes req payload compressed msgId env b.topicManager).map TaggedSent.sent =
      (b.pushPublished req payload compressed msgId env).2 := by
  have htargets := map_snd_selectMembers req.topic
    (b.topicManager.getConsumerGroups env.groupOrder req.topic) b.topicManager
  simp only [publishPushes, pushPublished, selectGroupTargets, selectedMembers, ← htargets,
    List.map_append, List.map_map]
  refine congrArg (List.append _) (List.ext_getElem? fun n => ?_)
  simp only [List.getElem?_map, List.getElem?_mapIdx, Option.map_map]
  rfl

theorem map_sent_topicPushes (b : Broker α) (env : HandlerEnv) (topic : TopicName)
    (msgs : List StoredMessage) :
    (topicPushes b.batchPush env topic msgs b.topicManager).map TaggedSent.sent =
      (b.pushTopic env topic msgs).2 := by
  have htargets := map_snd_selectMembers topic
    (b.topicManager.getConsumerGroups env.groupOrder topic) b.topicManager
  simp only [topicPushes, pushTopic, selectGroupTargets, selectedMembers, ← htargets, batchPush,
    List.map_append, List.map_flatMap, List.flatMap_append, List.flatMap_map, List.map_map]
  rfl

theorem map_sent_topicsPushes (env : HandlerEnv)
    (topicMessages : UnorderedMap TopicName (List StoredMessage)) (topics : List TopicName)
    (b : Broker α) :
    (topicsPushes b.batchPush env topicMessages topics b.topicManager).map TaggedSent.sent =
      (pushTopics env topicMessages topics b).2 := by
  induction topics generalizing b with
  | nil => rfl
  | cons topic topics ih =>
    have hrest := ih (b.pushTopic env topic (valueAt topicMessages topic [])).1
    rw [topicsPushes, List.map_append, map_sent_topicPushes, pushTopics]
    dsimp only
    rw [← hrest]
    rfl

/-! ### What a group gets of them -/

/-- At most one of the selected members is of the group. -/
theorem length_filter_selectedMembers_le {tm : TopicManager} (hkeyed : tm.Keyed)
    (env : HandlerEnv) (topic : TopicName) (group : String) :
    ((selectedMembers topic env tm).filter fun p => p.1 = group).length ≤ 1 := by
  have hnodup := (hkeyed.nodup_groupIds env.groupOrder topic).sublist
    (map_fst_selectMembers_sublist topic (tm.getConsumerGroups env.groupOrder topic) tm)
  have hcount := List.nodup_iff_count_le_one.mp hnodup group
  rw [List.count, List.countP_map, List.countP_eq_length_filter] at hcount
  refine le_of_eq_of_le (congrArg List.length (List.filter_congr fun p _ => ?_)) hcount
  rw [Function.comp, beq_eq_decide]

/-- One frame for the group at most: it gets what is in that frame. -/
theorem deliveredTo_sublist_of_length_le {topic : TopicName} {group : String}
    {frames : List TaggedSent} {ids : List MessageId}
    (hlength : (frames.filter fun f => f.group = some group).length ≤ 1)
    (hids : ∀ f ∈ frames, ((f.sent.frame.messages.filter fun msg => msg.topic = topic).map
      PushMessage.messageId).Sublist ids) : (deliveredTo topic group frames).Sublist ids := by
  have hone : ∀ l : List TaggedSent, l.length ≤ 1 →
      (∀ f ∈ l, ((f.sent.frame.messages.filter fun msg => msg.topic = topic).map
        PushMessage.messageId).Sublist ids) →
      (((l.flatMap fun f => f.sent.frame.messages).filter fun msg => msg.topic = topic).map
        PushMessage.messageId).Sublist ids := by
    rintro (- | ⟨f, - | ⟨f', l⟩⟩) hle hall
    · exact List.nil_sublist _
    · simpa using hall f (List.mem_singleton_self f)
    · simp at hle
  exact hone _ hlength fun f hf => hids f (List.mem_filter.mp hf).1

/-- A group gets a published message once at most. -/
theorem deliveredTo_publishPushes_sublist {tm : TopicManager} (hkeyed : tm.Keyed)
    (req : PublishRequest) (payload : Payload) (compressed : Bool) (msgId : MessageId)
    (env : HandlerEnv) (topic : TopicName) (group : String) :
    (deliveredTo topic group (publishPushes req payload compressed msgId env tm)).Sublist
      (if req.topic = topic then [msgId] else []) := by
  set members := selectedMembers req.topic env tm with hmembers
  set frames : List TaggedSent := members.mapIdx fun n p => ⟨some p.1, p.2,
    .push ⟨msgId, req.topic, payload, (env.pushNowMs (n + 1)).toNat, 0, compressed⟩⟩ with hframes
  have hsubs : deliveredTo topic group ((tm.getSubscribers req.topic).map fun sub =>
      ⟨none, sub.connId,
        .push ⟨msgId, req.topic, payload, (env.pushNowMs 0).toNat, 0, compressed⟩⟩) = [] := by
    rw [deliveredTo, List.filter_eq_nil_iff.mpr (by simp)]
    rfl
  have hgroups : frames.map TaggedSent.group = members.map fun p => some p.1 := by
    refine List.ext_getElem? fun n => ?_
    simp only [hframes, List.getElem?_map, List.getElem?_mapIdx, Option.map_map]
    rfl
  have hlength : (frames.filter fun f => f.group = some group).length ≤ 1 := by
    have hle := length_filter_selectedMembers_le hkeyed env req.topic group
    have hcount := congrArg (List.countP fun tag => tag = some group) hgroups
    rw [List.countP_map, List.countP_map, List.countP_eq_length_filter,
      List.countP_eq_length_filter] at hcount
    refine le_of_eq_of_le hcount (le_of_eq_of_le (congrArg List.length ?_) hle)
    exact List.filter_congr fun p _ => by simp
  have hmessages : ∀ f ∈ frames, ∃ n, f.sent.frame.messages =
      [⟨msgId, req.topic, payload, n, 0, compressed⟩] := by
    intro f hf
    obtain ⟨n, _, rfl⟩ := List.exists_of_mem_mapIdx hf
    exact ⟨_, rfl⟩
  have hsplit : publishPushes req payload compressed msgId env tm =
      (tm.getSubscribers req.topic).map (fun sub => ⟨none, sub.connId,
        .push ⟨msgId, req.topic, payload, (env.pushNowMs 0).toNat, 0, compressed⟩⟩) ++ frames := rfl
  rw [hsplit, deliveredTo_append, hsubs, List.nil_append]
  refine deliveredTo_sublist_of_length_le hlength fun f hf => ?_
  obtain ⟨n, hn⟩ := hmessages f hf
  rw [hn]
  by_cases htopic : req.topic = topic <;> simp [htopic]

/-- A list taken once at most. -/
theorem flatMap_const_sublist {β γ : Type*} {l : List β} (hl : l.length ≤ 1) (ids : List γ) :
    (l.flatMap fun _ => ids).Sublist ids := by
  rcases l with - | ⟨a, - | ⟨a', l⟩⟩
  · exact List.nil_sublist _
  · rw [List.flatMap_singleton]
  · simp at hl

theorem delivered_sublist (flag : Bool) (msgs : List StoredMessage) :
    (delivered flag msgs).Sublist msgs := by
  rw [delivered]
  split
  · exact List.Sublist.refl _
  · exact List.take_sublist 1 msgs

/-- The same frames to several receivers: the group gets them for each of its own. -/
theorem deliveredTo_flatMap (topic : TopicName) (group : String)
    (receivers : List (Option String × ConnectionId)) (frames : List OutFrame) :
    deliveredTo topic group
        (receivers.flatMap fun p => frames.map fun frame => ⟨p.1, p.2, frame⟩) =
      (receivers.filter fun p => p.1 = some group).flatMap fun _ =>
        ((frames.flatMap OutFrame.messages).filter fun msg => msg.topic = topic).map
          PushMessage.messageId := by
  induction receivers with
  | nil => rfl
  | cons p receivers ih =>
    rw [List.flatMap_cons, deliveredTo_append, ih]
    by_cases hp : p.1 = some group
    · rw [List.filter_cons_of_pos (by simpa using hp), List.flatMap_cons]
      simp [deliveredTo, List.filter_map, hp, List.flatMap_map, Function.comp_def]
    · rw [List.filter_cons_of_neg (by simpa using hp)]
      simp [deliveredTo, List.filter_map, hp, Function.comp_def]

/-- A group gets the messages that are sent for a topic once at most. -/
theorem deliveredTo_topicPushes_sublist {tm : TopicManager} (hkeyed : tm.Keyed) (flag : Bool)
    (env : HandlerEnv) {topic : TopicName} {msgs : List StoredMessage}
    (htopic : ∀ msg ∈ msgs, msg.topicName = topic) (topic' : TopicName) (group : String) :
    (deliveredTo topic' group (topicPushes flag env topic msgs tm)).Sublist
      (if topic' = topic then msgs.map StoredMessage.id else []) := by
  -- the identifiers in the frames
  have hids := congrArg (List.map fun content => content.2.1)
    (messages_topicFrames flag topic htopic topic')
  rw [List.map_map] at hids
  rw [topicPushes, deliveredTo_flatMap, List.filter_append, List.filter_map, List.filter_map]
  have hsubs : (tm.getSubscribers topic).filter ((fun p : Option String × ConnectionId =>
      p.1 = some group) ∘ fun sub => (none, sub.connId)) = [] :=
    List.filter_eq_nil_iff.mpr (by simp)
  have hmembers : (selectedMembers topic env tm).filter ((fun p : Option String × ConnectionId =>
      p.1 = some group) ∘ fun p => (some p.1, p.2)) =
        (selectedMembers topic env tm).filter fun p => p.1 = group :=
    List.filter_congr fun p _ => by simp
  rw [hsubs, hmembers, List.map_nil, List.nil_append]
  refine (flatMap_const_sublist ?_ _).trans ?_
  · rw [List.length_map]
    exact length_filter_selectedMembers_le hkeyed env topic group
  · change List.Sublist (List.map ((fun content => content.2.1) ∘ PushMessage.content) _) _
    rw [hids]
    split
    · rw [List.map_map]
      exact (delivered_sublist flag msgs).map StoredMessage.id
    · exact List.Sublist.refl _

/-- A group gets the stored messages of a topic once at most. -/
theorem deliveredTo_topicsPushes_sublist (flag : Bool) (env : HandlerEnv)
    (topicMessages : UnorderedMap TopicName (List StoredMessage))
    (htopics : ∀ topic, ∀ msg ∈ valueAt topicMessages topic [], msg.topicName = topic)
    (topic : TopicName) (group : String) {topics : List TopicName} (hnodup : topics.Nodup)
    (tm : TopicManager) (hkeyed : tm.Keyed) :
    (deliveredTo topic group (topicsPushes flag env topicMessages topics tm)).Sublist
      (if topic ∈ topics then (valueAt topicMessages topic []).map StoredMessage.id else []) := by
  induction topics generalizing tm with
  | nil => exact List.Sublist.refl _
  | cons topic' topics ih =>
    rw [List.nodup_cons] at hnodup
    have hfirst := deliveredTo_topicPushes_sublist hkeyed flag env (htopics topic') topic group
    have hselects := selects_selectTargets topic' (tm.getConsumerGroups env.groupOrder topic') tm
    have hrest := ih hnodup.2 _ (hkeyed.selects hselects)
    rw [topicsPushes, deliveredTo_append]
    rcases eq_or_ne topic topic' with rfl | hne
    · rw [if_neg hnodup.1, List.sublist_nil] at hrest
      rw [if_pos rfl] at hfirst
      rw [hrest, List.append_nil, if_pos List.mem_cons_self]
      exact hfirst
    · rw [if_neg hne, List.sublist_nil] at hfirst
      rw [hfirst, List.nil_append]
      simpa [hne] using hrest

/-! ### All steps -/

variable [TokenCount α] (lib : Libraries)

/-- The frames with the messages of a pull. -/
def pullFrames (b : Broker α) (req : PullRequest) (env : HandlerEnv) : List OutFrame :=
  let msgs := (b.store.pull req.topic (consumerOf req.subscriberId req.groupId) req.maxMessages
    env.pullNowMs env.pulledAt).2
  let pushed := msgs.map fun msg => PushMessage.ofStored msg req.topic false
  if b.batchPush && 1 < msgs.length then [.batchPush pushed] else pushed.map .push

/-- The frames that a step pushes after it stored messages. -/
def pushedFrames (b : Broker α) : BrokerOp → List TaggedSent
  | .frame connId frame env =>
    if frame.msgType = .publish then
      (b.handlePublish lib connId (lib.parsePublishRequest frame.payload) env).2.stored.flatMap
        fun r => publishPushes r.req (b.compressPayload lib r.req).1
          (b.compressPayload lib r.req).2 r.msgId env b.topicManager
    else if frame.msgType = .batchPublish then
      match lib.parseBatchPublishRequest frame.payload with
      | none => []
      | some req =>
        if b.configManager.globalConfig.batchPublishEnabled then
          let topicMessages := groupByTopic (b.storedByBatch lib connId req.messages env)
          topicsPushes b.batchPush env topicMessages (env.batchOrder.visit topicMessages)
            b.topicManager
        else []
    else []
  | _ => []

/-- The frames that answer a pull request. -/
def pulledFrames (b : Broker α) : BrokerOp → List TaggedSent
  | .frame connId frame env =>
    if frame.msgType = .pull then
      match lib.parsePullRequest frame.payload with
      | none => []
      | some req => (b.pullFrames req env).map fun pulled =>
          ⟨if req.groupId = "" then none else some req.groupId, connId, pulled⟩
    else []
  | _ => []

/-- The frames with messages that a step sends. -/
def groupFrames (b : Broker α) (op : BrokerOp) : List TaggedSent :=
  b.pushedFrames lib op ++ b.pulledFrames lib op

omit [TokenCount α] in
/-- A request that passed the checks is answered after its pushes. -/
theorem sent_storePublish (b : Broker α) (connId : ConnectionId) (req : PublishRequest)
    (env : HandlerEnv) : ∃ resp : Response, resp.Brief ∧
      (b.storePublish lib connId req env).2.sent =
      ((b.storePublish lib connId req env).2.stored.flatMap fun r =>
        publishPushes r.req (b.compressPayload lib r.req).1 (b.compressPayload lib r.req).2 r.msgId
          env b.topicManager).map TaggedSent.sent ++ [⟨connId, .response resp⟩] := by
  rw [storePublish]
  dsimp only
  split
  · exact ⟨_, by decide, rfl⟩
  · refine ⟨.ofBool true "" (b.store.publish req.topic (b.compressPayload lib req).1
      (b.requestTtlMs req) (env.expiryNowMs 0) (env.publishNowMs 0)).2.1, ?_, ?_⟩
    · exact (by decide : "".utf8ByteSize < 128)
    rw [List.flatMap_singleton]
    refine congrArg (· ++ _) ?_
    exact (map_sent_publishPushes { b with store := _ } req _ _ _ env).symm

/-- A publish request is answered after its pushes. -/
theorem sent_handlePublish (b : Broker α) (connId : ConnectionId)
    (parsed : Option PublishRequest) (env : HandlerEnv) :
    ∃ resp : Response, resp.Brief ∧ (b.handlePublish lib connId parsed env).2.sent =
      ((b.handlePublish lib connId parsed env).2.stored.flatMap fun r =>
        publishPushes r.req (b.compressPayload lib r.req).1 (b.compressPayload lib r.req).2 r.msgId
          env b.topicManager).map TaggedSent.sent ++ [⟨connId, .response resp⟩] := by
  rcases parsed with - | req
  · exact ⟨_, by decide, rfl⟩
  have houtcome := b.publishOutcome lib connId req env
  generalize b.handlePublish lib connId (some req) env = out at houtcome ⊢
  cases houtcome with
  | duplicate => exact ⟨.ofBool true "" req.sequenceId, (by decide : "".utf8ByteSize < 128), rfl⟩
  | refused hnew hcheck => exact ⟨_, brief_checkRateLimits (congrArg Prod.snd hcheck), rfl⟩
  | @admitted limiters globalLimiter =>
    exact sent_storePublish lib { b with
      publishLimiters := limiters, globalPublishLimiter := globalLimiter } connId req env

/-- A batch is answered after its pushes. -/
theorem sent_batch (b : Broker α) (connId : ConnectionId) (req : BatchPublishRequest)
    (env : HandlerEnv) :
    let topicMessages := groupByTopic (b.storedByBatch lib connId req.messages env)
    ∃ resp : Response, resp.Brief ∧ (b.handleBatchPublish lib connId (some req) env).2.sent =
      (topicsPushes b.batchPush env topicMessages (env.batchOrder.visit topicMessages)
        b.topicManager).map TaggedSent.sent ++ [⟨connId, .response resp⟩] := by
  intro topicMessages
  obtain ⟨resp, hbrief, ⟨hnone, hsent⟩ | ⟨b', htm, hflag, hsent⟩⟩ :=
    b.sent_handleBatchPublish lib connId req env
  · refine ⟨resp, hbrief, ?_⟩
    have hvisit : env.batchOrder.visit topicMessages = [] := by
      rw [List.eq_nil_iff_forall_not_mem]
      intro topic htopic
      rw [env.batchOrder.mem_visit] at htopic
      change topic ∈ groupByTopic (b.storedByBatch lib connId req.messages env) at htopic
      rw [hnone] at htopic
      exact AList.notMem_empty topic htopic
    rw [hsent, hvisit]
    rfl
  · refine ⟨resp, hbrief, ?_⟩
    rw [hsent, ← map_sent_topicsPushes, htm, hflag]

/-- A pull frame is handled as a pull request. -/
theorem step_pull (b : Broker α) (connId : ConnectionId) {frame : Frame} (env : HandlerEnv)
    (htype : frame.msgType = .pull) : (broker α lib).step b (.frame connId frame env) =
      b.handlePull connId (lib.parsePullRequest frame.payload) env := by
  have hne : ∀ msgType, msgType ≠ .pull → frame.msgType ≠ msgType := by
    rintro _ hne rfl
    exact hne htype
  simp only [broker, onFrameReceived, if_pos htype]
  rw [if_neg (hne .publish (by decide)), if_neg (hne .batchPublish (by decide)),
    if_neg (hne .subscribe (by decide)), if_neg (hne .unsubscribe (by decide))]

omit [TokenCount α] in
/-- A pull is answered after its messages. -/
theorem sent_handlePull (b : Broker α) (connId : ConnectionId) (req : PullRequest)
    (env : HandlerEnv) : ∃ resp : Response, resp.Brief ∧
      (b.handlePull connId (some req) env).2.sent =
        (b.pullFrames req env).map (Sent.mk connId) ++ [⟨connId, .response resp⟩] := by
  refine ⟨_, ?_, rfl⟩
  exact (by decide : "".utf8ByteSize < 128)

/-- All other frames are answered without messages. -/
theorem messages_sent_other (b : Broker α) (connId : ConnectionId) {frame : Frame}
    (env : HandlerEnv) (hpublish : frame.msgType ≠ .publish) (hbatch : frame.msgType ≠ .batchPublish)
    (hpull : frame.msgType ≠ .pull) :
    ∀ s ∈ ((broker α lib).step b (.frame connId frame env)).2.sent, s.frame.messages = [] := by
  have hrespond : ∀ resp, ∀ s ∈ (BrokerResult.respond connId resp).sent,
      s.frame.messages = [] := by
    intro resp s hs
    rw [List.mem_singleton.mp hs]
    rfl
  have hadmin : ∀ success errorMsg json,
      ∀ s ∈ (BrokerResult.respondAdmin connId success errorMsg json).sent,
        s.frame.messages = [] := by
    intro success errorMsg json s hs
    rw [List.mem_singleton.mp hs]
    rfl
  have houtcome := b.frameOutcome lib connId frame env
  generalize (broker α lib).step b (.frame connId frame env) = out at houtcome ⊢
  cases houtcome with
  | publish htype => exact absurd htype hpublish
  | batchPublish htype | batchDisabled htype => exact absurd htype hbatch
  | pull htype => exact absurd htype hpull
  | subscribe => cases lib.parseSubscribeRequest frame.payload <;> exact hrespond _
  | unsubscribe => cases lib.parseUnsubscribeRequest frame.payload <;> exact hrespond _
  | ack => cases lib.parseAckRequest frame.payload <;> exact hrespond _
  | ping =>
    intro s hs
    rw [List.mem_singleton.mp hs]
    rfl
  | pingIgnored => simp
  | admin =>
    rcases lib.parseAdminRequest frame.payload with - | ⟨command, topic⟩
    · exact hadmin _ _ _
    · cases command with
      | getTopicInfo | deleteTopic | cleanupTopic =>
        simp only [handleAdmin]
        split <;> exact hadmin _ _ _
      | _ => exact hadmin _ _ _
  | unknown => exact hrespond _

/-- **What a step sends**: the frames with messages, and answers without. -/
theorem sent_step (b : Broker α) (op : BrokerOp) : ∃ answers,
    ((broker α lib).step b op).2.sent = (b.groupFrames lib op).map TaggedSent.sent ++ answers ∧
      ∀ s ∈ answers, s.frame.messages = [] := by
  have hanswer : ∀ (connId : ConnectionId) (frame : OutFrame), frame.messages = [] →
      ∀ s ∈ [Sent.mk connId frame], s.frame.messages = [] := by
    intro connId frame hframe s hs
    rw [List.mem_singleton.mp hs]
    exact hframe
  cases op with
  | frame connId frame env =>
    by_cases hpublish : frame.msgType = .publish
    · have hpull : frame.msgType ≠ .pull := by rw [hpublish]; decide
      obtain ⟨resp, -, hsent⟩ :=
        b.sent_handlePublish lib connId (lib.parsePublishRequest frame.payload) env
      refine ⟨_, ?_, hanswer connId (.response resp) rfl⟩
      rw [step_publish lib b connId env hpublish, hsent, groupFrames, pushedFrames, pulledFrames,
        if_pos hpublish, if_neg hpull, List.append_nil]
    by_cases hbatch : frame.msgType = .batchPublish
    · have hpull : frame.msgType ≠ .pull := by rw [hbatch]; decide
      rw [step_batchPublish lib b connId env hbatch, groupFrames, pushedFrames, pulledFrames,
        if_neg hpublish, if_pos hbatch, if_neg hpull, List.append_nil]
      cases b.configManager.globalConfig.batchPublishEnabled with
      | false =>
        cases lib.parseBatchPublishRequest frame.payload <;>
          exact ⟨_, rfl, hanswer connId (.response _) rfl⟩
      | true =>
        rcases lib.parseBatchPublishRequest frame.payload with - | req
        · exact ⟨_, rfl, hanswer connId (.response _) rfl⟩
        · obtain ⟨resp, -, hsent⟩ := b.sent_batch lib connId req env
          exact ⟨_, hsent, hanswer connId (.response resp) rfl⟩
    by_cases hpull : frame.msgType = .pull
    · rw [step_pull lib b connId env hpull, groupFrames, pushedFrames, pulledFrames,
        if_neg hpublish, if_neg hbatch, if_pos hpull, List.nil_append]
      rcases lib.parsePullRequest frame.payload with - | req
      · exact ⟨_, rfl, hanswer connId _ rfl⟩
      · obtain ⟨resp, -, hsent⟩ := b.sent_handlePull connId req env
        refine ⟨_, ?_, hanswer connId (.response resp) rfl⟩
        rw [hsent, List.map_map]
        rfl
    · refine ⟨((broker α lib).step b (.frame connId frame env)).2.sent, ?_,
        b.messages_sent_other lib connId env hpublish hbatch hpull⟩
      simp [groupFrames, pushedFrames, pulledFrames, hpublish, hbatch, hpull]
  | _ => exact ⟨[], rfl, by simp⟩

end Broker

end ProtoMsgQueue
