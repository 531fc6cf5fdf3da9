import ProtoMsgQueue.Mq.TopicManagerCalls

/-!
# Who gets the messages of a batch

The push phase of `HandleBatchPublish`: the stored messages are grouped by topic, and for each
topic every broadcast subscriber and one member of every group gets a frame. With batch frames
that frame holds all messages of the topic. Without them it holds the first one alone, so that
both kinds of frames agree only where no topic that somebody follows has two stored messages.
-/

namespace ProtoMsgQueue

open UnorderedMap TopicManager

variable {α : Type*}

/-! ### What a connection receives -/

/-- The messages in a frame. -/
def OutFrame.messages : OutFrame → List PushMessage
  | .push msg => [msg]
  | .batchPush msgs => msgs
  | _ => []

/-- What a pushed message says: topic, identifier and payload. -/
def PushMessage.content (msg : PushMessage) : TopicName × MessageId × Payload :=
  (msg.topic, msg.messageId, msg.payload)

/-- What a stored message has to say. -/
def StoredMessage.content (msg : StoredMessage) : TopicName × MessageId × Payload :=
  (msg.topicName, msg.id, msg.payload)

/-- What a connection receives about a topic, in order. -/
def received (connId : ConnectionId) (topic : TopicName) (sent : List Sent) :
    List (TopicName × MessageId × Payload) :=
  (((sent.filter fun s => s.connId = connId).flatMap fun s => s.frame.messages).filter
    fun msg => msg.topic = topic).map PushMessage.content

theorem received_append (connId : ConnectionId) (topic : TopicName) (sent sent' : List Sent) :
    received connId topic (sent ++ sent') =
      received connId topic sent ++ received connId topic sent' := by
  simp [received]

/-- Frames to a list of connections: each connection gets all frames as often as it is listed. -/
theorem received_flatMap (connId : ConnectionId) (topic : TopicName) (conns : List ConnectionId)
    (frames : List OutFrame) :
    received connId topic (conns.flatMap fun c => frames.map (Sent.mk c)) =
      (conns.filter fun c => c = connId).flatMap fun _ =>
        ((frames.flatMap OutFrame.messages).filter fun msg => msg.topic = topic).map
          PushMessage.content := by
  induction conns with
  | nil => rfl
  | cons c conns ih =>
    rw [List.flatMap_cons, received_append, ih]
    by_cases hc : c = connId
    · rw [List.filter_cons_of_pos (by simpa using hc), List.flatMap_cons]
      simp [received, List.filter_map, hc, List.flatMap_map, Function.comp_def]
    · rw [List.filter_cons_of_neg (by simpa using hc)]
      simp [received, List.filter_map, hc, Function.comp_def]

namespace Broker

/-! ### The messages of a topic -/

/-- Grouping keeps the messages of each topic, in order. -/
theorem valueAt_groupByTopic (msgs : List StoredMessage) (topic : TopicName) :
    valueAt (groupByTopic msgs) topic [] = msgs.filter fun msg => msg.topicName = topic := by
  induction msgs using List.reverseRecOn with
  | nil => rfl
  | append_singleton msgs msg ih =>
    rw [groupByTopic, List.foldl_append, List.foldl_cons, List.foldl_nil, ← groupByTopic,
      List.filter_append]
    rcases eq_or_ne topic msg.topicName with rfl | hne
    · rw [valueAt_insert, ih]
      simp
    · rw [valueAt_insert_ne _ _ _ hne, ih]
      simp [hne.symm]

/-- The part of the messages of a topic that is sent. -/
def delivered (batchPush : Bool) (msgs : List StoredMessage) : List StoredMessage :=
  if batchPush then msgs else msgs.take 1

/-- A single message is always sent. -/
theorem delivered_of_length_le {batchPush : Bool} {msgs : List StoredMessage}
    (h : msgs.length ≤ 1) : delivered batchPush msgs = msgs := by
  rw [delivered]
  split
  · rfl
  · exact List.take_of_length_le h

/-- The frames of a topic hold the delivered messages. -/
theorem messages_topicFrames (batchPush : Bool) (topic : TopicName) {msgs : List StoredMessage}
    (htopic : ∀ msg ∈ msgs, msg.topicName = topic) (topic' : TopicName) :
    ((((topicFrames (batchPush && 1 < msgs.length) topic msgs).flatMap
      OutFrame.messages).filter fun msg => msg.topic = topic').map PushMessage.content) =
        if topic' = topic then (delivered batchPush msgs).map StoredMessage.content else [] := by
  have hmessages : (topicFrames (batchPush && 1 < msgs.length) topic msgs).flatMap
      OutFrame.messages = (delivered batchPush msgs).map fun msg => .ofStored msg topic false := by
    rw [topicFrames, delivered]
    cases batchPush with
    | false => cases msgs <;> rfl
    | true =>
      rcases msgs with - | ⟨msg, - | ⟨msg', msgs⟩⟩ <;> simp [OutFrame.messages]
  have hsub : ∀ msg ∈ delivered batchPush msgs, msg.topicName = topic := by
    intro msg hmsg
    rw [delivered] at hmsg
    split at hmsg
    · exact htopic msg hmsg
    · exact htopic msg (List.mem_of_mem_take hmsg)
  rw [hmessages]
  rcases eq_or_ne topic' topic with rfl | hne
  · rw [if_pos rfl, List.filter_eq_self.mpr (by simp [PushMessage.ofStored]), List.map_map]
    refine List.map_congr_left fun msg hmsg => ?_
    simp [PushMessage.content, PushMessage.ofStored, StoredMessage.content, hsub msg hmsg]
  · rw [if_neg hne, List.filter_eq_nil_iff.mpr (by simp [PushMessage.ofStored, hne.symm]),
      List.map_nil]

/-! ### The receivers of a topic -/

/-- Connections that stand for the broadcast subscribers of a topic and one member of each of
its groups that has members. -/
def IsReceivers (tm : TopicManager) (order : VisitOrder String ConsumerGroup) (topic : TopicName)
    (conns : List ConnectionId) : Prop :=
  ∃ chosen : List ConsumerGroupMember,
    List.Forall₂ (fun group member => member ∈ group.members)
      ((tm.getConsumerGroups order topic).filter fun group => group.members ≠ []) chosen ∧
    conns = (tm.getSubscribers topic).map SubscriberInfo.connId ++
      chosen.map ConsumerGroupMember.connId

/-- All subscriptions have a name, and are on connections a server has accepted: the identifiers
of these begin with 1. -/
def Deliverable (tm : TopicManager) : Prop :=
  ∀ topic group, ∀ sub ∈ tm.subscribersOf topic group, sub.id ≠ "" ∧ sub.connId ≠ 0

/-- Being receivers depends on the subscribers and groups of the topic. -/
theorem IsReceivers.congr {tm tm' : TopicManager} {order : VisitOrder String ConsumerGroup}
    {topic : TopicName} {conns : List ConnectionId} (h : IsReceivers tm' order topic conns)
    (hsubs : tm'.getSubscribers topic = tm.getSubscribers topic)
    (hgroups : tm'.getConsumerGroups order topic = tm.getConsumerGroups order topic) :
    IsReceivers tm order topic conns := by
  obtain ⟨chosen, hchosen, heq⟩ := h
  exact ⟨chosen, hgroups ▸ hchosen, hsubs ▸ heq⟩

/-- There are no receivers iff nobody follows the topic. -/
theorem IsReceivers.eq_nil_iff {tm : TopicManager} {order : VisitOrder String ConsumerGroup}
    {topic : TopicName} {conns : List ConnectionId} (h : IsReceivers tm order topic conns) :
    conns = [] ↔ tm.getSubscribers topic = [] ∧
      ∀ group ∈ tm.getConsumerGroups order topic, group.members = [] := by
  obtain ⟨chosen, hchosen, rfl⟩ := h
  rw [List.append_eq_nil_iff, List.map_eq_nil_iff, List.map_eq_nil_iff]
  refine and_congr_right fun _ => ?_
  have hlength := hchosen.length_eq
  rw [← List.length_eq_zero_iff, ← hlength, List.length_eq_zero_iff, List.filter_eq_nil_iff]
  simp

/-- The member that is selected is one of the group. -/
theorem exists_mem_of_selectNextMember {tm : TopicManager} {topic : TopicName}
    {group : ConsumerGroup} (hgroup : tm.subscribersOf topic (some group.groupId) =
      group.members.map ConsumerGroupMember.toInfo) (hne : group.members ≠ []) :
    ∃ member ∈ group.members,
      (tm.selectNextMember topic group.groupId).2 = member.subscriberId := by
  rw [subscribersOf_some] at hgroup
  rcases hlookup : (tm.groupsOf topic).lookup group.groupId with - | current
  · rw [hlookup] at hgroup
    exact absurd (List.map_eq_nil_iff.mp hgroup.symm) hne
  rw [hlookup] at hgroup
  have hmembers : current.members = group.members :=
    ConsumerGroupMember.toInfo_injective.list_map hgroup
  rcases hgroups : tm.consumerGroups.lookup topic with - | groups
  · rw [groupsOf, valueAt, hgroups] at hlookup
    cases hlookup
  rw [groupsOf, valueAt, hgroups, Option.getD_some] at hlookup
  have hidx : current.roundRobinIndex % current.members.length < current.members.length :=
    Nat.mod_lt _ (List.length_pos_of_ne_nil (hmembers ▸ hne))
  refine ⟨current.members[current.roundRobinIndex % current.members.length], ?_, ?_⟩
  · rw [← hmembers]
    exact List.getElem_mem hidx
  simp only [selectNextMember, hgroups, hlookup, List.getElem?_eq_getElem hidx]

/-- The connection of a member that is selected is that of a member with the name. -/
theorem exists_mem_of_memberConnId {members : List ConsumerGroupMember}
    {member : ConsumerGroupMember} (hmem : member ∈ members) :
    ∃ member' ∈ members, memberConnId members member.subscriberId = member'.connId := by
  rw [memberConnId]
  rcases hfind : members.find? fun m => m.subscriberId = member.subscriberId with - | member'
  · rw [List.find?_eq_none] at hfind
    exact absurd (decide_eq_true rfl) (hfind member hmem)
  · exact ⟨member', List.mem_of_find?_eq_some hfind, by rw [hfind]⟩

/-- **Selection.** One member of each group that has members gets the message. -/
theorem forall₂_selectTargets (topic : TopicName) (groups : List ConsumerGroup)
    (tm : TopicManager) (hdeliverable : Deliverable tm)
    (hgroups : ∀ group ∈ groups, tm.subscribersOf topic (some group.groupId) =
      group.members.map ConsumerGroupMember.toInfo) :
    ∃ chosen : List ConsumerGroupMember,
      List.Forall₂ (fun group member => member ∈ group.members)
        (groups.filter fun group => group.members ≠ []) chosen ∧
      (selectTargets topic groups tm).2 = chosen.map ConsumerGroupMember.connId := by
  induction groups generalizing tm with
  | nil => exact ⟨[], .nil, rfl⟩
  | cons group groups ih =>
    rw [selectTargets]
    have hrest := fun g hg => hgroups g (List.mem_cons_of_mem group hg)
    by_cases hne : group.members = []
    · rw [if_pos hne, List.filter_cons_of_neg (by simpa using hne)]
      exact ih tm hdeliverable hrest
    rw [if_neg hne, List.filter_cons_of_pos (by simpa using hne)]
    have hsame := subscribersOf_selectNextMember tm topic group.groupId
    obtain ⟨chosen, hchosen, htargets⟩ := ih (tm.selectNextMember topic group.groupId).1
      (fun t g sub hsub => hdeliverable t g sub (hsame t g ▸ hsub))
      (fun g hg => (hsame topic (some g.groupId)).trans (hrest g hg))
    have hgroup := hgroups group List.mem_cons_self
    obtain ⟨member, hmember, hselected⟩ := exists_mem_of_selectNextMember hgroup hne
    obtain ⟨member', hmember', hconn⟩ := exists_mem_of_memberConnId hmember
    have hof : ∀ m ∈ group.members, m.subscriberId ≠ "" ∧ m.connId ≠ 0 := by
      intro m hm
      refine hdeliverable topic (some group.groupId) m.toInfo ?_
      rw [hgroup]
      exact List.mem_map_of_mem hm
    refine ⟨member' :: chosen, .cons hmember' hchosen, ?_⟩
    dsimp only
    rw [hselected, hconn, if_neg (by simp [(hof member hmember).1, (hof member' hmember').2]),
      htargets, List.map_cons]

/-- The members selected for a topic and its broadcast subscribers are receivers. -/
theorem isReceivers_selectTargets {tm : TopicManager} (hkeyed : tm.Keyed)
    (hdeliverable : Deliverable tm) (order : VisitOrder String ConsumerGroup) (topic : TopicName) :
    IsReceivers tm order topic ((tm.getSubscribers topic).map SubscriberInfo.connId ++
      (selectTargets topic (tm.getConsumerGroups order topic) tm).2) := by
  have hmembers : ∀ group ∈ tm.getConsumerGroups order topic,
      tm.subscribersOf topic (some group.groupId) =
        group.members.map ConsumerGroupMember.toInfo := by
    intro group hgroup
    rw [subscribersOf_some, (hkeyed.mem_getConsumerGroups order).mp hgroup, Option.map_some,
      Option.getD_some]
  obtain ⟨chosen, hchosen, htargets⟩ :=
    forall₂_selectTargets topic (tm.getConsumerGroups order topic) tm hdeliverable hmembers
  exact ⟨chosen, hchosen, by rw [htargets]⟩

/-- Selecting members of the groups of one topic changes no other topic. -/
theorem getConsumerGroups_selectTargets {topic topic' : TopicName} (hne : topic' ≠ topic)
    (order : VisitOrder String ConsumerGroup) (groups : List ConsumerGroup) (tm : TopicManager) :
    (selectTargets topic groups tm).1.getConsumerGroups order topic' =
      tm.getConsumerGroups order topic' := by
  have hselect : ∀ (tm : TopicManager) groupId,
      (tm.selectNextMember topic groupId).1.getConsumerGroups order topic' =
        tm.getConsumerGroups order topic' := by
    intro tm groupId
    unfold selectNextMember
    split
    · rfl
    split
    · rfl
    dsimp only
    split
    · rfl
    · rw [getConsumerGroups, getConsumerGroups, AList.lookup_insert_ne hne]
  induction groups generalizing tm with
  | nil => rfl
  | cons group groups ih =>
    rw [selectTargets]
    split
    · exact ih tm
    · dsimp only
      split <;> exact (ih _).trans (hselect tm group.groupId)

/-! ### The push phase -/

/-- The copies of the delivered messages of a topic that a connection gets, one for each
receiver it stands for. -/
def copies (connId : ConnectionId) (conns : List ConnectionId) (msgs : List StoredMessage) :
    List (TopicName × MessageId × Payload) :=
  (conns.filter fun c => c = connId).flatMap fun _ => msgs.map StoredMessage.content

theorem copies_nil (connId : ConnectionId) (conns : List ConnectionId) :
    copies connId conns [] = [] :=
  List.flatMap_eq_nil_iff.mpr fun _ _ => rfl

theorem length_copies (connId : ConnectionId) (conns : List ConnectionId)
    (msgs : List StoredMessage) : (copies connId conns msgs).length =
      (conns.filter fun c => c = connId).length * msgs.length := by
  simp [copies, List.length_flatMap]

/-- The broker sends all messages of a topic in one frame. -/
def batchPush (b : Broker α) : Bool := b.configManager.globalConfig.batchPushEnabled

/-- The pushes of one topic reach its receivers, the same whether or not the messages are sent
in one frame. -/
theorem exists_receivers_pushTopic {tm : TopicManager} (hkeyed : tm.Keyed)
    (hdeliverable : Deliverable tm) (env : HandlerEnv) (topic : TopicName)
    {msgs : List StoredMessage} (htopic : ∀ msg ∈ msgs, msg.topicName = topic) :
    ∃ conns, IsReceivers tm env.groupOrder topic conns ∧
      ∀ (b : Broker α) connId topic', b.topicManager = tm →
        received connId topic' (b.pushTopic env topic msgs).2 =
          if topic' = topic then copies connId conns (delivered b.batchPush msgs) else [] := by
  refine ⟨_, isReceivers_selectTargets hkeyed hdeliverable env.groupOrder topic, ?_⟩
  rintro b connId topic' rfl
  refine (received_flatMap connId topic' _ _).trans ?_
  refine (congrArg (fun content => List.flatMap (fun _ => content) _)
    (messages_topicFrames b.batchPush topic htopic topic')).trans ?_
  split
  · rfl
  · exact List.flatMap_eq_nil_iff.mpr fun _ _ => rfl

/-- **Push phase.** The pushes of a batch reach the receivers of every topic. -/
theorem exists_receivers_pushTopics (env : HandlerEnv)
    (topicMessages : UnorderedMap TopicName (List StoredMessage))
    (htopics : ∀ topic, ∀ msg ∈ valueAt topicMessages topic [], msg.topicName = topic)
    {topics : List TopicName} (hnodup : topics.Nodup) (tm : TopicManager)
    (hkeyed : tm.Keyed) (hdeliverable : Deliverable tm) :
    ∃ conns : TopicName → List ConnectionId,
      (∀ topic, IsReceivers tm env.groupOrder topic (conns topic)) ∧
      ∀ (b : Broker α) connId topic, b.topicManager = tm →
        received connId topic (pushTopics env topicMessages topics b).2 =
          if topic ∈ topics then
            copies connId (conns topic) (delivered b.batchPush (valueAt topicMessages topic []))
          else [] := by
  induction topics generalizing tm with
  | nil => exact ⟨_, isReceivers_selectTargets hkeyed hdeliverable env.groupOrder, fun _ _ _ _ => rfl⟩
  | cons topic topics ih =>
    rw [List.nodup_cons] at hnodup
    obtain ⟨conns, hconns, hreceived⟩ := exists_receivers_pushTopic (α := α) hkeyed hdeliverable env
      topic (htopics topic)
    -- The rest is pushed after the members of the groups of this topic were selected.
    have hselects := selects_selectTargets topic (tm.getConsumerGroups env.groupOrder topic) tm
    obtain ⟨rest, hrest, hreceived'⟩ := ih hnodup.2 _ (hkeyed.selects hselects)
      (fun t g sub hsub => hdeliverable t g sub (hselects.subscribersOf_eq t g ▸ hsub))
    refine ⟨Function.update rest topic conns, fun topic' => ?_, ?_⟩
    · rcases eq_or_ne topic' topic with rfl | hne
      · rw [Function.update_self]
        exact hconns
      · rw [Function.update_of_ne hne]
        exact (hrest topic').congr (hselects.subscribersOf_eq topic' none)
          (getConsumerGroups_selectTargets hne env.groupOrder _ tm)
    · rintro b connId topic' rfl
      have hsplit : (pushTopics env topicMessages (topic :: topics) b).2 =
          (b.pushTopic env topic (valueAt topicMessages topic [])).2 ++
          (pushTopics env topicMessages topics
            (b.pushTopic env topic (valueAt topicMessages topic [])).1).2 := rfl
      rw [hsplit, received_append, hreceived b connId topic' rfl, hreceived' _ connId topic' rfl]
      rcases eq_or_ne topic' topic with rfl | hne
      · rw [if_pos rfl, if_neg hnodup.1, if_pos List.mem_cons_self, Function.update_self,
          List.append_nil]
      · rw [if_neg hne, List.nil_append, Function.update_of_ne hne]
        exact if_congr (by simp [hne]) rfl rfl

/-! ### The handler -/

variable [TokenCount α] (lib : Libraries)

/-- What `handleBatchPublish` stores before it pushes anything. -/
def storedByBatch (b : Broker α) (connId : ConnectionId) (msgs : List PublishRequest)
    (env : HandlerEnv) : List StoredMessage :=
  if msgs = [] then []
  else
    match b.checkRateLimits connId (UInt32.ofNat msgs.length) env with
    | (_, some _) => []
    | (b, none) =>
      if b.configManager.globalConfig.maxBatchSize < UInt32.ofNat msgs.length then []
      else (b.storeBatch lib env 0 msgs { store := b.store }).storedMessages

/-- A batch that passes the checks stores what the loop over its messages stores. -/
theorem storedByBatch_admitted {b b' : Broker α} {connId : ConnectionId}
    {msgs : List PublishRequest} {env : HandlerEnv} (hne : msgs ≠ [])
    (hcheck : b.checkRateLimits connId (UInt32.ofNat msgs.length) env = (b', none))
    (hsize : UInt32.ofNat msgs.length ≤ b'.configManager.globalConfig.maxBatchSize) :
    b.storedByBatch lib connId msgs env =
      (b'.storeBatch lib env 0 msgs { store := b'.store }).storedMessages := by
  rw [storedByBatch, if_neg hne, hcheck]
  exact if_neg (UInt32.not_lt.mpr hsize)

omit [TokenCount α] in
/-- The stored messages are those of the stored requests. -/
theorem map_stored_storeBatch (b : Broker α) (env : HandlerEnv) (n : ℕ)
    (msgs : List PublishRequest) (st : BatchState)
    (hst : st.stored.map (fun r => (r.req.topic, r.msgId, (b.compressPayload lib r.req).1)) =
      st.storedMessages.map StoredMessage.content) :
    (b.storeBatch lib env n msgs st).stored.map
        (fun r => (r.req.topic, r.msgId, (b.compressPayload lib r.req).1)) =
      (b.storeBatch lib env n msgs st).storedMessages.map StoredMessage.content := by
  induction msgs generalizing n st with
  | nil => exact hst
  | cons msg msgs ih =>
    rw [storeBatch]
    dsimp only
    split
    · refine ih (n + 1) _ ?_
      rw [List.map_append, List.map_append, hst]
      rfl
    · exact ih (n + 1) _ hst

/-- A response is no message. -/
theorem received_response (c connId : ConnectionId) (topic : TopicName) (resp : Response) :
    received c topic [⟨connId, .response resp⟩] = [] := by
  by_cases h : connId = c <;> simp [received, h, OutFrame.messages]

/-- A batch is answered, after the pushes of what it stored. -/
theorem sent_handleBatchPublish (b : Broker α) (connId : ConnectionId) (req : BatchPublishRequest)
    (env : HandlerEnv) :
    ∃ resp : Response, resp.Brief ∧
      ((b.storedByBatch lib connId req.messages env = [] ∧
        (b.handleBatchPublish lib connId (some req) env).2.sent = [⟨connId, .response resp⟩]) ∨
      ∃ b' : Broker α, b'.topicManager = b.topicManager ∧ b'.batchPush = b.batchPush ∧
        (b.handleBatchPublish lib connId (some req) env).2.sent =
          (pushTopics env (groupByTopic (b.storedByBatch lib connId req.messages env))
            (env.batchOrder.visit (groupByTopic (b.storedByBatch lib connId req.messages env)))
            b').2 ++ [⟨connId, .response resp⟩]) := by
  have houtcome := b.batchOutcome lib connId req env
  generalize b.handleBatchPublish lib connId (some req) env = out at houtcome ⊢
  cases houtcome with
  | empty hempty =>
    rw [storedByBatch, if_pos hempty]
    exact ⟨_, by decide, Or.inl ⟨rfl, rfl⟩⟩
  | refused hne hcheck =>
    rw [storedByBatch, if_neg hne, hcheck]
    exact ⟨_, brief_checkRateLimits (congrArg Prod.snd hcheck), Or.inl ⟨rfl, rfl⟩⟩
  | tooLarge hne hcheck hlarge =>
    rw [storedByBatch, if_neg hne, hcheck]
    exact ⟨_, by decide, Or.inl ⟨if_pos hlarge, rfl⟩⟩
  | @admitted limiters globalLimiter hne hcheck hsize =>
    rw [storedByBatch_admitted lib hne hcheck hsize]
    rcases storeBatchPublish_cases lib _ connId req.messages env with
      ⟨-, hnone, hout⟩ | ⟨-, hout⟩
    · rw [hout]
      exact ⟨_, by decide, Or.inl ⟨hnone, rfl⟩⟩
    · rw [hout]
      refine ⟨_, ?_, Or.inr ⟨{ b with
        store := _, publishLimiters := limiters, globalPublishLimiter := globalLimiter },
        rfl, rfl, rfl⟩⟩
      exact (by decide : "".utf8ByteSize < 128)

/-- The messages of `storedByBatch` are those of the requests the handler says it has stored. -/
theorem map_stored_handleBatchPublish (b : Broker α) (connId : ConnectionId)
    (req : BatchPublishRequest) (env : HandlerEnv) :
    (b.handleBatchPublish lib connId (some req) env).2.stored.map
        (fun r => (r.req.topic, r.msgId, (b.compressPayload lib r.req).1)) =
      (b.storedByBatch lib connId req.messages env).map StoredMessage.content := by
  have houtcome := b.batchOutcome lib connId req env
  generalize b.handleBatchPublish lib connId (some req) env = out at houtcome ⊢
  cases houtcome with
  | empty hempty =>
    rw [storedByBatch, if_pos hempty]
    rfl
  | refused hne hcheck =>
    rw [storedByBatch, if_neg hne, hcheck]
    rfl
  | tooLarge hne hcheck hlarge =>
    rw [storedByBatch, if_neg hne, hcheck]
    dsimp only
    rw [if_pos hlarge]
    rfl
  | @admitted limiters globalLimiter hne hcheck hsize =>
    rw [storedByBatch_admitted lib hne hcheck hsize]
    rcases storeBatchPublish_cases lib _ connId req.messages env with
      ⟨-, hnone, hout⟩ | ⟨-, hout⟩
    · rw [hout, hnone]
      rfl
    · rw [hout]
      exact map_stored_storeBatch lib { b with
        publishLimiters := limiters, globalPublishLimiter := globalLimiter } env 0 req.messages _
        rfl

/-- **The batch handler.** Some receivers of every topic get the delivered messages, the same
receivers for all brokers with these subscriptions and stored messages. -/
theorem exists_receivers_handleBatchPublish {tm : TopicManager} (hkeyed : tm.Keyed)
    (hdeliverable : Deliverable tm) (connId : ConnectionId) (req : BatchPublishRequest)
    (env : HandlerEnv) (stored : List StoredMessage) :
    ∃ conns : TopicName → List ConnectionId,
      (∀ topic, IsReceivers tm env.groupOrder topic (conns topic)) ∧
      ∀ (b : Broker α) c topic, b.topicManager = tm →
        b.storedByBatch lib connId req.messages env = stored →
        received c topic (b.handleBatchPublish lib connId (some req) env).2.sent =
          copies c (conns topic)
            (delivered b.batchPush (stored.filter fun msg => msg.topicName = topic)) := by
  have htopics : ∀ topic, ∀ msg ∈ valueAt (groupByTopic stored) topic [], msg.topicName = topic := by
    intro topic msg hmsg
    rw [valueAt_groupByTopic] at hmsg
    exact of_decide_eq_true (List.mem_filter.mp hmsg).2
  obtain ⟨conns, hconns, hreceived⟩ := exists_receivers_pushTopics (α := α) env
    (groupByTopic stored) htopics
    (env.batchOrder.nodup_visit (groupByTopic stored)) tm hkeyed hdeliverable
  refine ⟨conns, hconns, ?_⟩
  rintro b c topic htm rfl
  obtain ⟨resp, -, ⟨hnone, hsent⟩ | ⟨b', htm', hflag, hsent⟩⟩ :=
    b.sent_handleBatchPublish lib connId req env
  · rw [hsent, received_response, hnone]
    cases h : b.batchPush <;> exact (copies_nil c (conns topic)).symm
  · rw [hsent, received_append, received_response, List.append_nil,
      hreceived b' c topic (htm'.trans htm), hflag, valueAt_groupByTopic]
    split
    · rfl
    · rename_i hnot
      rw [env.batchOrder.mem_visit] at hnot
      have hempty : valueAt (groupByTopic (b.storedByBatch lib connId req.messages env)) topic [] =
          [] := by
        rw [valueAt, AList.lookup_eq_none.mpr hnot, Option.getD_none]
      rw [valueAt_groupByTopic] at hempty
      rw [hempty]
      cases h : b.batchPush <;> exact (copies_nil c (conns topic)).symm

/-! ### Both kinds of frames -/

/-- The broker with batch frames switched on or off. -/
def withBatchPush (b : Broker α) (flag : Bool) : Broker α :=
  { b with
    configManager := { b.configManager with
      globalConfig := { b.configManager.globalConfig with batchPushEnabled := flag } } }

theorem acquirePublishPermit_withBatchPush (b : Broker α) (flag : Bool) (connId : ConnectionId)
    (tokens : UInt32) (env : HandlerEnv) :
    (b.withBatchPush flag).acquirePublishPermit connId tokens env =
      ((b.acquirePublishPermit connId tokens env).1.withBatchPush flag,
        (b.acquirePublishPermit connId tokens env).2) := by
  have hserver : (b.withBatchPush flag).serverConfig = b.serverConfig := rfl
  unfold acquirePublishPermit
  rw [hserver]
  by_cases henabled : b.serverConfig.rateLimitEnabled = true
  · rw [if_pos henabled, if_pos henabled]
    rfl
  · rw [if_neg henabled, if_neg henabled]

theorem acquireGlobalPermit_withBatchPush (b : Broker α) (flag : Bool) (tokens : UInt32)
    (env : HandlerEnv) : (b.withBatchPush flag).acquireGlobalPermit tokens env =
      ((b.acquireGlobalPermit tokens env).1.withBatchPush flag,
        (b.acquireGlobalPermit tokens env).2) := by
  have hlimiter : (b.withBatchPush flag).globalPublishLimiter = b.globalPublishLimiter := rfl
  unfold acquireGlobalPermit
  rw [hlimiter]
  cases b.globalPublishLimiter <;> rfl

/-- Batch frames do not matter to the rate limits. -/
theorem checkRateLimits_withBatchPush (b : Broker α) (flag : Bool) (connId : ConnectionId)
    (tokens : UInt32) (env : HandlerEnv) :
    (b.withBatchPush flag).checkRateLimits connId tokens env =
      ((b.checkRateLimits connId tokens env).1.withBatchPush flag,
        (b.checkRateLimits connId tokens env).2) := by
  have henabled : (b.withBatchPush flag).configManager.globalConfig.rateLimitEnabled =
      b.configManager.globalConfig.rateLimitEnabled := rfl
  rw [checkRateLimits, checkRateLimits, acquirePublishPermit_withBatchPush, henabled]
  split
  · rcases b.acquirePublishPermit connId tokens env with ⟨b', - | -⟩
    · rfl
    · dsimp only
      rw [acquireGlobalPermit_withBatchPush]
      rcases b'.acquireGlobalPermit tokens env with ⟨b'', - | -⟩ <;> rfl
  · rfl

omit [TokenCount α] in
/-- Batch frames do not matter to what is stored. -/
theorem storeBatch_withBatchPush (b : Broker α) (flag : Bool) (env : HandlerEnv) (n : ℕ)
    (msgs : List PublishRequest) (st : BatchState) :
    (b.withBatchPush flag).storeBatch lib env n msgs st = b.storeBatch lib env n msgs st := by
  induction msgs generalizing n st with
  | nil => rfl
  | cons msg msgs ih =>
    have hpayload : (b.withBatchPush flag).compressPayload lib msg = b.compressPayload lib msg := rfl
    have httl : (b.withBatchPush flag).requestTtlMs msg = b.requestTtlMs msg := rfl
    rw [storeBatch, storeBatch, hpayload, httl]
    dsimp only
    rw [ih, ih]

theorem storedByBatch_withBatchPush (b : Broker α) (flag : Bool) (connId : ConnectionId)
    (msgs : List PublishRequest) (env : HandlerEnv) :
    (b.withBatchPush flag).storedByBatch lib connId msgs env =
      b.storedByBatch lib connId msgs env := by
  rw [storedByBatch, storedByBatch, checkRateLimits_withBatchPush]
  rcases b.checkRateLimits connId (UInt32.ofNat msgs.length) env with ⟨b', - | -⟩
  · have hmax : (b'.withBatchPush flag).configManager.globalConfig.maxBatchSize =
        b'.configManager.globalConfig.maxBatchSize := rfl
    dsimp only
    rw [hmax, storeBatch_withBatchPush]
    rfl
  · rfl

/-- Every message of the batch that was stored is sent, in order within its topic, once to
every broadcast subscription and once to one member of every group with members. -/
def FansOut (b : Broker α) (env : HandlerEnv) (stored : List StoredMessage) (sent : List Sent) :
    Prop :=
  ∀ topic, ∃ conns, IsReceivers b.topicManager env.groupOrder topic conns ∧
    ∀ c, received c topic sent =
      copies c conns (stored.filter fun msg => msg.topicName = topic)

/-- **Complete, whatever the frames,** exactly if no topic with two stored messages has a
subscription. In every reachable state whose subscriptions have names and connections, a batch
reaches every broadcast subscription and one member of every group in full, with and without
batch frames, and every connection receives the same with and without them, iff each topic for
which the batch stored more than one message has neither a broadcast subscription nor a group
with members. -/
theorem fansOut_iff (config : BrokerConfig) (store : StoreConfig) (steadyNow : ℤ)
    (ops : List BrokerOp) {b : Broker α}
    (hb : b = (broker α lib).run (ofConfig config store steadyNow) ops)
    (hdeliverable : Deliverable b.topicManager) (connId : ConnectionId) (req : BatchPublishRequest)
    (env : HandlerEnv) :
    ((∀ flag, FansOut b env (b.storedByBatch lib connId req.messages env)
        ((b.withBatchPush flag).handleBatchPublish lib connId (some req) env).2.sent) ∧
      ∀ c topic,
        received c topic
            ((b.withBatchPush true).handleBatchPublish lib connId (some req) env).2.sent =
          received c topic
            ((b.withBatchPush false).handleBatchPublish lib connId (some req) env).2.sent) ↔
      ∀ topic,
        1 < ((b.storedByBatch lib connId req.messages env).filter
          fun msg => msg.topicName = topic).length →
        b.topicManager.getSubscribers topic = [] ∧
          ∀ group ∈ b.topicManager.getConsumerGroups env.groupOrder topic, group.members = [] := by
  have hkeyed : b.topicManager.Keyed := hb ▸ keyed_run lib config store steadyNow ops
  obtain ⟨conns, hconns, hreceived⟩ := exists_receivers_handleBatchPublish (α := α) lib hkeyed
    hdeliverable connId req env (b.storedByBatch lib connId req.messages env)
  have hboth : ∀ flag c topic, received c topic
      ((b.withBatchPush flag).handleBatchPublish lib connId (some req) env).2.sent =
        copies c (conns topic) (delivered flag
          ((b.storedByBatch lib connId req.messages env).filter fun msg => msg.topicName = topic)) :=
    fun flag c topic => hreceived _ c topic rfl (b.storedByBatch_withBatchPush lib flag connId _ env)
  constructor
  · rintro ⟨-, hframes⟩ topic htwo
    -- A receiver would get more messages with batch frames than without.
    have hnone : conns topic = [] := by
      by_contra hne
      obtain ⟨c, hc⟩ := List.exists_mem_of_ne_nil _ hne
      have hlength := congrArg List.length (hframes c topic)
      rw [hboth, hboth, length_copies, length_copies] at hlength
      have hpos : 0 < ((conns topic).filter fun c' => c' = c).length :=
        List.length_pos_of_mem (List.mem_filter.mpr ⟨hc, decide_eq_true rfl⟩)
      have hone := Nat.eq_of_mul_eq_mul_left hpos hlength
      rw [delivered, delivered, if_pos rfl, if_neg Bool.false_ne_true, List.length_take] at hone
      omega
    exact (hconns topic).eq_nil_iff.mp hnone
  · intro hquiet
    have hfull : ∀ flag c topic, received c topic
        ((b.withBatchPush flag).handleBatchPublish lib connId (some req) env).2.sent =
          copies c (conns topic) ((b.storedByBatch lib connId req.messages env).filter
            fun msg => msg.topicName = topic) := by
      intro flag c topic
      rw [hboth]
      by_cases htwo : 1 < ((b.storedByBatch lib connId req.messages env).filter
        fun msg => msg.topicName = topic).length
      · rw [(hconns topic).eq_nil_iff.mpr (hquiet topic htwo), copies, copies,
          List.filter_nil, List.flatMap_nil, List.flatMap_nil]
      · rw [delivered_of_length_le (Nat.le_of_not_lt htwo)]
    exact ⟨fun flag topic => ⟨conns topic, hconns topic, fun c => hfull flag c topic⟩,
      fun c topic => (hfull true c topic).trans (hfull false c topic).symm⟩

/-- A broker with one broadcast subscription to topic `t`, on connection 1. -/
def followedBroker : Broker ℚ :=
  (broker ℚ subscribeLibraries).run (ofConfig {} { defaultBufferSize := 128 } 0)
    [.frame 1 subscribeFrame (.ofClocks 0 0)]

theorem deliverable_followedBroker : Deliverable followedBroker.topicManager := by
  intro topic group sub hsub
  have htm : followedBroker.topicManager =
      ((ofConfig {} { defaultBufferSize := 128 } 0 : Broker ℚ).topicManager.subscribe "t"
        ⟨"c", 1⟩ "").1 := rfl
  rw [htm, subscribersOf_subscribe] at hsub
  have hempty : (ofConfig {} { defaultBufferSize := 128 } 0 : Broker ℚ).topicManager.subscribersOf
      topic group = [] := by
    cases group <;> rfl
  rw [hempty] at hsub
  split at hsub
  · rw [List.mem_singleton.mp hsub]
    decide
  · cases hsub

/-- A batch of one message reaches the subscription with both kinds of frames. -/
theorem fansOut_singleMessage :
    (∀ flag, FansOut followedBroker (.ofClocks 1000000 1)
        (followedBroker.storedByBatch subscribeLibraries 2 [{ topic := "t", payload := [97] }]
          (.ofClocks 1000000 1))
        ((followedBroker.withBatchPush flag).handleBatchPublish subscribeLibraries 2
          (some ⟨[{ topic := "t", payload := [97] }]⟩) (.ofClocks 1000000 1)).2.sent) ∧
      ∀ c topic,
        received c topic ((followedBroker.withBatchPush true).handleBatchPublish subscribeLibraries
          2 (some ⟨[{ topic := "t", payload := [97] }]⟩) (.ofClocks 1000000 1)).2.sent =
        received c topic ((followedBroker.withBatchPush false).handleBatchPublish
          subscribeLibraries 2 (some ⟨[{ topic := "t", payload := [97] }]⟩)
          (.ofClocks 1000000 1)).2.sent := by
  refine (fansOut_iff subscribeLibraries {} { defaultBufferSize := 128 } 0
    [.frame 1 subscribeFrame (.ofClocks 0 0)] rfl deliverable_followedBroker 2
    ⟨[{ topic := "t", payload := [97] }]⟩ (.ofClocks 1000000 1)).mpr ?_
  intro topic htwo
  have hle := (List.filter_sublist.length_le).trans_lt' htwo
  exact absurd hle (by decide +kernel)

/-- Of a batch of two messages the subscription gets one if there are no batch frames. -/
theorem not_fansOut_twoMessages :
    ¬((∀ flag, FansOut followedBroker (.ofClocks 1000000 1)
        (followedBroker.storedByBatch subscribeLibraries 2
          [{ topic := "t", payload := [97] }, { topic := "t", payload := [98] }]
          (.ofClocks 1000000 1))
        ((followedBroker.withBatchPush flag).handleBatchPublish subscribeLibraries 2
          (some ⟨[{ topic := "t", payload := [97] }, { topic := "t", payload := [98] }]⟩)
          (.ofClocks 1000000 1)).2.sent) ∧
      ∀ c topic,
        received c topic ((followedBroker.withBatchPush true).handleBatchPublish subscribeLibraries
          2 (some ⟨[{ topic := "t", payload := [97] }, { topic := "t", payload := [98] }]⟩)
          (.ofClocks 1000000 1)).2.sent =
        received c topic ((followedBroker.withBatchPush false).handleBatchPublish
          subscribeLibraries 2
          (some ⟨[{ topic := "t", payload := [97] }, { topic := "t", payload := [98] }]⟩)
          (.ofClocks 1000000 1)).2.sent) := by
  intro h
  exact absurd (h.2 1 "t") (by decide +kernel)

end Broker

end ProtoMsgQueue
