import ProtoMsgQueue.Common.Config

/-!
# The topic manager

`TopicManager` of `mq/topic_manager.cpp`: which topics are known, who is subscribed to them
by broadcast, and the consumer groups with their members and round-robin positions.
-/

namespace ProtoMsgQueue

open UnorderedMap

/-- A broadcast subscription. -/
structure SubscriberInfo where
  id : SubscriberId
  connId : ConnectionId
deriving DecidableEq, Repr

/-- A known topic. -/
structure TopicInfo where
  name : TopicName
deriving DecidableEq, Repr

/-- A member of a consumer group. -/
structure ConsumerGroupMember where
  subscriberId : SubscriberId
  connId : ConnectionId
deriving DecidableEq, Repr

/-- A consumer group. -/
structure ConsumerGroup where
  groupId : String
  topicName : TopicName
  members : List ConsumerGroupMember
  /-- The position of the next member to select. -/
  roundRobinIndex : ℕ := 0
deriving DecidableEq, Repr

/-- The manager. -/
structure TopicManager where
  topics : UnorderedMap TopicName TopicInfo := ∅
  /-- Broadcast subscribers of each topic. -/
  subscribers : UnorderedMap TopicName (List SubscriberInfo) := ∅
  /-- Consumer groups of each topic, by name. -/
  consumerGroups : UnorderedMap TopicName (UnorderedMap String ConsumerGroup) := ∅
  topicConfigs : UnorderedMap TopicName TopicConfig := ∅

namespace TopicManager

variable (tm : TopicManager)

/-! ### Topics -/

/-- Make a topic known; false if it is known already. -/
def registerTopic (topic : TopicInfo) : TopicManager × Bool :=
  if topic.name ∈ tm.topics then (tm, false)
  else ({ tm with topics := tm.topics.insert topic.name topic }, true)

/-- Forget a topic and its subscriptions. -/
def unregisterTopic (topicName : TopicName) : TopicManager × Bool :=
  ({ tm with
      topics := tm.topics.erase topicName
      subscribers := tm.subscribers.erase topicName
      consumerGroups := tm.consumerGroups.erase topicName }, true)

/-- All known topics, in the order of a loop over the map. -/
def getAllTopics (order : VisitOrder TopicName TopicInfo) : List TopicInfo :=
  (order.visit tm.topics).filterMap tm.topics.lookup

/-- Is the topic known? -/
def hasTopic (topicName : TopicName) : Bool := topicName ∈ tm.topics

/-- The configuration of a topic, the default one if none was set. -/
def getTopicConfig (topicName : TopicName) : TopicConfig := valueAt tm.topicConfigs topicName {}

/-! ### Subscriptions -/

/-- A group with one more member; none if the member is in it already. -/
def joinGroup (topicName : TopicName) (groupId : String) (subscriber : SubscriberInfo)
    (group : Option ConsumerGroup) : Option ConsumerGroup :=
  let member : ConsumerGroupMember := ⟨subscriber.id, subscriber.connId⟩
  match group with
  | none => some { groupId := groupId, topicName := topicName, members := [member] }
  | some group =>
    if group.members.any fun m => m.subscriberId = subscriber.id then none
    else some { group with members := group.members ++ [member] }

/-- Subscribe, to a group unless its name is empty; false if the subscription exists. The
topic becomes known either way. -/
def subscribe (topicName : TopicName) (subscriber : SubscriberInfo) (groupId : String := "") :
    TopicManager × Bool :=
  let tm := { tm with topics := touch tm.topics topicName { name := topicName } }
  if groupId = "" then
    let subs := valueAt tm.subscribers topicName []
    if subs.any fun info => info.id = subscriber.id then
      ({ tm with subscribers := touch tm.subscribers topicName [] }, false)
    else
      ({ tm with subscribers := tm.subscribers.insert topicName (subs ++ [subscriber]) }, true)
  else
    let groups := valueAt tm.consumerGroups topicName ∅
    match joinGroup topicName groupId subscriber (groups.lookup groupId) with
    | none => ({ tm with consumerGroups := touch tm.consumerGroups topicName ∅ }, false)
    | some group =>
      ({ tm with
          consumerGroups := tm.consumerGroups.insert topicName (groups.insert groupId group) }, true)

/-- End a subscription; false if there is none. A group without members is removed. -/
def unsubscribe (topicName : TopicName) (subscriberId : SubscriberId) (groupId : String := "") :
    TopicManager × Bool :=
  if groupId = "" then
    match tm.subscribers.lookup topicName with
    | none => (tm, false)
    | some subs =>
      if subs.any fun info => info.id = subscriberId then
        ({ tm with
            subscribers := tm.subscribers.insert topicName
              (subs.filter fun info => info.id ≠ subscriberId) }, true)
      else (tm, false)
  else
    match tm.consumerGroups.lookup topicName with
    | none => (tm, false)
    | some groups =>
      match groups.lookup groupId with
      | none => (tm, false)
      | some group =>
        if group.members.any fun m => m.subscriberId = subscriberId then
          let members := group.members.filter fun m => m.subscriberId ≠ subscriberId
          let groups :=
            if members = [] then groups.erase groupId
            else groups.insert groupId { group with members := members }
          ({ tm with consumerGroups := tm.consumerGroups.insert topicName groups }, true)
        else (tm, false)

/-- The broadcast subscribers of a topic. -/
def getSubscribers (topicName : TopicName) : List SubscriberInfo :=
  valueAt tm.subscribers topicName []

/-- The consumer groups of a topic, in the order of a loop over the map. -/
def getConsumerGroups (order : VisitOrder String ConsumerGroup) (topicName : TopicName) :
    List ConsumerGroup :=
  match tm.consumerGroups.lookup topicName with
  | none => []
  | some groups => (order.visit groups).filterMap groups.lookup

/-- A consumer group of a topic. -/
def getConsumerGroup (topicName : TopicName) (groupId : String) : Option ConsumerGroup :=
  (tm.consumerGroups.lookup topicName).bind fun groups => groups.lookup groupId

/-- The member of a group that takes the next message, in turn; empty if there is none. -/
def selectNextMember (topicName : TopicName) (groupId : String) : TopicManager × SubscriberId :=
  match tm.consumerGroups.lookup topicName with
  | none => (tm, "")
  | some groups =>
    match groups.lookup groupId with
    | none => (tm, "")
    | some group =>
      let idx := group.roundRobinIndex % group.members.length
      match group.members[idx]? with
      | none => (tm, "")
      | some member =>
        let next := (group.roundRobinIndex + 1) % group.members.length
        let groups := groups.insert groupId { group with roundRobinIndex := next }
        ({ tm with consumerGroups := tm.consumerGroups.insert topicName groups },
          member.subscriberId)

/-! ### Closed connections -/

/-- Keep a list unless it is empty. -/
def keepNonempty {α : Type*} (l : List α) : Option (List α) := if l.isEmpty then none else some l

/-- A group without the members on a connection; none if no member is left. -/
def leaveGroup (connId : ConnectionId) (group : ConsumerGroup) : Option ConsumerGroup :=
  (keepNonempty (group.members.filter fun m => m.connId ≠ connId)).map fun members =>
    { group with members := members }

/-- The groups of a topic after a connection was closed; none if no group is left. -/
def leaveGroups (connId : ConnectionId) (groups : UnorderedMap String ConsumerGroup) :
    Option (UnorderedMap String ConsumerGroup) :=
  let groups := filterMapValues (leaveGroup connId) groups
  if groups.keys = [] then none else some groups

/-- End every subscription of a connection; false if it had none. Topics without
subscribers and groups without members are removed. -/
def unsubscribeByConnId (connId : ConnectionId) : TopicManager × Bool :=
  let removedAny :=
    (tm.subscribers.entries.any fun e => e.2.any fun info => info.connId = connId) ||
      tm.consumerGroups.entries.any fun e =>
        e.2.entries.any fun g => g.2.members.any fun m => m.connId = connId
  ({ tm with
      subscribers := filterMapValues
        (fun subs => keepNonempty (subs.filter fun info => info.connId ≠ connId)) tm.subscribers
      consumerGroups := filterMapValues (leaveGroups connId) tm.consumerGroups }, removedAny)

end TopicManager

end ProtoMsgQueue
