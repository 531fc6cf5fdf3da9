import Mathlib.Logic.Relation
import ProtoMsgQueue.Mq.TopicManager

/-!
# The subscriptions a topic manager holds

`subscribersOf` reads a manager as a table: for each topic, and for the broadcast
subscription or a group, the subscribers in order. One theorem for each operation says what
becomes of the table; results about subscriptions use these and not the maps behind them.
-/

namespace ProtoMsgQueue

open UnorderedMap

/-- A member as a subscriber. -/
def ConsumerGroupMember.toInfo (m : ConsumerGroupMember) : SubscriberInfo :=
  ⟨m.subscriberId, m.connId⟩

theorem ConsumerGroupMember.toInfo_injective : Function.Injective toInfo := by
  rintro ⟨id, connId⟩ ⟨id', connId'⟩ h
  cases h
  rfl

namespace TopicManager

/-- What a group name in a request means: none for a broadcast subscription. -/
def groupKey (groupId : String) : Option String := if groupId = "" then none else some groupId

/-- The subscribers of a topic: by broadcast, or the members of a group. -/
def subscribersOf (tm : TopicManager) (topic : TopicName) : Option String → List SubscriberInfo
  | none => tm.getSubscribers topic
  | some groupId =>
    ((tm.getConsumerGroup topic groupId).map fun group =>
      group.members.map ConsumerGroupMember.toInfo).getD []

/-- Some subscription belongs to this connection. -/
def HoldsConn (tm : TopicManager) (connId : ConnectionId) : Prop :=
  ∃ topic group, ∃ sub ∈ tm.subscribersOf topic group, sub.connId = connId

/-! ### Groups of a topic -/

/-- The groups of a topic. -/
def groupsOf (tm : TopicManager) (topic : TopicName) : UnorderedMap String ConsumerGroup :=
  valueAt tm.consumerGroups topic ∅

/-- The groups of a topic that has some. -/
theorem groupsOf_eq_of_lookup {tm : TopicManager} {topic : TopicName}
    {groups : UnorderedMap String ConsumerGroup}
    (h : tm.consumerGroups.lookup topic = some groups) : tm.groupsOf topic = groups := by
  rw [groupsOf, valueAt, h, Option.getD_some]

theorem getConsumerGroup_eq (tm : TopicManager) (topic : TopicName) (groupId : String) :
    tm.getConsumerGroup topic groupId = (tm.groupsOf topic).lookup groupId := by
  rw [getConsumerGroup, groupsOf, valueAt]
  cases tm.consumerGroups.lookup topic <;> rfl

theorem subscribersOf_some (tm : TopicManager) (topic : TopicName) (groupId : String) :
    tm.subscribersOf topic (some groupId) =
      (((tm.groupsOf topic).lookup groupId).map fun group =>
        group.members.map ConsumerGroupMember.toInfo).getD [] := by
  rw [subscribersOf, getConsumerGroup_eq]

/-- Two managers with the same subscribers and groups hold the same subscriptions. -/
theorem subscribersOf_congr {tm tm' : TopicManager}
    (hsubs : ∀ topic, tm'.getSubscribers topic = tm.getSubscribers topic)
    (hgroups : ∀ topic, tm'.groupsOf topic = tm.groupsOf topic) (topic : TopicName)
    (group : Option String) : tm'.subscribersOf topic group = tm.subscribersOf topic group := by
  cases group with
  | none => exact hsubs topic
  | some groupId => rw [subscribersOf_some, subscribersOf_some, hgroups]

/-- Changing one group changes the subscriptions of that group. -/
theorem subscribersOf_changeGroup (tm : TopicManager) (topics : UnorderedMap TopicName TopicInfo)
    (topic : TopicName) (groupId : String) {groups : UnorderedMap String ConsumerGroup}
    (hothers : ∀ g, g ≠ groupId → groups.lookup g = (tm.groupsOf topic).lookup g)
    (topic' : TopicName) (group : Option String) :
    TopicManager.subscribersOf
        { tm with topics := topics, consumerGroups := tm.consumerGroups.insert topic groups }
        topic' group =
      if topic' = topic ∧ group = some groupId then
        ((groups.lookup groupId).map fun g => g.members.map ConsumerGroupMember.toInfo).getD []
      else tm.subscribersOf topic' group := by
  cases group with
  | none => rw [if_neg (by simp)]; rfl
  | some g =>
    rw [subscribersOf_some, subscribersOf_some, groupsOf]
    rcases eq_or_ne topic' topic with rfl | hne
    swap
    · rw [if_neg (by simp [hne]), valueAt_insert_ne _ _ _ hne, groupsOf]
    rw [valueAt_insert]
    rcases eq_or_ne g groupId with rfl | hne
    · rw [if_pos ⟨rfl, rfl⟩]
    · rw [if_neg (by simp [hne]), hothers g hne]

/-! ### The operations -/

/-- Subscribing succeeds iff the subscription does not exist. -/
theorem subscribe_snd (tm : TopicManager) (topic : TopicName) (sub : SubscriberInfo)
    (groupId : String) : (tm.subscribe topic sub groupId).2 =
      !(tm.subscribersOf topic (groupKey groupId)).any fun info => info.id = sub.id := by
  unfold subscribe groupKey
  dsimp only
  split
  · rw [subscribersOf, getSubscribers]
    split
    · rename_i h
      rw [h, Bool.not_true]
    · rename_i h
      rw [Bool.eq_false_iff.mpr h, Bool.not_false]
  · rw [subscribersOf_some, groupsOf]
    rcases (valueAt tm.consumerGroups topic ∅).lookup groupId with - | group
    · rfl
    · have hany : ((group.members.map ConsumerGroupMember.toInfo).any fun info =>
          info.id = sub.id) = group.members.any fun m => m.subscriberId = sub.id :=
        List.any_map
      rw [Option.map_some, Option.getD_some, hany, joinGroup]
      cases group.members.any fun m => m.subscriberId = sub.id <;> rfl

/-- A new subscription comes last among those of its topic and group. -/
theorem subscribersOf_subscribe (tm : TopicManager) (topic : TopicName) (sub : SubscriberInfo)
    (groupId : String) (topic' : TopicName) (group : Option String) :
    (tm.subscribe topic sub groupId).1.subscribersOf topic' group =
      if (tm.subscribe topic sub groupId).2 = true ∧ topic' = topic ∧ group = groupKey groupId then
        tm.subscribersOf topic' group ++ [sub]
      else tm.subscribersOf topic' group := by
  unfold subscribe groupKey
  dsimp only
  split
  · split
    · rw [if_neg (by simp)]
      apply subscribersOf_congr
      · exact fun topic => valueAt_touch _ _ _ _
      · exact fun _ => rfl
    · cases group with
      | some groupId => rw [if_neg (by simp), subscribersOf_some, subscribersOf_some]; rfl
      | none =>
        rcases eq_or_ne topic' topic with rfl | hne
        · rw [if_pos ⟨rfl, rfl, rfl⟩]
          exact valueAt_insert _ _ _ _
        · rw [if_neg (by simp [hne])]
          exact valueAt_insert_ne _ _ _ hne
  · rename_i hgroup
    rcases hjoin : joinGroup topic groupId sub
      ((valueAt tm.consumerGroups topic ∅).lookup groupId) with - | joined
    · rw [if_neg (by simp)]
      apply subscribersOf_congr
      · exact fun _ => rfl
      · exact fun topic => valueAt_touch _ _ _ _
    · refine Eq.trans (subscribersOf_changeGroup tm _ topic groupId
        (fun g hne => AList.lookup_insert_ne hne) topic' group) ?_
      rw [AList.lookup_insert]
      refine ite_congr (propext ⟨fun h => ⟨rfl, h⟩, And.right⟩) (fun h => ?_) fun _ => rfl
      rw [h.2.1, h.2.2, subscribersOf_some, groupsOf]
      rcases hold : (valueAt tm.consumerGroups topic ∅).lookup groupId with - | old
      · rw [hold, joinGroup] at hjoin
        obtain rfl := Option.some.inj hjoin
        rfl
      · rw [hold, joinGroup] at hjoin
        split at hjoin
        · cases hjoin
        · obtain rfl := Option.some.inj hjoin
          exact List.map_append

/-- Nothing is removed when no subscription has the identifier. -/
private theorem filter_id_ne_of_any_eq_false {l : List SubscriberInfo} {subscriberId : SubscriberId}
    (h : (l.any fun info => info.id = subscriberId) = false) :
    (l.filter fun info => info.id ≠ subscriberId) = l := by
  rw [List.any_eq_false] at h
  rw [List.filter_eq_self]
  intro info hinfo
  simpa using h info hinfo

/-- Unsubscribing succeeds iff the subscription exists. -/
theorem unsubscribe_snd (tm : TopicManager) (topic : TopicName) (subscriberId : SubscriberId)
    (groupId : String) : (tm.unsubscribe topic subscriberId groupId).2 =
      (tm.subscribersOf topic (groupKey groupId)).any fun info => info.id = subscriberId := by
  unfold unsubscribe groupKey
  split
  · rw [subscribersOf, getSubscribers, valueAt]
    rcases tm.subscribers.lookup topic with - | subs
    · rfl
    · rw [Option.getD_some]
      dsimp only
      split
      · rename_i h
        exact h.symm
      · rename_i h
        exact (Bool.eq_false_iff.mpr h).symm
  · rw [subscribersOf_some, groupsOf, valueAt]
    rcases tm.consumerGroups.lookup topic with - | groups
    · rfl
    rw [Option.getD_some]
    dsimp only
    rcases groups.lookup groupId with - | group
    · rfl
    have hany : ((group.members.map ConsumerGroupMember.toInfo).any fun info =>
        info.id = subscriberId) = group.members.any fun m => m.subscriberId = subscriberId :=
      List.any_map
    rw [Option.map_some, Option.getD_some, hany]
    dsimp only
    split
    · rename_i h
      exact h.symm
    · rename_i h
      exact (Bool.eq_false_iff.mpr h).symm

/-- Unsubscribing from a broadcast subscription. -/
theorem subscribersOf_unsubscribe_broadcast (tm : TopicManager) (topic : TopicName)
    (subscriberId : SubscriberId) (topic' : TopicName) (group : Option String) :
    (tm.unsubscribe topic subscriberId "").1.subscribersOf topic' group =
      if topic' = topic ∧ group = none then
        (tm.subscribersOf topic' group).filter fun info => info.id ≠ subscriberId
      else tm.subscribersOf topic' group := by
  rw [unsubscribe, if_pos rfl]
  cases group with
  | some g =>
    rw [if_neg (by simp)]
    split
    · rfl
    · split <;> rfl
  | none =>
    simp only [subscribersOf, getSubscribers, valueAt, and_true]
    split
    · rename_i hlookup
      split
      · rename_i h
        rw [h, hlookup]
        rfl
      · rfl
    · rename_i subs hlookup
      split
      · split
        · rename_i h
          rw [h, AList.lookup_insert, hlookup]
          rfl
        · rename_i hne
          rw [AList.lookup_insert_ne hne]
      · rename_i hnone
        split
        · rename_i h
          rw [h, hlookup, Option.getD_some,
            filter_id_ne_of_any_eq_false (Bool.eq_false_iff.mpr hnone)]
        · rfl

/-- Unsubscribing from a group. -/
theorem subscribersOf_unsubscribe_group (tm : TopicManager) (topic : TopicName)
    (subscriberId : SubscriberId) {groupId : String} (hgroup : groupId ≠ "") (topic' : TopicName)
    (group : Option String) :
    (tm.unsubscribe topic subscriberId groupId).1.subscribersOf topic' group =
      if topic' = topic ∧ group = some groupId then
        (tm.subscribersOf topic' group).filter fun info => info.id ≠ subscriberId
      else tm.subscribersOf topic' group := by
  rw [unsubscribe, if_neg hgroup]
  -- Where there is nothing to remove, the filter removes nothing.
  have hkept : (tm.subscribersOf topic (some groupId)).filter
      (fun info => info.id ≠ subscriberId) = tm.subscribersOf topic (some groupId) →
      tm.subscribersOf topic' group = if topic' = topic ∧ group = some groupId then
        (tm.subscribersOf topic' group).filter fun info => info.id ≠ subscriberId
      else tm.subscribersOf topic' group := by
    intro h
    split
    · rename_i heq
      rw [heq.1, heq.2, h]
    · rfl
  split
  · rename_i hlookup
    refine hkept ?_
    rw [subscribersOf_some, groupsOf, valueAt, hlookup]
    rfl
  rename_i groups hlookup
  have hgroups : tm.groupsOf topic = groups := groupsOf_eq_of_lookup hlookup
  split
  · rename_i hlookup'
    refine hkept ?_
    rw [subscribersOf_some, hgroups, hlookup']
    rfl
  rename_i old hlookup'
  split
  · dsimp only
    refine Eq.trans (subscribersOf_changeGroup tm _ topic groupId (fun g hne => ?_) topic' group) ?_
    · rw [hgroups]
      split
      · exact AList.lookup_erase_ne hne
      · exact AList.lookup_insert_ne hne
    · refine ite_congr rfl (fun h => ?_) fun _ => rfl
      rw [h.1, h.2, subscribersOf_some, hgroups, hlookup', Option.map_some, Option.getD_some,
        List.filter_map]
      split
      · rename_i hnil
        rw [AList.lookup_erase]
        exact (congrArg (List.map ConsumerGroupMember.toInfo) hnil).symm
      · rw [AList.lookup_insert]
        rfl
  · rename_i hnone
    refine hkept (filter_id_ne_of_any_eq_false ?_)
    rw [subscribersOf_some, hgroups, hlookup', Option.map_some, Option.getD_some, List.any_map]
    exact Bool.eq_false_iff.mpr hnone

/-- Unsubscribing removes what the subscriber has in the topic and group. -/
theorem subscribersOf_unsubscribe (tm : TopicManager) (topic : TopicName)
    (subscriberId : SubscriberId) (groupId : String) (topic' : TopicName) (group : Option String) :
    (tm.unsubscribe topic subscriberId groupId).1.subscribersOf topic' group =
      if topic' = topic ∧ group = groupKey groupId then
        (tm.subscribersOf topic' group).filter fun info => info.id ≠ subscriberId
      else tm.subscribersOf topic' group := by
  rw [groupKey]
  split
  · rename_i hempty
    rw [hempty]
    exact subscribersOf_unsubscribe_broadcast tm topic subscriberId topic' group
  · rename_i hgroup
    exact subscribersOf_unsubscribe_group tm topic subscriberId hgroup topic' group

/-- A list that is kept is not empty. -/
theorem ne_nil_of_keepNonempty_eq_some {β : Type*} {l l' : List β}
    (h : keepNonempty l = some l') : l' ≠ [] := by
  rw [keepNonempty] at h
  split at h
  · cases h
  · rename_i hne
    obtain rfl := Option.some.inj h
    exact fun hnil => hne (List.isEmpty_iff.mpr hnil)

/-- The groups that are left when the subscriptions of a connection end. -/
theorem lookup_groupsOf_unsubscribeByConnId (tm : TopicManager) (connId : ConnectionId)
    (topic : TopicName) (groupId : String) :
    ((tm.unsubscribeByConnId connId).1.groupsOf topic).lookup groupId =
      ((tm.groupsOf topic).lookup groupId).bind (leaveGroup connId) := by
  rw [groupsOf, groupsOf, valueAt, valueAt]
  simp only [unsubscribeByConnId, lookup_filterMapValues]
  rcases tm.consumerGroups.lookup topic with - | groups
  · rfl
  rw [Option.bind_some, leaveGroups, Option.getD_some, ← lookup_filterMapValues]
  split
  · rename_i hnil
    rw [eq_empty_of_keys_eq_nil hnil]
    rfl
  · rfl

/-- No subscription of the connection is left, and all others are. -/
theorem subscribersOf_unsubscribeByConnId (tm : TopicManager) (connId : ConnectionId)
    (topic : TopicName) (group : Option String) :
    (tm.unsubscribeByConnId connId).1.subscribersOf topic group =
      (tm.subscribersOf topic group).filter fun info => info.connId ≠ connId := by
  cases group with
  | none =>
    simp only [subscribersOf, getSubscribers, unsubscribeByConnId, valueAt,
      lookup_filterMapValues]
    rcases tm.subscribers.lookup topic with - | subs
    · rfl
    rw [Option.bind_some, keepNonempty, Option.getD_some]
    split
    · rename_i hempty
      exact (List.isEmpty_iff.mp hempty).symm
    · rfl
  | some groupId =>
    rw [subscribersOf_some, subscribersOf_some, lookup_groupsOf_unsubscribeByConnId]
    rcases (tm.groupsOf topic).lookup groupId with - | g
    · rfl
    rw [Option.bind_some, leaveGroup, keepNonempty, Option.map_some, Option.getD_some,
      List.filter_map]
    split
    · rename_i hempty
      rw [List.isEmpty_iff] at hempty
      exact (congrArg (List.map ConsumerGroupMember.toInfo) hempty).symm
    · rfl

/-- Selecting a member changes no subscription. -/
theorem subscribersOf_selectNextMember (tm : TopicManager) (topic : TopicName) (groupId : String)
    (topic' : TopicName) (group : Option String) :
    (tm.selectNextMember topic groupId).1.subscribersOf topic' group =
      tm.subscribersOf topic' group := by
  unfold selectNextMember
  split
  · rfl
  rename_i groups hlookup
  have hgroups : tm.groupsOf topic = groups := groupsOf_eq_of_lookup hlookup
  split
  · rfl
  rename_i old hlookup'
  dsimp only
  split
  · rfl
  refine Eq.trans (subscribersOf_changeGroup tm _ topic groupId (fun g hne => ?_) topic' group) ?_
  · rw [hgroups, AList.lookup_insert_ne hne]
  · split
    · rename_i h
      rw [h.1, h.2, subscribersOf_some, hgroups, hlookup', AList.lookup_insert]
      rfl
    · rfl

/-- Removing a topic ends its subscriptions. -/
theorem subscribersOf_unregisterTopic (tm : TopicManager) (topic topic' : TopicName)
    (group : Option String) : (tm.unregisterTopic topic).1.subscribersOf topic' group =
      if topic' = topic then [] else tm.subscribersOf topic' group := by
  rcases eq_or_ne topic' topic with rfl | hne
  · cases group with
    | none => simp [subscribersOf, getSubscribers, unregisterTopic, valueAt]
    | some groupId => simp [subscribersOf_some, groupsOf, unregisterTopic, valueAt]
  · rw [if_neg hne]
    cases group with
    | none =>
      simp [subscribersOf, getSubscribers, unregisterTopic, valueAt, AList.lookup_erase_ne hne]
    | some groupId =>
      simp [subscribersOf_some, groupsOf, unregisterTopic, valueAt, AList.lookup_erase_ne hne]

/-- One manager comes from the other by selecting members of groups. -/
def Selects : TopicManager → TopicManager → Prop :=
  Relation.ReflTransGen fun tm tm' => ∃ topic groupId, tm' = (tm.selectNextMember topic groupId).1

theorem Selects.refl (tm : TopicManager) : Selects tm tm := Relation.ReflTransGen.refl

/-- Select one more member first. -/
theorem Selects.head {tm tm' : TopicManager} {topic : TopicName} {groupId : String}
    (h : Selects (tm.selectNextMember topic groupId).1 tm') : Selects tm tm' :=
  Relation.ReflTransGen.head ⟨topic, groupId, rfl⟩ h

theorem Selects.trans {tm tm' tm'' : TopicManager} (h : Selects tm tm') (h' : Selects tm' tm'') :
    Selects tm tm'' :=
  Relation.ReflTransGen.trans h h'

/-- Selecting members changes no subscription. -/
theorem Selects.subscribersOf_eq {tm tm' : TopicManager} (h : Selects tm tm') (topic : TopicName)
    (group : Option String) : tm'.subscribersOf topic group = tm.subscribersOf topic group := by
  induction h with
  | refl => rfl
  | tail _ hstep ih =>
    obtain ⟨topic', groupId, rfl⟩ := hstep
    rw [subscribersOf_selectNextMember, ih]

/-! ### What becomes of the topics -/

theorem topics_subscribe (tm : TopicManager) (topic : TopicName) (sub : SubscriberInfo)
    (groupId : String) : (tm.subscribe topic sub groupId).1.topics =
      touch tm.topics topic { name := topic } := by
  unfold subscribe
  dsimp only
  split <;> split <;> rfl

theorem topics_unsubscribe (tm : TopicManager) (topic : TopicName) (subscriberId : SubscriberId)
    (groupId : String) : (tm.unsubscribe topic subscriberId groupId).1.topics = tm.topics := by
  unfold unsubscribe
  split
  · split
    · rfl
    · split <;> rfl
  split
  · rfl
  split
  · rfl
  · split <;> rfl

theorem topics_selectNextMember (tm : TopicManager) (topic : TopicName) (groupId : String) :
    (tm.selectNextMember topic groupId).1.topics = tm.topics := by
  unfold selectNextMember
  split
  · rfl
  split
  · rfl
  dsimp only
  split <;> rfl

/-! ### What becomes of a group -/

/-- A group after one operation: as it was, new, with one more member, with fewer but some,
or with the turn moved on. -/
inductive GroupAfter (tm : TopicManager) (topic : TopicName) (groupId : String) :
    ConsumerGroup → Prop where
  | kept {group} (h : (tm.groupsOf topic).lookup groupId = some group) :
      GroupAfter tm topic groupId group
  | created (m : ConsumerGroupMember) :
      GroupAfter tm topic groupId { groupId := groupId, topicName := topic, members := [m] }
  | joined {group} (h : (tm.groupsOf topic).lookup groupId = some group)
      (m : ConsumerGroupMember) :
      GroupAfter tm topic groupId { group with members := group.members ++ [m] }
  | left {group members} (h : (tm.groupsOf topic).lookup groupId = some group)
      (hne : members ≠ []) : GroupAfter tm topic groupId { group with members := members }
  | turned {group} (h : (tm.groupsOf topic).lookup groupId = some group) (next : ℕ) :
      GroupAfter tm topic groupId { group with roundRobinIndex := next }

/-- Every group of the second manager comes from the first one. -/
def GroupsFrom (tm tm' : TopicManager) : Prop :=
  ∀ topic groupId group, (tm'.groupsOf topic).lookup groupId = some group →
    GroupAfter tm topic groupId group

/-- Nothing happened to the groups. -/
theorem GroupsFrom.of_groupsOf_eq {tm tm' : TopicManager}
    (h : ∀ topic, tm'.groupsOf topic = tm.groupsOf topic) : GroupsFrom tm tm' :=
  fun topic _ _ hlookup => .kept (h topic ▸ hlookup)

/-- Replace the groups of a topic. -/
theorem GroupsFrom.insert {tm : TopicManager} (topics : UnorderedMap TopicName TopicInfo)
    {topic : TopicName} {groups : UnorderedMap String ConsumerGroup}
    (hgroups : ∀ groupId group, groups.lookup groupId = some group →
      GroupAfter tm topic groupId group) :
    GroupsFrom tm
      { tm with topics := topics, consumerGroups := tm.consumerGroups.insert topic groups } := by
  intro topic' groupId group hlookup
  rw [groupsOf] at hlookup
  rcases eq_or_ne topic' topic with rfl | hne
  · rw [valueAt_insert] at hlookup
    exact hgroups groupId group hlookup
  · rw [valueAt_insert_ne _ _ _ hne] at hlookup
    exact .kept hlookup

/-- Replace one group. -/
theorem GroupsFrom.insert_group {tm : TopicManager} (topics : UnorderedMap TopicName TopicInfo)
    {topic : TopicName} {groupId : String} {group : ConsumerGroup}
    (hgroup : GroupAfter tm topic groupId group) :
    GroupsFrom tm { tm with
      topics := topics
      consumerGroups :=
        tm.consumerGroups.insert topic ((tm.groupsOf topic).insert groupId group) } := by
  refine .insert topics fun groupId' group' hlookup => ?_
  rcases eq_or_ne groupId' groupId with rfl | hne
  · rw [AList.lookup_insert] at hlookup
    exact Option.some.inj hlookup ▸ hgroup
  · rw [AList.lookup_insert_ne hne] at hlookup
    exact .kept hlookup

theorem groupsFrom_subscribe (tm : TopicManager) (topic : TopicName) (sub : SubscriberInfo)
    (groupId : String) : GroupsFrom tm (tm.subscribe topic sub groupId).1 := by
  unfold subscribe
  dsimp only
  split
  · split <;> exact .of_groupsOf_eq fun _ => rfl
  · rcases hjoin : joinGroup topic groupId sub
      ((valueAt tm.consumerGroups topic ∅).lookup groupId) with - | joined
    · exact .of_groupsOf_eq fun topic' => valueAt_touch _ _ _ _
    · refine .insert_group _ ?_
      rcases hold : (valueAt tm.consumerGroups topic ∅).lookup groupId with - | old
      · rw [hold, joinGroup] at hjoin
        obtain rfl := Option.some.inj hjoin
        exact .created _
      · rw [hold, joinGroup] at hjoin
        split at hjoin
        · cases hjoin
        · obtain rfl := Option.some.inj hjoin
          exact .joined hold _

theorem groupsFrom_unsubscribe (tm : TopicManager) (topic : TopicName)
    (subscriberId : SubscriberId) (groupId : String) :
    GroupsFrom tm (tm.unsubscribe topic subscriberId groupId).1 := by
  have hsame : GroupsFrom tm tm := .of_groupsOf_eq fun _ => rfl
  unfold unsubscribe
  split
  · split
    · exact hsame
    · split
      · exact .of_groupsOf_eq fun _ => rfl
      · exact hsame
  split
  · exact hsame
  rename_i groups hlookup
  rw [← groupsOf_eq_of_lookup hlookup]
  split
  · exact hsame
  rename_i group hlookup'
  split
  · dsimp only
    split
    · refine .insert _ fun groupId' group' hlookup => ?_
      rcases eq_or_ne groupId' groupId with rfl | hne
      · rw [AList.lookup_erase] at hlookup
        cases hlookup
      · rw [AList.lookup_erase_ne hne] at hlookup
        exact .kept hlookup
    · rename_i hne
      exact .insert_group _ (.left hlookup' hne)
  · exact hsame

theorem groupsFrom_selectNextMember (tm : TopicManager) (topic : TopicName) (groupId : String) :
    GroupsFrom tm (tm.selectNextMember topic groupId).1 := by
  have hsame : GroupsFrom tm tm := .of_groupsOf_eq fun _ => rfl
  unfold selectNextMember
  split
  · exact hsame
  rename_i groups hlookup
  rw [← groupsOf_eq_of_lookup hlookup]
  split
  · exact hsame
  rename_i group hlookup'
  dsimp only
  split
  · exact hsame
  · exact .insert_group _ (.turned hlookup' _)

theorem groupsFrom_unregisterTopic (tm : TopicManager) (topic : TopicName) :
    GroupsFrom tm (tm.unregisterTopic topic).1 := by
  intro topic' groupId group hlookup
  rw [unregisterTopic, groupsOf, valueAt] at hlookup
  rcases eq_or_ne topic' topic with rfl | hne
  · rw [AList.lookup_erase] at hlookup
    cases hlookup
  · rw [AList.lookup_erase_ne hne] at hlookup
    exact .kept hlookup

theorem groupsFrom_unsubscribeByConnId (tm : TopicManager) (connId : ConnectionId) :
    GroupsFrom tm (tm.unsubscribeByConnId connId).1 := by
  intro topic groupId group hlookup
  rw [lookup_groupsOf_unsubscribeByConnId, Option.bind_eq_some_iff] at hlookup
  obtain ⟨old, hold, hleave⟩ := hlookup
  obtain ⟨members, hmembers, rfl⟩ := Option.map_eq_some_iff.mp hleave
  exact .left hold (ne_nil_of_keepNonempty_eq_some hmembers)

/-! ### Groups are stored under their names -/

/-- Every group is stored under its name. -/
def Keyed (tm : TopicManager) : Prop :=
  ∀ topic groupId group, (tm.groupsOf topic).lookup groupId = some group → group.groupId = groupId

/-- No operation renames a group. -/
theorem Keyed.of_groupsFrom {tm tm' : TopicManager} (h : tm.Keyed) (hfrom : GroupsFrom tm tm') :
    tm'.Keyed := by
  intro topic groupId group hlookup
  cases hfrom topic groupId group hlookup with
  | kept hold => exact h topic groupId group hold
  | created m => rfl
  | @joined old hold m => exact h topic groupId old hold
  | @left old members hold hne => exact h topic groupId old hold
  | @turned old hold next => exact h topic groupId old hold

theorem Keyed.selects {tm tm' : TopicManager} (h : tm.Keyed) (hselects : Selects tm tm') :
    tm'.Keyed := by
  induction hselects with
  | refl => exact h
  | tail _ hstep ih =>
    obtain ⟨topic, groupId, rfl⟩ := hstep
    exact ih.of_groupsFrom (groupsFrom_selectNextMember _ topic groupId)

/-- A loop over the groups of a topic finds the groups that are stored. -/
theorem Keyed.mem_getConsumerGroups {tm : TopicManager} (h : tm.Keyed)
    (order : VisitOrder String ConsumerGroup) {topic : TopicName} {group : ConsumerGroup} :
    group ∈ tm.getConsumerGroups order topic ↔
      (tm.groupsOf topic).lookup group.groupId = some group := by
  rw [getConsumerGroups, groupsOf, valueAt]
  rcases hgroups : tm.consumerGroups.lookup topic with - | groups
  · refine iff_of_false List.not_mem_nil ?_
    intro hlookup
    cases hlookup
  rw [Option.getD_some, List.mem_filterMap]
  constructor
  · rintro ⟨groupId, -, hlookup⟩
    have hid := h topic groupId group (groupsOf_eq_of_lookup hgroups ▸ hlookup)
    rw [hid, hlookup]
  · intro hlookup
    exact ⟨group.groupId, (order.mem_visit groups _).mpr (mem_iff_exists_lookup.mpr ⟨_, hlookup⟩),
      hlookup⟩

/-- The groups of a topic have different names. -/
theorem Keyed.nodup_groupIds {tm : TopicManager} (h : tm.Keyed)
    (order : VisitOrder String ConsumerGroup) (topic : TopicName) :
    ((tm.getConsumerGroups order topic).map ConsumerGroup.groupId).Nodup := by
  rw [getConsumerGroups]
  rcases hlookup : tm.consumerGroups.lookup topic with - | groups
  · exact List.nodup_nil
  have hgroups : tm.groupsOf topic = groups := groupsOf_eq_of_lookup hlookup
  have hnames : ∀ keys : List String,
      ((keys.filterMap groups.lookup).map ConsumerGroup.groupId).Sublist keys := by
    intro keys
    induction keys with
    | nil => exact .slnil
    | cons key keys ih =>
      rw [List.filterMap_cons]
      rcases hkey : groups.lookup key with - | group
      · exact ih.cons _
      · rw [List.map_cons, h topic key group (hgroups ▸ hkey)]
        exact ih.cons_cons _
  exact (order.nodup_visit groups).sublist (hnames _)

/-! ### Connections with subscriptions -/

/-- A connection has a subscription iff ending its subscriptions removes some. -/
theorem holdsConn_iff (tm : TopicManager) (connId : ConnectionId) :
    tm.HoldsConn connId ↔ (tm.unsubscribeByConnId connId).2 = true := by
  have hremoved : (tm.unsubscribeByConnId connId).2 = true ↔
      (∃ topic subs, tm.subscribers.lookup topic = some subs ∧
        (subs.any fun info => info.connId = connId) = true) ∨
      ∃ topic groups, tm.consumerGroups.lookup topic = some groups ∧
        (groups.entries.any fun g => g.2.members.any fun m => m.connId = connId) = true := by
    rw [unsubscribeByConnId, Bool.or_eq_true]
    refine or_congr ?_ ?_
    · exact any_entries_iff tm.subscribers fun subs => subs.any fun info => info.connId = connId
    · exact any_entries_iff tm.consumerGroups fun groups =>
        groups.entries.any fun g => g.2.members.any fun m => m.connId = connId
  rw [hremoved]
  constructor
  · rintro ⟨topic, group, sub, hmem, rfl⟩
    cases group with
    | none =>
      rw [subscribersOf, getSubscribers, valueAt] at hmem
      rcases hlookup : tm.subscribers.lookup topic with - | subs
      · rw [hlookup] at hmem
        cases hmem
      · rw [hlookup] at hmem
        exact Or.inl ⟨topic, subs, hlookup, List.any_eq_true.mpr ⟨sub, hmem, decide_eq_true rfl⟩⟩
    | some groupId =>
      rw [subscribersOf_some, groupsOf, valueAt] at hmem
      rcases hlookup : tm.consumerGroups.lookup topic with - | groups
      · rw [hlookup] at hmem
        cases hmem
      rw [hlookup, Option.getD_some] at hmem
      rcases hlookup' : groups.lookup groupId with - | g
      · rw [hlookup'] at hmem
        cases hmem
      rw [hlookup'] at hmem
      obtain ⟨m, hm, rfl⟩ := List.mem_map.mp hmem
      refine Or.inr ⟨topic, groups, hlookup,
        (any_entries_iff groups fun g => g.members.any fun m' => m'.connId = m.connId).mpr
          ⟨groupId, g, hlookup', ?_⟩⟩
      exact List.any_eq_true.mpr ⟨m, hm, decide_eq_true rfl⟩
  · rintro (⟨topic, subs, hlookup, hany⟩ | ⟨topic, groups, hlookup, hany⟩)
    · obtain ⟨sub, hmem, hconn⟩ := List.any_eq_true.mp hany
      refine ⟨topic, none, sub, ?_, of_decide_eq_true hconn⟩
      rw [subscribersOf, getSubscribers, valueAt, hlookup]
      exact hmem
    · obtain ⟨groupId, g, hlookup', hany⟩ :=
        (any_entries_iff groups fun g => g.members.any fun m => m.connId = connId).mp hany
      obtain ⟨m, hm, hconn⟩ := List.any_eq_true.mp hany
      refine ⟨topic, some groupId, m.toInfo, ?_, of_decide_eq_true hconn⟩
      rw [subscribersOf_some, groupsOf, valueAt, hlookup, Option.getD_some, hlookup']
      exact List.mem_map_of_mem hm

instance (tm : TopicManager) (connId : ConnectionId) : Decidable (tm.HoldsConn connId) :=
  decidable_of_iff' _ (tm.holdsConn_iff connId)

/-- Subscribing gives the connection a subscription if it succeeds. -/
theorem holdsConn_subscribe {tm : TopicManager} {topic : TopicName} {sub : SubscriberInfo}
    {groupId : String} {connId : ConnectionId} :
    (tm.subscribe topic sub groupId).1.HoldsConn connId ↔
      tm.HoldsConn connId ∨ (tm.subscribe topic sub groupId).2 = true ∧ sub.connId = connId := by
  constructor
  · rintro ⟨topic', group, info, hmem, hconn⟩
    rw [subscribersOf_subscribe] at hmem
    split at hmem
    · rename_i h
      rcases List.mem_append.mp hmem with hold | hnew
      · exact Or.inl ⟨topic', group, info, hold, hconn⟩
      · rw [List.mem_singleton.mp hnew] at hconn
        exact Or.inr ⟨h.1, hconn⟩
    · exact Or.inl ⟨topic', group, info, hmem, hconn⟩
  · rintro (⟨topic', group, info, hmem, hconn⟩ | ⟨hok, hconn⟩)
    · refine ⟨topic', group, info, ?_, hconn⟩
      rw [subscribersOf_subscribe]
      split
      · exact List.mem_append_left _ hmem
      · exact hmem
    · refine ⟨topic, groupKey groupId, sub, ?_, hconn⟩
      rw [subscribersOf_subscribe, if_pos ⟨hok, rfl, rfl⟩]
      exact List.mem_append_right _ (List.mem_singleton.mpr rfl)

/-- Fewer subscriptions, fewer connections with one. -/
theorem HoldsConn.of_subset {tm tm' : TopicManager} {connId : ConnectionId}
    (hsub : ∀ topic group, tm'.subscribersOf topic group ⊆ tm.subscribersOf topic group)
    (h : tm'.HoldsConn connId) : tm.HoldsConn connId := by
  obtain ⟨topic, group, info, hmem, hconn⟩ := h
  exact ⟨topic, group, info, hsub topic group hmem, hconn⟩

/-- A connection that was closed has no subscription; the others keep theirs. -/
theorem holdsConn_unsubscribeByConnId {tm : TopicManager} {closed connId : ConnectionId} :
    (tm.unsubscribeByConnId closed).1.HoldsConn connId ↔
      tm.HoldsConn connId ∧ connId ≠ closed := by
  simp only [HoldsConn, subscribersOf_unsubscribeByConnId, List.mem_filter, decide_eq_true_eq]
  constructor
  · rintro ⟨topic, group, info, ⟨hmem, hne⟩, rfl⟩
    exact ⟨⟨topic, group, info, hmem, rfl⟩, hne⟩
  · rintro ⟨⟨topic, group, info, hmem, rfl⟩, hne⟩
    exact ⟨topic, group, info, ⟨hmem, hne⟩, rfl⟩

end TopicManager

end ProtoMsgQueue
