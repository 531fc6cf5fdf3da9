import Mathlib.Data.Finset.Insert
import Mathlib.Data.Finset.Erase
import Mathlib.Data.List.Dedup
import ProtoMsgQueue.Lib.StepMachine
import ProtoMsgQueue.Mq.Subscriptions

/-!
# A topic manager is a list of subscriptions

What a topic manager is for: to know a set of topics and a list of subscriptions, each of a
subscriber to a topic, by broadcast or in a group. A `Registry` is just that. Here a step of a
topic manager is a step of a registry, so after any calls the manager shows what the registry
shows; its three nested maps, and the rules by which their empty entries go, are not seen.
-/

namespace ProtoMsgQueue

open UnorderedMap

/-! ### Registries -/

/-- A subscription to a topic: by broadcast, or in a group. -/
structure Subscription where
  topic : TopicName
  group : Option String
  id : SubscriberId
  connId : ConnectionId
deriving DecidableEq, Repr

namespace Subscription

/-- What makes a subscription different from others. -/
def key (s : Subscription) : TopicName × Option String × SubscriberId := (s.topic, s.group, s.id)

/-- Who is subscribed. -/
def info (s : Subscription) : SubscriberInfo := ⟨s.id, s.connId⟩

end Subscription

/-- The topics that are known, and the subscriptions in the order in which they were made. -/
@[ext]
structure Registry where
  topics : Finset TopicName
  subscriptions : List Subscription
  nodup_key : (subscriptions.map Subscription.key).Nodup
  registered : ∀ s ∈ subscriptions, s.topic ∈ topics

namespace Registry

instance : EmptyCollection Registry := ⟨⟨∅, [], List.nodup_nil, by simp⟩⟩

variable (r : Registry)

/-- Make a topic known. -/
def register (topic : TopicName) : Registry where
  topics := insert topic r.topics
  subscriptions := r.subscriptions
  nodup_key := r.nodup_key
  registered s hs := Finset.mem_insert_of_mem (r.registered s hs)

/-- Keep only some subscriptions. -/
def keep (p : Subscription → Bool) : Registry where
  topics := r.topics
  subscriptions := r.subscriptions.filter p
  nodup_key := r.nodup_key.sublist (List.filter_sublist.map _)
  registered s hs := r.registered s (List.mem_of_mem_filter hs)

/-- Forget a topic, with its subscriptions. -/
def forget (topic : TopicName) : Registry where
  topics := r.topics.erase topic
  subscriptions := r.subscriptions.filter fun s => s.topic ≠ topic
  nodup_key := r.nodup_key.sublist (List.filter_sublist.map _)
  registered s hs := by
    obtain ⟨hmem, hne⟩ := List.mem_filter.mp hs
    exact Finset.mem_erase.mpr ⟨of_decide_eq_true hne, r.registered s hmem⟩

/-- Add a subscription that is new; its topic becomes known. -/
def add (s : Subscription) (hnew : s.key ∉ r.subscriptions.map Subscription.key) : Registry where
  topics := insert s.topic r.topics
  subscriptions := r.subscriptions ++ [s]
  nodup_key := by
    rw [List.map_append, List.map_singleton, ← List.concat_eq_append, List.nodup_concat]
    exact ⟨hnew, r.nodup_key⟩
  registered s' hs' := by
    rcases List.mem_append.mp hs' with hold | hnew
    · exact Finset.mem_insert_of_mem (r.registered s' hold)
    · rw [List.mem_singleton.mp hnew]
      exact Finset.mem_insert_self _ _

/-- Subscribe unless the subscription exists. -/
def subscribe (s : Subscription) : Registry × Bool :=
  if h : s.key ∈ r.subscriptions.map Subscription.key then (r.register s.topic, false)
  else (r.add s h, true)

/-- The subscriptions to a topic: by broadcast, or in a group. -/
def listed (topic : TopicName) (group : Option String) : List Subscription :=
  r.subscriptions.filter fun s => s.topic = topic ∧ s.group = group

/-- The subscribers of a topic: by broadcast, or in a group. -/
def subscribersOf (topic : TopicName) (group : Option String) : List SubscriberInfo :=
  (r.listed topic group).map Subscription.info

/-- A group of a topic; none if it has no members. -/
def getConsumerGroup (topic : TopicName) (groupId : String) : Option ConsumerGroup :=
  let members := (r.listed topic (some groupId)).map fun s => ⟨s.id, s.connId⟩
  if members = [] then none
  else some { groupId := groupId, topicName := topic, members := members }

/-- The groups of a topic that have members. -/
def getConsumerGroups (topic : TopicName) : List ConsumerGroup :=
  ((r.subscriptions.filter fun s => s.topic = topic).filterMap Subscription.group).dedup.filterMap
    (r.getConsumerGroup topic)

/-! ### The subscriptions that are left -/

theorem listed_keep (p : Subscription → Bool) (topic : TopicName) (group : Option String) :
    (r.keep p).listed topic group = (r.listed topic group).filter p :=
  List.filter_comm _ _ _

/-- Keep the subscriptions whose subscribers meet a condition. -/
theorem subscribersOf_keep {p : Subscription → Bool} {q : SubscriberInfo → Bool}
    {topic : TopicName} {group : Option String}
    (h : ∀ s, s.topic = topic → s.group = group → p s = q s.info) :
    (r.keep p).subscribersOf topic group = (r.subscribersOf topic group).filter q := by
  rw [subscribersOf, listed_keep, subscribersOf, List.filter_map]
  refine congrArg _ (List.filter_congr fun s hs => ?_)
  obtain ⟨htopic, hgroup⟩ := of_decide_eq_true (List.mem_filter.mp hs).2
  exact h s htopic hgroup

theorem subscribersOf_forget (topic topic' : TopicName) (group : Option String) :
    (r.forget topic).subscribersOf topic' group =
      if topic' = topic then [] else r.subscribersOf topic' group := by
  have hkeep : (r.forget topic).subscribersOf topic' group =
      (r.keep fun s => s.topic ≠ topic).subscribersOf topic' group := rfl
  rw [hkeep]
  split
  · rename_i heq
    rw [r.subscribersOf_keep (q := fun _ => false), List.filter_false]
    intro s htopic _
    simp [htopic, heq]
  · rename_i hne
    rw [r.subscribersOf_keep (q := fun _ => true), List.filter_true]
    intro s htopic _
    simp [htopic, hne]

/-- A subscription is in the registry iff the subscriber is on the list it is on. -/
theorem key_mem_iff (s : Subscription) : s.key ∈ r.subscriptions.map Subscription.key ↔
    ((r.subscribersOf s.topic s.group).any fun info => info.id = s.id) = true := by
  rw [List.any_eq_true, List.mem_map]
  constructor
  · rintro ⟨s', hmem, hkey⟩
    obtain ⟨htopic, hgroup, hid⟩ : s'.topic = s.topic ∧ s'.group = s.group ∧ s'.id = s.id := by
      simpa [Subscription.key] using hkey
    refine ⟨s'.info, List.mem_map_of_mem (List.mem_filter.mpr ⟨hmem, ?_⟩), decide_eq_true hid⟩
    exact decide_eq_true ⟨htopic, hgroup⟩
  · rintro ⟨info, hmem, hid⟩
    obtain ⟨s', hs', rfl⟩ := List.mem_map.mp hmem
    obtain ⟨hmem, hlisted⟩ := List.mem_filter.mp hs'
    obtain ⟨htopic, hgroup⟩ := of_decide_eq_true hlisted
    have hid : s'.id = s.id := of_decide_eq_true hid
    exact ⟨s', hmem, by rw [Subscription.key, htopic, hgroup, hid, Subscription.key]⟩

/-- A new subscription comes last on its list. -/
theorem subscribersOf_subscribe (s : Subscription) (topic : TopicName) (group : Option String) :
    (r.subscribe s).1.subscribersOf topic group =
      if (r.subscribe s).2 = true ∧ topic = s.topic ∧ group = s.group then
        r.subscribersOf topic group ++ [s.info]
      else r.subscribersOf topic group := by
  rw [subscribe]
  split
  · rw [if_neg (by simp)]
    rfl
  · have hlast : [s].filter (fun s => s.topic = topic ∧ s.group = group) =
        if topic = s.topic ∧ group = s.group then [s] else [] := by
      simp only [List.filter_cons, List.filter_nil, decide_eq_true_eq, @eq_comm _ s.topic topic,
        @eq_comm _ s.group group]
    simp only [add, subscribersOf, listed, List.filter_append, List.map_append, true_and, hlast]
    split
    · rw [List.map_singleton]
    · rw [List.map_nil, List.append_nil]

theorem mem_topics_subscribe (s : Subscription) (topic : TopicName) :
    topic ∈ (r.subscribe s).1.topics ↔ topic = s.topic ∨ topic ∈ r.topics := by
  rw [subscribe]
  split <;> exact Finset.mem_insert

/-- No subscriber is twice on a list. -/
theorem nodup_id_subscribersOf (topic : TopicName) (group : Option String) :
    ((r.subscribersOf topic group).map SubscriberInfo.id).Nodup := by
  rw [subscribersOf, List.map_map]
  refine List.Nodup.map_on (fun s hs s' hs' heq => ?_) ?_
  · obtain ⟨hmem, hlisted⟩ := List.mem_filter.mp hs
    obtain ⟨hmem', hlisted'⟩ := List.mem_filter.mp hs'
    obtain ⟨htopic, hgroup⟩ := of_decide_eq_true hlisted
    obtain ⟨htopic', hgroup'⟩ := of_decide_eq_true hlisted'
    have hid : s.id = s'.id := heq
    refine List.inj_on_of_nodup_map r.nodup_key hmem hmem' ?_
    rw [Subscription.key, Subscription.key, htopic, hgroup, hid, htopic', hgroup']
  · exact r.nodup_key.of_map.filter _

end Registry

/-! ### Calls -/

/-- A call of a topic manager that may change it. -/
inductive TopicManagerOp where
  | registerTopic (topic : TopicInfo)
  | unregisterTopic (topicName : TopicName)
  | subscribe (topicName : TopicName) (subscriber : SubscriberInfo) (groupId : String)
  | unsubscribe (topicName : TopicName) (subscriberId : SubscriberId) (groupId : String)
  | unsubscribeByConnId (connId : ConnectionId)
  | selectNextMember (topicName : TopicName) (groupId : String)

/-- What a call returns. -/
inductive TopicManagerReply where
  | done (ok : Bool)
  | selected (member : SubscriberId)
deriving DecidableEq, Repr

/-- The Boolean result of a call that has one. -/
def TopicManagerReply.ok? : TopicManagerReply → Option Bool
  | .done ok => some ok
  | .selected _ => none

/-- The machine of a topic manager. -/
def topicManager : StepMachine TopicManager TopicManagerOp TopicManagerReply where
  step tm
    | .registerTopic topic => (tm.registerTopic topic).map id .done
    | .unregisterTopic topicName => (tm.unregisterTopic topicName).map id .done
    | .subscribe topicName subscriber groupId =>
      (tm.subscribe topicName subscriber groupId).map id .done
    | .unsubscribe topicName subscriberId groupId =>
      (tm.unsubscribe topicName subscriberId groupId).map id .done
    | .unsubscribeByConnId connId => (tm.unsubscribeByConnId connId).map id .done
    | .selectNextMember topicName groupId =>
      (tm.selectNextMember topicName groupId).map id .selected

/-- The same calls of a registry, with their Boolean results. -/
def registry : StepMachine Registry TopicManagerOp (Option Bool) where
  step r
    | .registerTopic topic => (r.register topic.name, some (decide (topic.name ∉ r.topics)))
    | .unregisterTopic topicName => (r.forget topicName, some true)
    | .subscribe topicName subscriber groupId =>
      (r.subscribe ⟨topicName, TopicManager.groupKey groupId, subscriber.id, subscriber.connId⟩).map
        id some
    | .unsubscribe topicName subscriberId groupId =>
      let key := (topicName, TopicManager.groupKey groupId, subscriberId)
      (r.keep fun s => s.key ≠ key, some (decide (key ∈ r.subscriptions.map Subscription.key)))
    | .unsubscribeByConnId connId =>
      (r.keep fun s => s.connId ≠ connId, some (r.subscriptions.any fun s => s.connId = connId))
    | .selectNextMember _ _ => (r, none)

/-! ### A call keeps a manager and a registry together -/

namespace TopicManager

/-- The maps of the manager hold what the registry lists, and no empty group. -/
structure Refines (tm : TopicManager) (r : Registry) : Prop where
  mem_topics : ∀ topic, topic ∈ tm.topics ↔ topic ∈ r.topics
  subscribersOf : ∀ topic group, tm.subscribersOf topic group = r.subscribersOf topic group
  grouped : ∀ topic groupId group, (tm.groupsOf topic).lookup groupId = some group →
    group.groupId = groupId ∧ group.topicName = topic ∧ group.members ≠ []

variable {tm : TopicManager} {r : Registry}

/-- Groups stay under their topics and names, and keep a member. -/
theorem Refines.grouped_of_groupsFrom (h : Refines tm r) {tm' : TopicManager}
    (hfrom : GroupsFrom tm tm') (topic : TopicName) (groupId : String) (group : ConsumerGroup)
    (hlookup : (tm'.groupsOf topic).lookup groupId = some group) :
    group.groupId = groupId ∧ group.topicName = topic ∧ group.members ≠ [] := by
  cases hfrom topic groupId group hlookup with
  | kept hold => exact h.grouped topic groupId group hold
  | created m => exact ⟨rfl, rfl, List.cons_ne_nil _ _⟩
  | @joined old hold m =>
    obtain ⟨hid, htopic, -⟩ := h.grouped topic groupId old hold
    exact ⟨hid, htopic, List.append_ne_nil_of_right_ne_nil _ (List.cons_ne_nil _ _)⟩
  | @left old members hold hne =>
    obtain ⟨hid, htopic, -⟩ := h.grouped topic groupId old hold
    exact ⟨hid, htopic, hne⟩
  | @turned old hold next => exact h.grouped topic groupId old hold

theorem Refines.registerTopic (h : Refines tm r) (topic : TopicInfo) :
    Refines (tm.registerTopic topic).1 (r.register topic.name) ∧
      (tm.registerTopic topic).2 = decide (topic.name ∉ r.topics) := by
  rw [TopicManager.registerTopic]
  split
  · rename_i hmem
    rw [h.mem_topics] at hmem
    refine ⟨⟨fun t => ?_, h.subscribersOf, h.grouped⟩, by simpa using hmem⟩
    refine (h.mem_topics t).trans ⟨Finset.mem_insert_of_mem, fun hin => ?_⟩
    exact (Finset.mem_insert.mp hin).elim (fun heq => heq ▸ hmem) id
  · rename_i hmem
    rw [h.mem_topics] at hmem
    refine ⟨⟨fun t => ?_, h.subscribersOf, h.grouped⟩, (decide_eq_true hmem).symm⟩
    rw [AList.mem_insert, h.mem_topics]
    exact Finset.mem_insert.symm

theorem Refines.unregisterTopic (h : Refines tm r) (topic : TopicName) :
    Refines (tm.unregisterTopic topic).1 (r.forget topic) := by
  refine ⟨fun t => ?_, fun t group => ?_,
    h.grouped_of_groupsFrom (groupsFrom_unregisterTopic tm topic)⟩
  · rw [TopicManager.unregisterTopic, AList.mem_erase, h.mem_topics]
    exact Finset.mem_erase.symm
  · rw [subscribersOf_unregisterTopic, r.subscribersOf_forget, h.subscribersOf]

theorem Refines.subscribe (h : Refines tm r) (topic : TopicName) (sub : SubscriberInfo)
    (groupId : String) :
    let s : Subscription := ⟨topic, groupKey groupId, sub.id, sub.connId⟩
    Refines (tm.subscribe topic sub groupId).1 (r.subscribe s).1 ∧
      (tm.subscribe topic sub groupId).2 = (r.subscribe s).2 := by
  intro s
  have hresult : (tm.subscribe topic sub groupId).2 = (r.subscribe s).2 := by
    have hkey := r.key_mem_iff s
    rw [subscribe_snd, h.subscribersOf, Registry.subscribe]
    split
    · rename_i hmem
      rw [hkey.mp hmem, Bool.not_true]
    · rename_i hmem
      rw [Bool.eq_false_iff.mpr fun hany => hmem (hkey.mpr hany), Bool.not_false]
  refine ⟨⟨fun t => ?_, fun t group => ?_,
    h.grouped_of_groupsFrom (groupsFrom_subscribe tm topic sub groupId)⟩, hresult⟩
  · rw [topics_subscribe, mem_touch, r.mem_topics_subscribe, h.mem_topics]
  · rw [subscribersOf_subscribe, r.subscribersOf_subscribe, hresult, h.subscribersOf]
    rfl

theorem Refines.unsubscribe (h : Refines tm r) (topic : TopicName) (subscriberId : SubscriberId)
    (groupId : String) :
    let key := (topic, groupKey groupId, subscriberId)
    Refines (tm.unsubscribe topic subscriberId groupId).1 (r.keep fun s => s.key ≠ key) ∧
      (tm.unsubscribe topic subscriberId groupId).2 =
        decide (key ∈ r.subscriptions.map Subscription.key) := by
  refine ⟨⟨fun t => ?_, fun t group => ?_,
    h.grouped_of_groupsFrom (groupsFrom_unsubscribe tm topic subscriberId groupId)⟩, ?_⟩
  · rw [topics_unsubscribe]
    exact h.mem_topics t
  · rw [subscribersOf_unsubscribe, h.subscribersOf]
    split
    · rename_i heq
      refine (r.subscribersOf_keep fun s htopic hgroup => ?_).symm
      refine decide_eq_decide.mpr (not_congr ?_)
      simp [Subscription.key, Subscription.info, htopic, hgroup, heq.1, heq.2]
    · rename_i hne
      rw [r.subscribersOf_keep (q := fun _ => true), List.filter_true]
      intro s htopic hgroup
      simp only [Subscription.key, htopic, hgroup, decide_eq_true_eq]
      exact fun heq => hne ⟨congrArg Prod.fst heq, congrArg (fun key => key.2.1) heq⟩
  · rw [unsubscribe_snd, h.subscribersOf, Bool.eq_iff_iff, decide_eq_true_iff]
    -- The connection does not matter for the key.
    exact (r.key_mem_iff ⟨topic, groupKey groupId, subscriberId, 0⟩).symm

theorem Refines.unsubscribeByConnId (h : Refines tm r) (connId : ConnectionId) :
    Refines (tm.unsubscribeByConnId connId).1 (r.keep fun s => s.connId ≠ connId) ∧
      (tm.unsubscribeByConnId connId).2 = r.subscriptions.any fun s => s.connId = connId := by
  refine ⟨⟨h.mem_topics, fun t group => ?_,
    h.grouped_of_groupsFrom (groupsFrom_unsubscribeByConnId tm connId)⟩, ?_⟩
  · rw [subscribersOf_unsubscribeByConnId, h.subscribersOf]
    exact (r.subscribersOf_keep fun _ _ _ => rfl).symm
  · rw [Bool.eq_iff_iff, ← holdsConn_iff, List.any_eq_true]
    simp only [HoldsConn, h.subscribersOf, Registry.subscribersOf, Registry.listed, List.mem_map,
      List.mem_filter, decide_eq_true_eq]
    constructor
    · rintro ⟨topic, group, sub, ⟨s, ⟨hmem, -⟩, rfl⟩, hconn⟩
      exact ⟨s, hmem, hconn⟩
    · rintro ⟨s, hmem, hconn⟩
      exact ⟨s.topic, s.group, s.info, ⟨s, ⟨hmem, rfl, rfl⟩, rfl⟩, hconn⟩

theorem Refines.selectNextMember (h : Refines tm r) (topic : TopicName) (groupId : String) :
    Refines (tm.selectNextMember topic groupId).1 r := by
  refine ⟨fun t => ?_, fun t group => ?_,
    h.grouped_of_groupsFrom (groupsFrom_selectNextMember tm topic groupId)⟩
  · rw [topics_selectNextMember]
    exact h.mem_topics t
  · rw [subscribersOf_selectNextMember, h.subscribersOf]

/-- **One call** of a manager is the call of the registry. -/
theorem Refines.step (h : Refines tm r) (op : TopicManagerOp) :
    Refines (topicManager.step tm op).1 (registry.step r op).1 ∧
      (topicManager.step tm op).2.ok? = (registry.step r op).2 := by
  cases op with
  | registerTopic topic =>
    exact (h.registerTopic topic).imp_right (congrArg some)
  | unregisterTopic topicName => exact ⟨h.unregisterTopic topicName, rfl⟩
  | subscribe topicName subscriber groupId =>
    exact (h.subscribe topicName subscriber groupId).imp_right (congrArg some)
  | unsubscribe topicName subscriberId groupId =>
    exact (h.unsubscribe topicName subscriberId groupId).imp_right (congrArg some)
  | unsubscribeByConnId connId =>
    exact (h.unsubscribeByConnId connId).imp_right (congrArg some)
  | selectNextMember topicName groupId => exact ⟨h.selectNextMember topicName groupId, rfl⟩

/-- **Every run.** -/
theorem refines_run (ops : List TopicManagerOp) :
    Refines (topicManager.run {} ops) (registry.run ∅ ops) ∧
      (topicManager.trace {} ops).map (fun e => e.output.ok?) =
        (registry.trace ∅ ops).map fun e => e.output := by
  have hempty : Refines {} ∅ :=
    ⟨fun topic => iff_of_false (AList.notMem_empty topic) (Finset.notMem_empty topic),
      fun topic group => by cases group <;> rfl, fun topic groupId group hlookup => nomatch hlookup⟩
  have hstep : ∀ tm r op, Refines tm r →
      Refines (topicManager.step tm op).1 (registry.step r op).1 ∧
        (topicManager.step tm op).2.ok? = id (registry.step r op).2 :=
    fun _ _ op h => h.step op
  exact topicManager.simulation hempty hstep ops

/-! ### What the queries show -/

/-- A group without whose turn it is. -/
def shown (group : ConsumerGroup) : ConsumerGroup := { group with roundRobinIndex := 0 }

/-- The queries of the manager show what the registry lists. A loop over the groups of a topic
may visit them in any order. -/
structure Shows (tm : TopicManager) (r : Registry) : Prop where
  hasTopic : ∀ topic, tm.hasTopic topic = decide (topic ∈ r.topics)
  getSubscribers : ∀ topic, tm.getSubscribers topic = r.subscribersOf topic none
  getConsumerGroup : ∀ topic groupId,
    (tm.getConsumerGroup topic groupId).map shown = r.getConsumerGroup topic groupId
  getConsumerGroups : ∀ order topic,
    ((tm.getConsumerGroups order topic).map shown).Perm (r.getConsumerGroups topic)

/-- The group that is stored is the group of the registry. -/
theorem Refines.getConsumerGroup (h : Refines tm r) (topic : TopicName) (groupId : String) :
    (tm.getConsumerGroup topic groupId).map shown = r.getConsumerGroup topic groupId := by
  have hmembers := h.subscribersOf topic (some groupId)
  rw [subscribersOf_some, Registry.subscribersOf] at hmembers
  rw [getConsumerGroup_eq, Registry.getConsumerGroup]
  rcases hlookup : (tm.groupsOf topic).lookup groupId with - | group
  · rw [hlookup] at hmembers
    have hnil : r.listed topic (some groupId) = [] := List.map_eq_nil_iff.mp hmembers.symm
    rw [hnil]
    rfl
  · obtain ⟨rfl, rfl, hne⟩ := h.grouped topic groupId group hlookup
    rw [hlookup, Option.map_some, Option.getD_some] at hmembers
    have heq : (r.listed group.topicName (some group.groupId)).map
        (fun s => (⟨s.id, s.connId⟩ : ConsumerGroupMember)) = group.members := by
      apply ConsumerGroupMember.toInfo_injective.list_map
      rw [hmembers, List.map_map]
      rfl
    rw [Option.map_some, heq, if_neg hne]
    rfl

/-- A registry has no group without a subscription in it. -/
theorem mem_getConsumerGroups_registry {topic : TopicName} {group : ConsumerGroup} :
    group ∈ r.getConsumerGroups topic ↔
      ∃ groupId, r.getConsumerGroup topic groupId = some group := by
  rw [Registry.getConsumerGroups, List.mem_filterMap]
  refine exists_congr fun groupId => and_iff_right_of_imp fun hgroup => ?_
  rw [Registry.getConsumerGroup] at hgroup
  split at hgroup
  · cases hgroup
  rename_i hne
  obtain ⟨s, hs⟩ := List.exists_mem_of_ne_nil _ fun hnil => hne (List.map_eq_nil_iff.mpr hnil)
  obtain ⟨hmem, hlisted⟩ := List.mem_filter.mp hs
  obtain ⟨htopic, hgroup⟩ := of_decide_eq_true hlisted
  rw [List.mem_dedup, List.mem_filterMap]
  exact ⟨s, List.mem_filter.mpr ⟨hmem, decide_eq_true htopic⟩, hgroup⟩

theorem Refines.keyed (h : Refines tm r) : tm.Keyed :=
  fun topic groupId group hlookup => (h.grouped topic groupId group hlookup).1

/-- The groups a loop finds are the groups of the registry. -/
theorem Refines.getConsumerGroups (h : Refines tm r) (order : VisitOrder String ConsumerGroup)
    (topic : TopicName) :
    ((tm.getConsumerGroups order topic).map shown).Perm (r.getConsumerGroups topic) := by
  refine (List.perm_ext_iff_of_nodup ?_ ?_).mpr fun group => ?_
  · have hids : ((tm.getConsumerGroups order topic).map shown).map ConsumerGroup.groupId =
        (tm.getConsumerGroups order topic).map ConsumerGroup.groupId := List.map_map
    exact List.Nodup.of_map _ (hids ▸ h.keyed.nodup_groupIds order topic)
  · refine (List.nodup_dedup _).filterMap fun groupId groupId' group hgroup hgroup' => ?_
    rw [Registry.getConsumerGroup, Option.mem_def] at hgroup hgroup'
    split at hgroup
    · cases hgroup
    split at hgroup'
    · cases hgroup'
    · rw [← Option.some.inj hgroup] at hgroup'
      exact (congrArg ConsumerGroup.groupId (Option.some.inj hgroup')).symm
  · rw [mem_getConsumerGroups_registry, List.mem_map]
    simp only [← h.getConsumerGroup, Option.map_eq_some_iff, getConsumerGroup_eq,
      h.keyed.mem_getConsumerGroups]
    constructor
    · rintro ⟨stored, hlookup, rfl⟩
      exact ⟨stored.groupId, stored, hlookup, rfl⟩
    · rintro ⟨groupId, stored, hlookup, rfl⟩
      obtain ⟨rfl, -, -⟩ := h.grouped topic groupId stored hlookup
      exact ⟨stored, hlookup, rfl⟩

theorem Refines.shows (h : Refines tm r) : Shows tm r where
  hasTopic topic := decide_eq_decide.mpr (h.mem_topics topic)
  getSubscribers topic := h.subscribersOf topic none
  getConsumerGroup := h.getConsumerGroup
  getConsumerGroups := h.getConsumerGroups

/-- **Refinement.** After any calls a topic manager shows what a registry shows after the same
calls, and the calls returned the same results. No subscriber is twice on a list, no group is
empty or stored elsewhere than under its topic and name, every topic with a subscription is
known, and closing a connection removes exactly its subscriptions. -/
theorem refines_registry (ops : List TopicManagerOp) :
    let tm := topicManager.run {} ops
    let r := registry.run ∅ ops
    Shows tm r ∧
    (topicManager.trace {} ops).map (fun e => e.output.ok?) =
      (registry.trace ∅ ops).map (fun e => e.output) ∧
    (r.subscriptions.map Subscription.key).Nodup ∧
    (∀ topic group, ((tm.subscribersOf topic group).map SubscriberInfo.id).Nodup) ∧
    (∀ topic groupId group, tm.getConsumerGroup topic groupId = some group →
      group.groupId = groupId ∧ group.topicName = topic ∧ group.members ≠ []) ∧
    (∀ order topic, ∀ group ∈ tm.getConsumerGroups order topic,
      tm.getConsumerGroup topic group.groupId = some group) ∧
    (∀ s ∈ r.subscriptions, tm.hasTopic s.topic = true) ∧
    ∀ connId, Shows (tm.unsubscribeByConnId connId).1 (r.keep fun s => s.connId ≠ connId) ∧
      ((tm.unsubscribeByConnId connId).2 = true ↔ ∃ s ∈ r.subscriptions, s.connId = connId) := by
  intro tm r
  obtain ⟨h, hresults⟩ := refines_run ops
  refine ⟨h.shows, hresults, r.nodup_key, fun topic group => ?_, fun topic groupId group hlookup => ?_,
    fun order topic group hmem => ?_, fun s hs => ?_, fun connId => ?_⟩
  · rw [h.subscribersOf]
    exact r.nodup_id_subscribersOf topic group
  · rw [getConsumerGroup_eq] at hlookup
    exact h.grouped topic groupId group hlookup
  · rw [getConsumerGroup_eq]
    exact (h.keyed.mem_getConsumerGroups order).mp hmem
  · rw [h.shows.hasTopic]
    exact decide_eq_true (r.registered s hs)
  · obtain ⟨hafter, hresult⟩ := h.unsubscribeByConnId connId
    refine ⟨hafter.shows, ?_⟩
    rw [hresult, List.any_eq_true]
    exact exists_congr fun s => and_congr_right fun _ => decide_eq_true_iff

end TopicManager

end ProtoMsgQueue
