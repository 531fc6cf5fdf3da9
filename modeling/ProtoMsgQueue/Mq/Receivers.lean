import ProtoMsgQueue.Mq.GroupFrames
import ProtoMsgQueue.Mq.RoundRobin

/-!
# Who is sent a push

`selectMembers` asks the topic manager for the next member of one group after the other. The
groups of a topic have different names, so the answers depend only on the state in which the
handler begins: `selectedMembers_eq` says that they are the members whose turn it is then. The
lemmas about all pushes of a request reduce them to the receivers that the state before the
request has.
-/

namespace ProtoMsgQueue

open UnorderedMap TopicManager

/-! ### Turns -/

/-- The connection of the member whose turn it is; none without a name or a connection. -/
def ConsumerGroup.target (group : ConsumerGroup) : Option ConnectionId :=
  match group.members[group.roundRobinIndex % group.members.length]? with
  | none => none
  | some member =>
    let connId := Broker.memberConnId group.members member.subscriberId
    if member.subscriberId = "" || connId = 0 then none else some connId

namespace Broker

variable {α : Type*}

/-- **Selection.** Each group gets the message at the member whose turn it was before. -/
theorem selectMembers_eq {topic : TopicName} {groups : List ConsumerGroup} {tm : TopicManager}
    (hnodup : (groups.map ConsumerGroup.groupId).Nodup)
    (hgroups : ∀ group ∈ groups, (tm.groupsOf topic).lookup group.groupId = some group) :
    selectMembers topic groups tm =
      groups.filterMap fun group => group.target.map fun connId => (group.groupId, connId) := by
  induction groups generalizing tm with
  | nil => rfl
  | cons group groups ih =>
    rw [List.map_cons, List.nodup_cons] at hnodup
    have hgroup := hgroups group List.mem_cons_self
    have hrest := fun g hg => hgroups g (List.mem_cons_of_mem group hg)
    rw [selectMembers]
    split
    · -- nobody to select
      rename_i hempty
      have htarget : group.target = none := by
        rw [ConsumerGroup.target, hempty]
        rfl
      rw [List.filterMap_cons_none (by rw [htarget]; rfl)]
      exact ih hnodup.2 hrest
    · rename_i hne
      have hidx : group.roundRobinIndex % group.members.length < group.members.length :=
        Nat.mod_lt _ (List.length_pos_of_ne_nil hne)
      obtain ⟨hselected, hinsert⟩ := selectNextMember_of_lookup hgroup
        (List.getElem?_eq_getElem hidx)
      -- the other groups are as before
      have hothers : ∀ g ∈ groups,
          ((tm.selectNextMember topic group.groupId).1.groupsOf topic).lookup g.groupId =
            some g := by
        intro g hg
        have hother : g.groupId ≠ group.groupId := fun heq =>
          hnodup.1 (heq ▸ List.mem_map_of_mem hg)
        rw [hinsert, AList.lookup_insert_ne hother]
        exact hrest g hg
      have hafter := ih hnodup.2 hothers
      have htarget : group.target =
          if (tm.selectNextMember topic group.groupId).2 = "" ||
            memberConnId group.members (tm.selectNextMember topic group.groupId).2 = 0 then none
          else some (memberConnId group.members
            (tm.selectNextMember topic group.groupId).2) := by
        rw [ConsumerGroup.target, List.getElem?_eq_getElem hidx, hselected]
      dsimp only
      rw [hafter]
      split
      · rename_i hnone
        rw [if_pos hnone] at htarget
        rw [List.filterMap_cons_none (by rw [htarget]; rfl)]
      · rename_i hsome
        rw [if_neg hsome] at htarget
        rw [List.filterMap_cons_some (by rw [htarget]; rfl)]

/-- The members selected for a topic are those whose turn it is. -/
theorem selectedMembers_eq {tm : TopicManager} (hkeyed : tm.Keyed) (topic : TopicName)
    (env : HandlerEnv) : selectedMembers topic env tm =
      (tm.getConsumerGroups env.groupOrder topic).filterMap fun group =>
        group.target.map fun connId => (group.groupId, connId) :=
  selectMembers_eq (hkeyed.nodup_groupIds env.groupOrder topic) fun _ hgroup =>
    (hkeyed.mem_getConsumerGroups env.groupOrder).mp hgroup

/-! ### The pushes of a publish request -/

/-- The clock readings in the pushes of a publish request: one for all broadcast subscribers, and
one for each group with a member to send to. -/
def pushTimes (tm : TopicManager) (topic : TopicName) (env : HandlerEnv) : List UInt64 :=
  (if tm.getSubscribers topic = [] then [] else [env.pushNowMs 0]) ++
    ((tm.getConsumerGroups env.groupOrder topic).filterMap ConsumerGroup.target).mapIdx
      fun n _ => env.pushNowMs (n + 1)

/-- The pushes of a publish request differ in these readings only. -/
theorem forall_mem_publishPushes {tm : TopicManager} (hkeyed : tm.Keyed) (req : PublishRequest)
    (payload : Payload) (compressed : Bool) (msgId : MessageId) (env : HandlerEnv)
    (P : OutFrame → Prop) :
    (∀ f ∈ publishPushes req payload compressed msgId env tm, P f.sent.frame) ↔
      ∀ nowMs ∈ pushTimes tm req.topic env,
        P (.push ⟨msgId, req.topic, payload, nowMs.toNat, 0, compressed⟩) := by
  have hlength : ((tm.getConsumerGroups env.groupOrder req.topic).filterMap
      ConsumerGroup.target).length = (selectedMembers req.topic env tm).length := by
    rw [selectedMembers_eq hkeyed, ← List.length_map Prod.snd, List.map_filterMap]
    refine congrArg (fun f => (List.filterMap f _).length) (funext fun group => ?_)
    rw [Option.map_map]
    exact (Option.map_id').symm
  simp only [publishPushes, pushTimes, List.forall_mem_append, List.forall_mem_map]
  refine and_congr ?_ ?_
  · cases tm.getSubscribers req.topic with
    | nil => simp
    | cons sub subs => exact ⟨fun h => by simpa using h sub List.mem_cons_self,
        fun h sub' _ => by simpa using h⟩
  · simp only [List.mem_mapIdx, forall_exists_index, hlength]
    constructor
    · rintro h _ n hn rfl
      exact h _ n hn rfl
    · rintro h _ n hn rfl
      exact h _ n hn rfl

/-! ### The pushes of a batch -/

/-- Is there somebody to send the messages of a topic to? -/
def HasReceiver (tm : TopicManager) (topic : TopicName) (env : HandlerEnv) : Prop :=
  tm.getSubscribers topic ≠ [] ∨
    (tm.getConsumerGroups env.groupOrder topic).filterMap ConsumerGroup.target ≠ []

instance (tm : TopicManager) (topic : TopicName) (env : HandlerEnv) :
    Decidable (HasReceiver tm topic env) := by
  unfold HasReceiver
  infer_instance

/-- All receivers of a topic are sent the same frames. -/
theorem forall_mem_topicPushes {tm : TopicManager} (hkeyed : tm.Keyed) (batchPush : Bool)
    (env : HandlerEnv) (topic : TopicName) (msgs : List StoredMessage) (P : OutFrame → Prop) :
    (∀ f ∈ topicPushes batchPush env topic msgs tm, P f.sent.frame) ↔
      (HasReceiver tm topic env →
        ∀ frame ∈ topicFrames (batchPush && 1 < msgs.length) topic msgs, P frame) := by
  have hreceiver : HasReceiver tm topic env ↔
      (tm.getSubscribers topic).map (fun sub => ((none : Option String), sub.connId)) ++
        (selectedMembers topic env tm).map (fun p => (some p.1, p.2)) ≠ [] := by
    rw [HasReceiver, selectedMembers_eq hkeyed, ne_eq (_ ++ _), List.append_eq_nil_iff,
      not_and_or, List.map_eq_nil_iff, List.map_eq_nil_iff]
    refine or_congr_right (not_congr ?_)
    simp only [List.filterMap_eq_nil_iff, Option.map_eq_none_iff]
  rw [hreceiver, topicPushes]
  simp only [List.forall_mem_flatMap, List.forall_mem_map]
  constructor
  · intro h hne
    obtain ⟨p, hp⟩ := List.exists_mem_of_ne_nil _ hne
    exact h p hp
  · exact fun h p hp => h (List.ne_nil_of_mem hp)

/-- Sending for one topic takes no receiver from another. -/
theorem hasReceiver_selectTargets {topic topic' : TopicName} (hne : topic' ≠ topic)
    (env : HandlerEnv) (tm : TopicManager) :
    HasReceiver (selectTargets topic (tm.getConsumerGroups env.groupOrder topic) tm).1 topic' env ↔
      HasReceiver tm topic' env := by
  have hselects := selects_selectTargets topic (tm.getConsumerGroups env.groupOrder topic) tm
  have hsubs := hselects.subscribersOf_eq topic' none
  rw [subscribersOf, subscribersOf] at hsubs
  rw [HasReceiver, HasReceiver, hsubs, getConsumerGroups_selectTargets hne]

/-- The frames of a batch are those of the topics with receivers before the batch. -/
theorem forall_mem_topicsPushes (batchPush : Bool) (env : HandlerEnv)
    (topicMessages : UnorderedMap TopicName (List StoredMessage)) {topics : List TopicName}
    (hnodup : topics.Nodup) {tm : TopicManager} (hkeyed : tm.Keyed) (P : OutFrame → Prop) :
    (∀ f ∈ topicsPushes batchPush env topicMessages topics tm, P f.sent.frame) ↔
      ∀ topic ∈ topics, HasReceiver tm topic env →
        ∀ frame ∈ topicFrames (batchPush && 1 < (valueAt topicMessages topic []).length) topic
          (valueAt topicMessages topic []), P frame := by
  induction topics generalizing tm with
  | nil => simp [topicsPushes]
  | cons topic topics ih =>
    rw [List.nodup_cons] at hnodup
    have hselects := selects_selectTargets topic (tm.getConsumerGroups env.groupOrder topic) tm
    rw [topicsPushes, List.forall_mem_append, forall_mem_topicPushes hkeyed,
      ih hnodup.2 (hkeyed.selects hselects), List.forall_mem_cons]
    refine and_congr_right fun _ => forall₂_congr fun topic' htopic' => ?_
    have hne : topic' ≠ topic := fun heq => hnodup.1 (heq ▸ htopic')
    rw [hasReceiver_selectTargets hne]

end Broker

end ProtoMsgQueue
