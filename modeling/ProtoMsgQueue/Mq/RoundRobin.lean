import ProtoMsgQueue.Lib.Circular
import ProtoMsgQueue.Mq.Registry

/-!
# Round robin

`selectNextMember` takes the members of a group in turn. Its position is kept in the group and
is not adjusted when members leave, so it may lie behind the end of the member list; every use
takes it modulo the number of members, though. As long as the members stay the same, the
selections therefore read the member list as a circular memory from the position on
(`picks_eq_read`), whatever other calls come in between and wherever the position was left
(`roundRobin_fair`).
-/

namespace ProtoMsgQueue

open UnorderedMap

namespace TopicManager

/-! ### One selection -/

/-- The next member of a group is the one whose turn it is. The group's index moves on. -/
theorem selectNextMember_of_lookup {tm : TopicManager} {topic : TopicName} {groupId : String}
    {group : ConsumerGroup} {member : ConsumerGroupMember}
    (hgroup : (tm.groupsOf topic).lookup groupId = some group)
    (hmember : group.members[group.roundRobinIndex % group.members.length]? = some member) :
    (tm.selectNextMember topic groupId).2 = member.subscriberId ∧
      (tm.selectNextMember topic groupId).1.groupsOf topic =
        (tm.groupsOf topic).insert groupId { group with
          roundRobinIndex := (group.roundRobinIndex + 1) % group.members.length } := by
  rcases hgroups : tm.consumerGroups.lookup topic with - | groups
  · rw [groupsOf, valueAt, hgroups] at hgroup
    cases hgroup
  · rw [groupsOf_eq_of_lookup hgroups] at hgroup ⊢
    simp only [selectNextMember, hgroups, hgroup, hmember]
    exact ⟨trivial, groupsOf_eq_of_lookup (AList.lookup_insert _)⟩

/-! ### Other calls keep the position -/

/-- Storing one group of a topic changes no other group. -/
theorem lookup_groupsOf_insert (tm : TopicManager) (topics : UnorderedMap TopicName TopicInfo)
    (topic : TopicName) {groups : UnorderedMap String ConsumerGroup} {groupId : String}
    (hothers : ∀ g, g ≠ groupId → groups.lookup g = (tm.groupsOf topic).lookup g)
    (topic' : TopicName) (groupId' : String) :
    (TopicManager.groupsOf
        { tm with topics := topics, consumerGroups := tm.consumerGroups.insert topic groups }
        topic').lookup groupId' =
      if topic' = topic ∧ groupId' = groupId then groups.lookup groupId
      else (tm.groupsOf topic').lookup groupId' := by
  rw [groupsOf]
  rcases eq_or_ne topic' topic with rfl | hne
  · rw [valueAt_insert]
    rcases eq_or_ne groupId' groupId with rfl | hne
    · rw [if_pos ⟨rfl, rfl⟩]
    · rw [if_neg fun h => hne h.2, hothers groupId' hne]
  · rw [valueAt_insert_ne _ _ _ hne, if_neg fun h => hne h.1, groupsOf]

/-- In both managers, where the group exists its position is the same. -/
def KeepsPosition (topic : TopicName) (groupId : String) (tm tm' : TopicManager) : Prop :=
  ∀ group group', (tm.groupsOf topic).lookup groupId = some group →
    (tm'.groupsOf topic).lookup groupId = some group' →
      group'.roundRobinIndex = group.roundRobinIndex

variable {topic : TopicName} {groupId : String}

theorem KeepsPosition.of_lookup_eq {tm tm' : TopicManager}
    (h : (tm'.groupsOf topic).lookup groupId = (tm.groupsOf topic).lookup groupId) :
    KeepsPosition topic groupId tm tm' := by
  intro group group' hgroup hgroup'
  rw [h, hgroup] at hgroup'
  rw [Option.some.inj hgroup']

/-- Storing a group that takes the position of the old one. -/
theorem KeepsPosition.insert {tm : TopicManager} (topics : UnorderedMap TopicName TopicInfo)
    {topic₀ : TopicName} {groups : UnorderedMap String ConsumerGroup} {groupId₀ : String}
    (hothers : ∀ g, g ≠ groupId₀ → groups.lookup g = (tm.groupsOf topic₀).lookup g)
    (hsame : ∀ group group', (tm.groupsOf topic₀).lookup groupId₀ = some group →
      groups.lookup groupId₀ = some group' → group'.roundRobinIndex = group.roundRobinIndex) :
    KeepsPosition topic groupId tm
      { tm with topics := topics, consumerGroups := tm.consumerGroups.insert topic₀ groups } := by
  intro group group' hgroup hgroup'
  rw [lookup_groupsOf_insert tm topics topic₀ hothers] at hgroup'
  split at hgroup'
  · next heq =>
    rw [heq.1, heq.2] at hgroup
    exact hsame group group' hgroup hgroup'
  · exact KeepsPosition.of_lookup_eq rfl group group' hgroup hgroup'

theorem keepsPosition_subscribe (tm : TopicManager) (topic₀ : TopicName) (sub : SubscriberInfo)
    (groupId₀ : String) : KeepsPosition topic groupId tm (tm.subscribe topic₀ sub groupId₀).1 := by
  unfold subscribe
  dsimp only
  split
  · split <;> exact .of_lookup_eq rfl
  · rcases hjoin : joinGroup topic₀ groupId₀ sub
      ((valueAt tm.consumerGroups topic₀ ∅).lookup groupId₀) with - | joined
    · exact .of_lookup_eq (congrArg (AList.lookup groupId) (valueAt_touch _ _ _ _))
    · refine .insert _ (fun g hne => AList.lookup_insert_ne hne) fun group group' hgroup hgroup' => ?_
      rw [AList.lookup_insert] at hgroup'
      obtain rfl := Option.some.inj hgroup'
      rw [groupsOf] at hgroup
      rw [hgroup, joinGroup] at hjoin
      split at hjoin
      · cases hjoin
      · rw [← Option.some.inj hjoin]

theorem keepsPosition_unsubscribe (tm : TopicManager) (topic₀ : TopicName)
    (subscriberId : SubscriberId) (groupId₀ : String) :
    KeepsPosition topic groupId tm (tm.unsubscribe topic₀ subscriberId groupId₀).1 := by
  have hsame : KeepsPosition topic groupId tm tm := .of_lookup_eq rfl
  unfold unsubscribe
  split
  · split
    · exact hsame
    · split
      · exact .of_lookup_eq rfl
      · exact hsame
  split
  · exact hsame
  rename_i groups hlookup
  rw [← groupsOf_eq_of_lookup hlookup]
  split
  · exact hsame
  rename_i old hold
  split
  · dsimp only
    split
    · refine .insert _ (fun g hne => AList.lookup_erase_ne hne) fun group group' _ hgroup' => ?_
      rw [AList.lookup_erase] at hgroup'
      cases hgroup'
    · refine .insert _ (fun g hne => AList.lookup_insert_ne hne) fun group group' hgroup hgroup' => ?_
      rw [AList.lookup_insert] at hgroup'
      rw [hold] at hgroup
      rw [← Option.some.inj hgroup, ← Option.some.inj hgroup']
  · exact hsame

theorem keepsPosition_unsubscribeByConnId (tm : TopicManager) (connId : ConnectionId) :
    KeepsPosition topic groupId tm (tm.unsubscribeByConnId connId).1 := by
  intro group group' hgroup hgroup'
  rw [lookup_groupsOf_unsubscribeByConnId, hgroup, Option.bind_some, leaveGroup] at hgroup'
  obtain ⟨members, -, rfl⟩ := Option.map_eq_some_iff.mp hgroup'
  rfl

theorem keepsPosition_unregisterTopic (tm : TopicManager) (topic₀ : TopicName) :
    KeepsPosition topic groupId tm (tm.unregisterTopic topic₀).1 := by
  intro group group' hgroup hgroup'
  rw [unregisterTopic, groupsOf, valueAt] at hgroup'
  rcases eq_or_ne topic topic₀ with rfl | hne
  · rw [AList.lookup_erase] at hgroup'
    cases hgroup'
  · rw [AList.lookup_erase_ne hne] at hgroup'
    exact KeepsPosition.of_lookup_eq rfl group group' hgroup hgroup'

/-- A selection from another group. -/
theorem keepsPosition_selectNextMember (tm : TopicManager) {topic₀ : TopicName}
    {groupId₀ : String} (hne : ¬ (topic = topic₀ ∧ groupId = groupId₀)) :
    KeepsPosition topic groupId tm (tm.selectNextMember topic₀ groupId₀).1 := by
  unfold selectNextMember
  split
  · exact .of_lookup_eq rfl
  rename_i groups hlookup
  rw [← groupsOf_eq_of_lookup hlookup]
  split
  · exact .of_lookup_eq rfl
  rename_i old hold
  dsimp only
  split
  · exact .of_lookup_eq rfl
  · refine .of_lookup_eq ?_
    refine (lookup_groupsOf_insert tm tm.topics topic₀ (fun g hne => ?_) topic groupId).trans
      (if_neg hne)
    exact AList.lookup_insert_ne hne

/-- **Only selections from a group move its position.** -/
theorem keepsPosition_step (tm : TopicManager) {op : TopicManagerOp}
    (hop : op ≠ .selectNextMember topic groupId) :
    KeepsPosition topic groupId tm (topicManager.step tm op).1 := by
  cases op with
  | registerTopic info =>
    refine .of_lookup_eq ?_
    change ((tm.registerTopic info).1.groupsOf topic).lookup groupId = _
    unfold registerTopic
    split <;> rfl
  | unregisterTopic topic₀ => exact keepsPosition_unregisterTopic tm topic₀
  | subscribe topic₀ sub groupId₀ => exact keepsPosition_subscribe tm topic₀ sub groupId₀
  | unsubscribe topic₀ id groupId₀ => exact keepsPosition_unsubscribe tm topic₀ id groupId₀
  | unsubscribeByConnId connId => exact keepsPosition_unsubscribeByConnId tm connId
  | selectNextMember topic₀ groupId₀ =>
    refine keepsPosition_selectNextMember tm fun heq => hop ?_
    rw [heq.1, heq.2]

/-! ### Selections while the members stay the same -/

/-- The members selected from a group in the steps of a run, in order. -/
def picks (topic : TopicName) (groupId : String)
    (trace : List (StepMachine.Event TopicManager TopicManagerOp TopicManagerReply)) :
    List SubscriberId :=
  trace.filterMap fun e =>
    match e.input, e.output with
    | .selectNextMember topic' groupId', .selected member =>
      if topic' = topic ∧ groupId' = groupId then some member else none
    | _, _ => none

theorem picks_cons_of_ne {op : TopicManagerOp} (hop : op ≠ .selectNextMember topic groupId)
    (tm : TopicManager)
    (trace : List (StepMachine.Event TopicManager TopicManagerOp TopicManagerReply)) :
    picks topic groupId (topicManager.event tm op :: trace) = picks topic groupId trace := by
  refine List.filterMap_cons_none ?_
  cases op with
  | selectNextMember topic₀ groupId₀ =>
    refine if_neg fun heq => hop ?_
    rw [heq.1, heq.2]
  | _ => rfl

theorem picks_cons_selectNextMember (tm : TopicManager)
    (trace : List (StepMachine.Event TopicManager TopicManagerOp TopicManagerReply)) :
    picks topic groupId (topicManager.event tm (.selectNextMember topic groupId) :: trace) =
      (tm.selectNextMember topic groupId).2 :: picks topic groupId trace :=
  List.filterMap_cons_some (if_pos ⟨rfl, rfl⟩)

/-- A group with members is stored. -/
theorem exists_lookup_of_subscribersOf {tm : TopicManager} {members : List SubscriberInfo}
    (hne : members ≠ []) (h : tm.subscribersOf topic (some groupId) = members) :
    ∃ group, (tm.groupsOf topic).lookup groupId = some group ∧
      group.members.map ConsumerGroupMember.toInfo = members := by
  rw [subscribersOf_some] at h
  rcases hgroup : (tm.groupsOf topic).lookup groupId with - | group
  · rw [hgroup] at h
    exact absurd h.symm hne
  · rw [hgroup] at h
    exact ⟨group, rfl, h⟩

/-- One selection reads the cell at the position and moves the position on. -/
theorem selectNextMember_eq_cell {tm : TopicManager} {group : ConsumerGroup}
    {members : List SubscriberInfo} (hne : members ≠ [])
    (hgroup : (tm.groupsOf topic).lookup groupId = some group)
    (hmembers : group.members.map ConsumerGroupMember.toInfo = members) :
    (tm.selectNextMember topic groupId).2 =
        Circular.cell (members.map SubscriberInfo.id) group.roundRobinIndex ∧
      ∀ group', ((tm.selectNextMember topic groupId).1.groupsOf topic).lookup groupId =
        some group' → group'.roundRobinIndex =
          (group.roundRobinIndex + 1) % (members.map SubscriberInfo.id).length := by
  have hlen : (members.map SubscriberInfo.id).length = group.members.length := by
    rw [← hmembers, List.length_map, List.length_map]
  have hidx : group.roundRobinIndex % group.members.length < group.members.length := by
    refine Nat.mod_lt _ ?_
    rw [← hlen, List.length_map]
    exact List.length_pos_of_ne_nil hne
  obtain ⟨hselected, hinsert⟩ :=
    selectNextMember_of_lookup hgroup (List.getElem?_eq_getElem hidx)
  constructor
  · rw [hselected, Circular.cell, hlen, List.getD_eq_getElem _ _ (by rw [hlen]; exact hidx)]
    simp only [← hmembers, List.getElem_map, ConsumerGroupMember.toInfo]
  · intro group' hgroup'
    rw [hinsert, AList.lookup_insert] at hgroup'
    rw [← Option.some.inj hgroup', hlen]

/-- As long as the members stay the same, the selections read the list of their identifiers
round and round, from the position of the group on. -/
theorem picks_eq_read {members : List SubscriberInfo} (hne : members ≠ [])
    {later : List TopicManagerOp} {tm : TopicManager} {group : ConsumerGroup}
    (hgroup : (tm.groupsOf topic).lookup groupId = some group)
    (hsame : ∀ before, before <+: later →
      (topicManager.run tm before).subscribersOf topic (some groupId) = members) :
    picks topic groupId (topicManager.trace tm later) =
      Circular.read (members.map SubscriberInfo.id) group.roundRobinIndex
        (picks topic groupId (topicManager.trace tm later)).length := by
  induction later generalizing tm group with
  | nil => rfl
  | cons op later ih =>
    have hlater : ∀ before, before <+: later → (topicManager.run (topicManager.step tm op).1
        before).subscribersOf topic (some groupId) = members := fun before hbefore =>
      hsame (op :: before) ((List.prefix_cons_inj op).mpr hbefore)
    have hafter : (topicManager.step tm op).1.subscribersOf topic (some groupId) = members :=
      hlater [] List.nil_prefix
    obtain ⟨group', hgroup', -⟩ := exists_lookup_of_subscribersOf hne hafter
    have hrest := ih hgroup' hlater
    rw [StepMachine.trace_cons]
    by_cases hop : op = .selectNextMember topic groupId
    · subst hop
      have hnow : tm.subscribersOf topic (some groupId) = members := hsame [] List.nil_prefix
      obtain ⟨stored, hstored, hmembers⟩ := exists_lookup_of_subscribersOf hne hnow
      obtain rfl := Option.some.inj (hgroup.symm.trans hstored)
      obtain ⟨hselected, hposition⟩ := selectNextMember_eq_cell hne hgroup hmembers
      rw [hposition group' hgroup', Circular.read_mod] at hrest
      rw [picks_cons_selectNextMember, List.length_cons, Circular.read_succ, hselected, ← hrest]
    · rw [keepsPosition_step tm hop group group' hgroup hgroup'] at hrest
      rw [picks_cons_of_ne hop, ← hrest]

/-- **Round-robin fairness.** Take any state of a topic manager and a group with members in it,
and let any calls follow that leave the members of the group as they are. The members selected
from the group come in the cyclic order in which they joined, beginning with any of them; no
member is selected more than once oftener than another; and of as many selections in a row as
there are members, each member is one. -/
theorem roundRobin_fair (ops later : List TopicManagerOp) (topic : TopicName) (groupId : String)
    (hne : (registry.run ∅ ops).subscribersOf topic (some groupId) ≠ [])
    (hsame : ∀ before, before <+: later →
      (topicManager.run {} (ops ++ before)).subscribersOf topic (some groupId) =
        (registry.run ∅ ops).subscribersOf topic (some groupId)) :
    let ids := ((registry.run ∅ ops).subscribersOf topic (some groupId)).map SubscriberInfo.id
    let selected := picks topic groupId (topicManager.trace (topicManager.run {} ops) later)
    (∃ start, ∀ i < selected.length, selected[i]? = ids[(start + i) % ids.length]?) ∧
    (∀ a ∈ ids, ∀ b ∈ ids, selected.count a ≤ selected.count b + 1) ∧
    ∀ i, i + ids.length ≤ selected.length →
      ∀ a ∈ ids, ((selected.drop i).take ids.length).count a = 1 := by
  intro ids selected
  have hlater : ∀ before, before <+: later →
      (topicManager.run (topicManager.run {} ops) before).subscribersOf topic (some groupId) =
        (registry.run ∅ ops).subscribersOf topic (some groupId) := by
    intro before hbefore
    rw [← StepMachine.run_append]
    exact hsame before hbefore
  have hnodup : ids.Nodup := (registry.run ∅ ops).nodup_id_subscribersOf topic (some groupId)
  obtain ⟨group, hgroup, -⟩ := exists_lookup_of_subscribersOf hne (hlater [] List.nil_prefix)
  have hread : selected = Circular.read ids group.roundRobinIndex selected.length :=
    picks_eq_read hne hgroup hlater
  generalize selected.length = k at hread ⊢
  rw [hread]
  refine ⟨⟨group.roundRobinIndex, fun i hi => ?_⟩, fun a ha b hb => ?_, fun i hi a ha => ?_⟩
  · have hids : ids ≠ [] := fun hnil => hne (List.map_eq_nil_iff.mp hnil)
    rw [Circular.getElem?_read hi, Circular.getElem?_mod hids]
  · have hcounta := Circular.div_le_count_read hnodup ha group.roundRobinIndex k
    have hcountb := Circular.div_le_count_read hnodup hb group.roundRobinIndex k
    omega
  · rw [Circular.read_drop _ _ (by omega), Circular.read_take _ _ (by omega),
      (Circular.read_length_perm _ _).count_eq, List.count_eq_one_of_mem hnodup ha]

/-- The position was left behind the end when the third of three members left; between the
selections another topic is subscribed to. The two members left take turns. -/
theorem roundRobin_fair_stale :
    let ops : List TopicManagerOp := [.subscribe "t" ⟨"a", 1⟩ "g", .subscribe "t" ⟨"b", 2⟩ "g",
      .subscribe "t" ⟨"c", 3⟩ "g", .selectNextMember "t" "g", .selectNextMember "t" "g",
      .unsubscribe "t" "c" "g"]
    let later : List TopicManagerOp := [.selectNextMember "t" "g", .subscribe "u" ⟨"a", 1⟩ "g",
      .selectNextMember "t" "g", .selectNextMember "t" "g"]
    let selected := picks "t" "g" (topicManager.trace (topicManager.run {} ops) later)
    selected.count "a" ≤ selected.count "b" + 1 := by
  intro ops later selected
  have hsame : ∀ before ∈ later.inits,
      (topicManager.run {} (ops ++ before)).subscribersOf "t" (some "g") =
        (registry.run ∅ ops).subscribersOf "t" (some "g") := by decide
  exact (roundRobin_fair ops later "t" "g" (by decide) fun before hbefore =>
    hsame before ((List.mem_inits _ _).mpr hbefore)).2.1 "a" (by decide) "b" (by decide)

end TopicManager

end ProtoMsgQueue
