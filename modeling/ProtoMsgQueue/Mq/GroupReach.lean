import ProtoMsgQueue.Mq.Receivers
import ProtoMsgQueue.Mq.Sessions

/-!
# Which groups a message reaches

`SelectNextMember` answers with the name of a member, and with the empty text if there is
none. `HandleSubscribe` accepts an empty name, though, so a member without a name is taken for
no member when its turn comes, and its group is passed over. `publish_reaches_iff` says that
this is the only way in which a group misses a message: connections have identifiers other
than zero, and the name of a member is found again in the group it was selected from, because
no two members of a group share one.
-/

namespace ProtoMsgQueue

open UnorderedMap TopicManager

/-- The member whose turn it is has a name. -/
def ConsumerGroup.TurnNamed (group : ConsumerGroup) : Prop :=
  match group.members[group.roundRobinIndex % group.members.length]? with
  | none => True
  | some member => member.subscriberId ≠ ""

instance (group : ConsumerGroup) : Decidable group.TurnNamed := by
  unfold ConsumerGroup.TurnNamed
  split <;> infer_instance

/-- All subscriptions are on connections a server has accepted. -/
def TopicManager.OnConnections (tm : TopicManager) : Prop :=
  ∀ topic group, ∀ sub ∈ tm.subscribersOf topic group, sub.connId ≠ 0

namespace Broker

variable {α : Type*}

/-- The connections that are sent a push, in order. -/
def pushTargets (sent : List Sent) : List ConnectionId :=
  sent.filterMap fun s =>
    match s.frame with
    | .push _ => some s.connId
    | _ => none

/-! ### Groups that are passed over -/

/-- A group on connections has somebody to send to iff it has members and the one whose turn
it is has a name; it is sent to one of its members. -/
theorem target_cases {group : ConsumerGroup} (hconn : ∀ m ∈ group.members, m.connId ≠ 0) :
    (group.members = [] ∧ group.target = none ∧ group.TurnNamed) ∨
    (group.members ≠ [] ∧ group.target = none ∧ ¬ group.TurnNamed) ∨
    ∃ member ∈ group.members, group.target = some member.connId ∧ group.TurnNamed := by
  unfold ConsumerGroup.target ConsumerGroup.TurnNamed
  rcases hnil : group.members with - | ⟨first, others⟩
  · exact .inl ⟨rfl, rfl, trivial⟩
  rw [← hnil]
  have hidx : group.roundRobinIndex % group.members.length < group.members.length :=
    Nat.mod_lt _ (List.length_pos_of_ne_nil (hnil ▸ List.cons_ne_nil _ _))
  have hmem := List.getElem_mem hidx
  simp only [List.getElem?_eq_getElem hidx]
  generalize group.members[group.roundRobinIndex % group.members.length] = turn at hmem
  obtain ⟨member, hmember, hfound⟩ := exists_mem_of_memberConnId hmem
  rw [hfound]
  by_cases hname : turn.subscriberId = ""
  · refine .inr (.inl ⟨hnil ▸ List.cons_ne_nil _ _, ?_, not_not_intro hname⟩)
    rw [hname]
    rfl
  · refine .inr (.inr ⟨member, hmember, ?_, hname⟩)
    simp [hname, hconn member hmember]

/-- No more groups are sent to than have members. -/
theorem length_filterMap_target_le (groups : List ConsumerGroup) :
    (groups.filterMap ConsumerGroup.target).length ≤
      (groups.filter fun group => group.members ≠ []).length := by
  induction groups with
  | nil => exact le_rfl
  | cons group groups ih =>
    by_cases hnil : group.members = []
    · have htarget : group.target = none := by
        rw [ConsumerGroup.target, hnil]
        rfl
      rw [List.filter_cons_of_neg (by simpa using hnil), List.filterMap_cons_none htarget]
      exact ih
    · rw [List.filter_cons_of_pos (by simpa using hnil), List.filterMap_cons, List.length_cons]
      split
      · exact Nat.le_succ_of_le ih
      · exact Nat.succ_le_succ ih

/-- One member of each group with members is sent to iff in every group the member whose turn it
is has a name. -/
theorem exists_chosen_iff {groups : List ConsumerGroup}
    (hconn : ∀ group ∈ groups, ∀ m ∈ group.members, m.connId ≠ 0) :
    (∃ chosen : List ConsumerGroupMember,
      List.Forall₂ (fun group member => member ∈ group.members)
        (groups.filter fun group => group.members ≠ []) chosen ∧
      groups.filterMap ConsumerGroup.target = chosen.map ConsumerGroupMember.connId) ↔
    ∀ group ∈ groups, group.TurnNamed := by
  induction groups with
  | nil => exact iff_of_true ⟨[], .nil, rfl⟩ (by simp)
  | cons group groups ih =>
    obtain ⟨hgroup, hgroups⟩ := List.forall_mem_cons.mp hconn
    have hrest := ih hgroups
    rw [List.forall_mem_cons]
    rcases target_cases hgroup with ⟨hnil, htarget, hnamed⟩ | ⟨hne, htarget, hunnamed⟩ |
      ⟨member, hmember, htarget, hnamed⟩
    · rw [List.filter_cons_of_neg (by simpa using hnil), List.filterMap_cons_none htarget, hrest]
      exact (and_iff_right hnamed).symm
    · -- one connection is missing
      refine iff_of_false ?_ fun h => hunnamed h.1
      rintro ⟨chosen, hchosen, heq⟩
      have hlength := hchosen.length_eq
      rw [List.filter_cons_of_pos (by simpa using hne), List.length_cons] at hlength
      have htargets := congrArg List.length heq
      rw [List.filterMap_cons_none htarget, List.length_map] at htargets
      have hle := length_filterMap_target_le groups
      omega
    · have hne : group.members ≠ [] := List.ne_nil_of_mem hmember
      rw [List.filter_cons_of_pos (by simpa using hne), List.filterMap_cons_some htarget,
        ← hrest]
      constructor
      · rintro ⟨chosen, hchosen, heq⟩
        obtain ⟨first, others, -, hothers, rfl⟩ := List.forall₂_cons_left_iff.mp hchosen
        rw [List.map_cons, List.cons.injEq] at heq
        exact ⟨hnamed, others, hothers, heq.2⟩
      · rintro ⟨-, chosen, hchosen, heq⟩
        exact ⟨member :: chosen, hchosen.cons hmember, congrArg (List.cons _) heq⟩

/-! ### The pushes of a publish request -/

theorem pushTargets_append (sent sent' : List Sent) :
    pushTargets (sent ++ sent') = pushTargets sent ++ pushTargets sent' :=
  List.filterMap_append

/-- Where all frames are pushes, these are all connections. -/
theorem pushTargets_of_forall_push {sent : List Sent}
    (h : ∀ s ∈ sent, ∃ msg, s.frame = .push msg) : pushTargets sent = sent.map Sent.connId := by
  induction sent with
  | nil => rfl
  | cons s sent ih =>
    obtain ⟨⟨msg, hmsg⟩, hrest⟩ := List.forall_mem_cons.mp h
    rw [pushTargets, List.filterMap_cons_some (by rw [hmsg]), List.map_cons, ← ih hrest]
    rfl

/-- A stored request is pushed to the subscribers and to the groups that have somebody to send
to. -/
theorem pushTargets_publishPushes {tm : TopicManager} (hkeyed : tm.Keyed) (req : PublishRequest)
    (payload : Payload) (compressed : Bool) (msgId : MessageId) (env : HandlerEnv) :
    pushTargets ((publishPushes req payload compressed msgId env tm).map TaggedSent.sent) =
      (tm.getSubscribers req.topic).map SubscriberInfo.connId ++
        (tm.getConsumerGroups env.groupOrder req.topic).filterMap ConsumerGroup.target := by
  have hpush : ∀ s ∈ (publishPushes req payload compressed msgId env tm).map TaggedSent.sent,
      ∃ msg, s.frame = .push msg := by
    rw [List.forall_mem_map]
    refine (forall_mem_publishPushes hkeyed req payload compressed msgId env
      fun frame => ∃ msg, frame = .push msg).mpr fun nowMs _ => ⟨_, rfl⟩
  have hmembers : (tm.getConsumerGroups env.groupOrder req.topic).filterMap
      ConsumerGroup.target = (selectedMembers req.topic env tm).map Prod.snd := by
    rw [selectedMembers_eq hkeyed, List.map_filterMap]
    refine congrArg (fun f => List.filterMap f _) (funext fun group => ?_)
    rw [Option.map_map]
    exact Option.map_id'.symm
  rw [pushTargets_of_forall_push hpush, hmembers, publishPushes, List.map_append, List.map_append,
    List.map_map, List.map_map, List.map_map]
  refine congrArg (List.append _) (List.ext_getElem? fun n => ?_)
  simp only [List.getElem?_map, List.getElem?_mapIdx, Option.map_map]
  rfl

variable [TokenCount α] (lib : Libraries)

/-- A publish request that is stored stores one message of its own. -/
theorem stored_eq_of_mem_handlePublish {b : Broker α} {connId : ConnectionId}
    {req : PublishRequest} {env : HandlerEnv} {r : StoredRequest}
    (h : r ∈ (b.handlePublish lib connId (some req) env).2.stored) :
    r.req = req ∧ (b.handlePublish lib connId (some req) env).2.stored = [r] := by
  rcases handlePublish_cases lib b connId (some req) env with ⟨-, hnone, -⟩ | ⟨_, -, -, -, hnone⟩ |
    ⟨req', msgId, hparsed, -, -, -, hone⟩
  · rw [hnone] at h
    cases h
  · rw [hnone] at h
    cases h
  · rw [hone, List.mem_singleton] at h
    subst h
    exact ⟨(Option.some.inj hparsed).symm, hone⟩

/-- The connections a stored publish request is pushed to. -/
theorem pushTargets_handlePublish {b : Broker α} (hkeyed : b.topicManager.Keyed)
    {connId : ConnectionId} {req : PublishRequest} {env : HandlerEnv} {r : StoredRequest}
    (h : r ∈ (b.handlePublish lib connId (some req) env).2.stored) :
    pushTargets (b.handlePublish lib connId (some req) env).2.sent =
      (b.topicManager.getSubscribers req.topic).map SubscriberInfo.connId ++
        (b.topicManager.getConsumerGroups env.groupOrder req.topic).filterMap
          ConsumerGroup.target := by
  obtain ⟨rfl, hone⟩ := stored_eq_of_mem_handlePublish lib h
  obtain ⟨resp, -, hsent⟩ := b.sent_handlePublish lib connId (some r.req) env
  rw [hsent, hone, List.flatMap_singleton, pushTargets_append, pushTargets_publishPushes hkeyed]
  exact List.append_nil _

/-- A publish request reaches its receivers iff in every group the member whose turn it is has
a name. -/
theorem isReceivers_pushTargets_iff {b : Broker α} (hkeyed : b.topicManager.Keyed)
    (hconn : b.topicManager.OnConnections) {connId : ConnectionId} {req : PublishRequest}
    {env : HandlerEnv} {r : StoredRequest}
    (h : r ∈ (b.handlePublish lib connId (some req) env).2.stored) :
    IsReceivers b.topicManager env.groupOrder req.topic
        (pushTargets (b.handlePublish lib connId (some req) env).2.sent) ↔
      ∀ group ∈ b.topicManager.getConsumerGroups env.groupOrder req.topic, group.TurnNamed := by
  have hmembers : ∀ group ∈ b.topicManager.getConsumerGroups env.groupOrder req.topic,
      ∀ m ∈ group.members, m.connId ≠ 0 := by
    intro group hgroup m hm
    refine hconn req.topic (some group.groupId) m.toInfo ?_
    rw [subscribersOf_some, (hkeyed.mem_getConsumerGroups env.groupOrder).mp hgroup]
    exact List.mem_map_of_mem hm
  rw [← exists_chosen_iff hmembers, IsReceivers, pushTargets_handlePublish lib hkeyed h]
  simp only [List.append_cancel_left_eq]

/-- A frame on a connection leaves all subscriptions on connections. -/
theorem onConnections_onFrameReceived {b : Broker α} (h : b.topicManager.OnConnections)
    {connId : ConnectionId} (hconn : connId ≠ 0) (frame : Frame) (env : HandlerEnv) :
    (b.onFrameReceived lib connId frame env).1.topicManager.OnConnections := by
  have hstep : (b.onFrameReceived lib connId frame env).1 =
      ((broker α lib).step b (.frame connId frame env)).1 := rfl
  rw [hstep]
  rcases b.topicManager_step lib (.frame connId frame env) with hcall | ⟨_, req, ⟨_, _, hop, -⟩, heq⟩
  · exact fun topic group sub hsub => h topic group sub (hcall.subscribersOf_subset topic group hsub)
  · cases hop
    intro topic group sub hsub
    rw [heq, subscribersOf_subscribe] at hsub
    split at hsub
    · rcases List.mem_append.mp hsub with hold | hnew
      · exact h topic group sub hold
      · rw [List.mem_singleton.mp hnew]
        exact hconn
    · exact h topic group sub hsub

end Broker

/-! ### Connections are numbered from one -/

namespace Sessions

variable {α : Type*} [TokenCount α] (lib : Libraries)

/-- No connection has the number zero, and no subscription is on it. -/
structure Numbered (st : Sessions α) : Prop where
  nextConnId_ne : st.nextConnId ≠ 0
  not_mem_connections : 0 ∉ st.connections
  reading_ne : st.reading ≠ some 0
  keyed : st.broker.topicManager.Keyed
  onConnections : st.broker.topicManager.OnConnections

omit [TokenCount α] in
theorem Numbered.mem_ne {st : Sessions α} (h : st.Numbered) {connId : ConnectionId}
    (hmem : connId ∈ st.connections) : connId ≠ 0 := by
  rintro rfl
  exact h.not_mem_connections hmem

/-- **Step.** -/
theorem numbered_step {st : Sessions α} (h : st.Numbered) (op : SessionOp) :
    ((sessions α lib).step st op).1.Numbered := by
  have herase : ∀ connId, (0 : ConnectionId) ∉ st.connections.erase connId := fun connId hmem =>
    h.not_mem_connections (AList.mem_erase.mp hmem).2
  cases op with
  | accept nowMs =>
    refine ⟨Nat.succ_ne_zero _, ?_, h.reading_ne, h.keyed, h.onConnections⟩
    simpa [sessions, accept, AList.mem_insert] using ⟨h.nextConnId_ne.symm, h.not_mem_connections⟩
  | onRead connId nowMs =>
    simp only [sessions, onRead]
    split
    · rename_i hread
      have hne := h.mem_ne hread.2
      refine ⟨h.nextConnId_ne, ?_, ?_, h.keyed, h.onConnections⟩
      · simpa [AList.mem_insert] using ⟨hne.symm, h.not_mem_connections⟩
      · simpa using hne
    · exact h
  | frame frame env =>
    simp only [sessions, handleFrame]
    split
    · exact h
    · rename_i connId hreading
      have hne : connId ≠ 0 := by
        rintro rfl
        exact h.reading_ne hreading
      exact ⟨h.nextConnId_ne, h.not_mem_connections, h.reading_ne,
        Broker.keyed_step lib h.keyed (.frame connId frame env),
        Broker.onConnections_onFrameReceived lib h.onConnections hne frame env⟩
  | onReadDone =>
    exact ⟨h.nextConnId_ne, h.not_mem_connections, nofun, h.keyed, h.onConnections⟩
  | close connId cause =>
    simp only [sessions]
    split
    · exact ⟨h.nextConnId_ne, herase connId, h.reading_ne, h.keyed, h.onConnections⟩
    · exact h
  | heartbeatCheck nowMs order =>
    simp only [sessions, heartbeatCheck]
    split
    · exact ⟨h.nextConnId_ne, h.not_mem_connections, h.reading_ne, h.keyed, h.onConnections⟩
    · exact h
  | heartbeatStep =>
    simp only [sessions, heartbeatStep]
    split
    · exact h
    · rename_i connId _ _ _
      have hcall : TopicManagerCall st.broker.topicManager
          (st.broker.onConnectionClosed connId).topicManager := .unsubscribeByConnId connId
      exact ⟨h.nextConnId_ne, h.not_mem_connections, h.reading_ne, hcall.keyed h.keyed,
        fun topic group sub hsub =>
          h.onConnections topic group sub (hcall.subscribersOf_subset topic group hsub)⟩
    · exact ⟨h.nextConnId_ne, herase _, h.reading_ne, h.keyed, h.onConnections⟩
    · exact ⟨h.nextConnId_ne, h.not_mem_connections, h.reading_ne, h.keyed, h.onConnections⟩

/-- **Run.** -/
theorem numbered_run (config : BrokerConfig) (store : StoreConfig) (steadyNow : ℤ)
    (ops : List SessionOp) :
    ((sessions α lib).run (ofBroker (.ofConfig config store steadyNow)) ops).Numbered := by
  refine StepMachine.run_induction _ (P := Numbered) ?_ (fun _ op h => numbered_step lib h op) ops
  refine ⟨Nat.one_ne_zero, AList.notMem_empty _, nofun, Broker.keyed_ofConfig _ _ _, ?_⟩
  intro topic group sub hsub
  cases group <;> cases hsub

end Sessions

namespace Broker

variable {α : Type*} [TokenCount α] (lib : Libraries)

/-- **Every group is reached**, exactly if those whose turn it is have names. Take the
subscriptions as any frames on accepted connections have left them. A publish request that is
stored is pushed once for every broadcast subscription, and once to the connection of one member
of every group with members, iff in every group of the topic the member whose turn it is has a
name. -/
theorem publish_reaches_iff (config : BrokerConfig) (store : StoreConfig) (steadyNow : ℤ)
    (ops : List SessionOp) (b : Broker α)
    (htm : b.topicManager = ((sessions α lib).run
      (.ofBroker (ofConfig config store steadyNow)) ops).broker.topicManager)
    (connId : ConnectionId) (req : PublishRequest) (env : HandlerEnv) (r : StoredRequest)
    (hstored : r ∈ (b.handlePublish lib connId (some req) env).2.stored) :
    IsReceivers b.topicManager env.groupOrder req.topic
        (pushTargets (b.handlePublish lib connId (some req) env).2.sent) ↔
      ∀ group ∈ b.topicManager.getConsumerGroups env.groupOrder req.topic, group.TurnNamed := by
  obtain ⟨-, -, -, hkeyed, hconn⟩ := Sessions.numbered_run (α := α) lib config store steadyNow ops
  rw [← htm] at hkeyed hconn
  exact isReceivers_pushTargets_iff lib hkeyed hconn hstored

/-- Parsers that know two subscriptions to topic `t` in group `g`: that of `c`, and one without a
name. -/
def memberLibraries : Libraries where
  parsePublishRequest _ := none
  parseBatchPublishRequest _ := none
  parseSubscribeRequest
    | [10, 1, 116, 18, 1, 99, 26, 1, 103] =>
      some { topic := "t", subscriberId := "c", groupId := "g" }
    | [10, 1, 116, 26, 1, 103] => some { topic := "t", subscriberId := "", groupId := "g" }
    | _ => none
  parseUnsubscribeRequest _ := none
  parsePullRequest _ := none
  parseAckRequest _ := none
  parseAdminRequest _ := none
  compress2 _ := none

/-- Connection 1 is accepted and subscribes with this payload. -/
def memberRun (payload : List UInt8) : List SessionOp := [
  .accept 0, .onRead 1 0, .frame { msgType := .subscribe, payload := payload } (.ofClocks 0 0)]

/-- The broker after the subscription. -/
def memberBroker (payload : List UInt8) : Broker ℚ :=
  ((sessions ℚ memberLibraries).run
    (.ofBroker (ofConfig {} { defaultBufferSize := 128 } 0)) (memberRun payload)).broker

/-- A group is reached through its member `c`. -/
theorem publish_reaches_named :
    IsReceivers (memberBroker [10, 1, 116, 18, 1, 99, 26, 1, 103]).topicManager (.entries _ _) "t"
      (pushTargets ((memberBroker [10, 1, 116, 18, 1, 99, 26, 1, 103]).handlePublish
        memberLibraries 2 (some { topic := "t", payload := [97] }) (.ofClocks 0 0)).2.sent) :=
  (publish_reaches_iff memberLibraries {} { defaultBufferSize := 128 } 0
    (memberRun [10, 1, 116, 18, 1, 99, 26, 1, 103])
    (memberBroker [10, 1, 116, 18, 1, 99, 26, 1, 103]) rfl 2 { topic := "t", payload := [97] }
    (.ofClocks 0 0) ⟨{ topic := "t", payload := [97] }, 1⟩ (by decide +kernel)).mpr
    (by decide +kernel)

/-- A group whose member has no name is not reached by a stored message. -/
theorem not_publish_reaches_nameless :
    ⟨{ topic := "t", payload := [97] }, 1⟩ ∈ ((memberBroker [10, 1, 116, 26, 1, 103]).handlePublish
        memberLibraries 2 (some { topic := "t", payload := [97] }) (.ofClocks 0 0)).2.stored ∧
      ¬IsReceivers (memberBroker [10, 1, 116, 26, 1, 103]).topicManager (.entries _ _) "t"
        (pushTargets ((memberBroker [10, 1, 116, 26, 1, 103]).handlePublish memberLibraries 2
          (some { topic := "t", payload := [97] }) (.ofClocks 0 0)).2.sent) := by
  refine ⟨by decide +kernel, fun hreceivers => ?_⟩
  -- nothing was sent, although the group has a member
  have hempty := (hreceivers.eq_nil_iff.mp (by decide +kernel)).2
  revert hempty
  decide +kernel

end Broker

end ProtoMsgQueue
