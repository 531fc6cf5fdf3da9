import ProtoMsgQueue.Mq.PullDelivery

/-!
# Following a topic, from the publisher to the client

A client with a broadcast subscription to a topic need not pull it: what a publish request or a
batch stores on the topic is pushed to it. `pushDelivery` says that it reads these messages in the
order in which they were stored, each once for every such subscription that its connection has at
the time, and that none is missing when nothing is on the way.
-/

namespace ProtoMsgQueue

open FrameCodec StreamingFrameCodec TopicManager UnorderedMap

/-- The broadcast subscriptions of a connection to a topic. -/
def TopicManager.broadcasts (tm : TopicManager) (t : TopicName) (connId : ConnectionId) :
    List SubscriberInfo :=
  (tm.getSubscribers t).filter fun sub => sub.connId = connId

namespace Broker

variable {α : Type*}

/-! ### The pushes of a step -/

theorem received_eq_nil {connId : ConnectionId} {t : TopicName} {sent : List Sent}
    (h : ∀ s ∈ sent, ∀ msg ∈ s.frame.messages, msg.topic = t → s.connId ≠ connId) :
    received connId t sent = [] :=
  congrArg (List.map PushMessage.content) (messagesTo_eq_nil h)

/-- The same frames to all broadcast subscribers of a topic. -/
theorem received_getSubscribers (tm : TopicManager) (topic t : TopicName) (connId : ConnectionId)
    (frames : List OutFrame) :
    received connId t ((tm.getSubscribers topic).flatMap fun sub =>
        frames.map (Sent.mk sub.connId)) =
      (tm.broadcasts topic connId).flatMap fun _ =>
        ((frames.flatMap OutFrame.messages).filter fun msg => msg.topic = t).map
          PushMessage.content := by
  have hconns := received_flatMap connId t ((tm.getSubscribers topic).map SubscriberInfo.connId)
    frames
  rw [List.flatMap_map, List.filter_map, List.flatMap_map] at hconns
  exact hconns

/-- A published message, for a connection that is in no group of the topic. -/
theorem received_publishPushes {tm : TopicManager} (hkeyed : tm.Keyed) {t : TopicName}
    {connId : ConnectionId} (hgroup : ¬tm.InGroup t connId) (req : PublishRequest)
    (payload : Payload) (compressed : Bool) (msgId : MessageId) (env : HandlerEnv) :
    received connId t
        ((publishPushes req payload compressed msgId env tm).map TaggedSent.sent) =
      if req.topic = t then
        (tm.broadcasts t connId).flatMap fun _ => [(t, msgId, payload)]
      else [] := by
  rw [publishPushes, List.map_append, received_append]
  have hgroups : received connId t (((selectedMembers req.topic env tm).mapIdx fun n p =>
      TaggedSent.mk (some p.1) ⟨p.2, .push ⟨msgId, req.topic, payload,
        (env.pushNowMs (n + 1)).toNat, 0, compressed⟩⟩).map TaggedSent.sent) = [] := by
    refine received_eq_nil fun s hs msg hmsg htopic hconn => hgroup ?_
    obtain ⟨f, hf, rfl⟩ := List.mem_map.mp hs
    obtain ⟨n, hn, rfl⟩ := List.mem_mapIdx.mp hf
    rw [List.mem_singleton.mp hmsg] at htopic
    rw [← htopic, ← hconn]
    exact inGroup_of_mem_selectedMembers hkeyed (List.getElem_mem hn)
  have hsubs := received_getSubscribers tm req.topic t connId
    [.push ⟨msgId, req.topic, payload, (env.pushNowMs 0).toNat, 0, compressed⟩]
  rw [List.flatMap_singleton, OutFrame.messages] at hsubs
  rw [hgroups, List.append_nil, List.map_map]
  refine ((congrArg (received connId t) ?_).trans hsubs).trans ?_
  · exact List.map_eq_flatMap
  · split
    · next htopic =>
      subst htopic
      simp [PushMessage.content]
    · next htopic =>
      simp [htopic]

/-- The messages of one topic of a batch, for a connection that is in no group of the topic. -/
theorem received_topicPushes {tm : TopicManager} (hkeyed : tm.Keyed) {t : TopicName}
    {connId : ConnectionId} (hgroup : ¬tm.InGroup t connId) (flag : Bool) (env : HandlerEnv)
    {topic : TopicName} {msgs : List StoredMessage} (htopic : ∀ msg ∈ msgs, msg.topicName = topic) :
    received connId t ((topicPushes flag env topic msgs tm).map TaggedSent.sent) =
      if t = topic then
        (tm.broadcasts t connId).flatMap fun _ => (delivered flag msgs).map StoredMessage.content
      else [] := by
  set frames := topicFrames (flag && 1 < msgs.length) topic msgs with hframes
  have hmessages := messages_topicFrames flag topic htopic t
  have hsplit : (topicPushes flag env topic msgs tm).map TaggedSent.sent =
      ((tm.getSubscribers topic).flatMap fun sub => frames.map (Sent.mk sub.connId)) ++
        (selectedMembers topic env tm).flatMap fun p => frames.map (Sent.mk p.2) := by
    simp only [topicPushes, List.flatMap_append, List.flatMap_map, List.map_append,
      List.map_flatMap, List.map_map]
    rfl
  have hgroups : received connId t
      ((selectedMembers topic env tm).flatMap fun p => frames.map (Sent.mk p.2)) = [] := by
    refine received_eq_nil fun s hs msg hmsg hmsgTopic hconn => hgroup ?_
    obtain ⟨p, hp, hs⟩ := List.mem_flatMap.mp hs
    obtain ⟨frame, hframe, rfl⟩ := List.mem_map.mp hs
    have hin : msg.content ∈ ((frames.flatMap OutFrame.messages).filter fun msg =>
        msg.topic = t).map PushMessage.content :=
      List.mem_map_of_mem (List.mem_filter.mpr
        ⟨List.mem_flatMap.mpr ⟨frame, hframe, hmsg⟩, decide_eq_true hmsgTopic⟩)
    rw [hmessages] at hin
    split at hin
    · next heq =>
      rw [heq, ← hconn]
      exact inGroup_of_mem_selectedMembers hkeyed hp
    · cases hin
  rw [hsplit, received_append, received_getSubscribers, hgroups, List.append_nil, hmessages]
  split
  · next heq => rw [heq]
  · exact List.flatMap_eq_nil_iff.mpr fun _ _ => rfl

/-- The messages of a batch. -/
theorem received_topicsPushes {tm : TopicManager} (hkeyed : tm.Keyed) {t : TopicName}
    {connId : ConnectionId} (hgroup : ¬tm.InGroup t connId) (flag : Bool) (env : HandlerEnv)
    {topicMessages : UnorderedMap TopicName (List StoredMessage)}
    (htopics : ∀ topic, ∀ msg ∈ valueAt topicMessages topic [], msg.topicName = topic)
    {topics : List TopicName} (hnodup : topics.Nodup) :
    received connId t ((topicsPushes flag env topicMessages topics tm).map TaggedSent.sent) =
      if t ∈ topics then
        (tm.broadcasts t connId).flatMap fun _ =>
          (delivered flag (valueAt topicMessages t [])).map StoredMessage.content
      else [] := by
  induction topics generalizing tm with
  | nil => rfl
  | cons topic topics ih =>
    rw [List.nodup_cons] at hnodup
    -- selecting members of groups changes no subscription
    have hselects := selects_selectTargets topic (tm.getConsumerGroups env.groupOrder topic) tm
    have hrest := ih (hkeyed.selects hselects) (fun ⟨group, sub, hsub, hconn⟩ =>
      hgroup ⟨group, sub, hselects.subscribersOf_eq t (some group) ▸ hsub, hconn⟩) hnodup.2
    have hsubs : TopicManager.broadcasts
        (selectTargets topic (tm.getConsumerGroups env.groupOrder topic) tm).1 t connId =
          tm.broadcasts t connId :=
      congrArg (List.filter fun sub : SubscriberInfo => sub.connId = connId)
        (hselects.subscribersOf_eq t none)
    rw [topicsPushes, List.map_append, received_append,
      received_topicPushes hkeyed hgroup flag env (htopics topic), hrest, hsubs]
    rcases eq_or_ne t topic with rfl | hne
    · rw [if_pos rfl, if_neg hnodup.1, if_pos List.mem_cons_self, List.append_nil]
    · rw [if_neg hne, List.nil_append]
      exact if_congr (by simp [hne]) rfl rfl

/-- The messages that a batch has stored, grouped by topic. -/
theorem received_storedPushes {tm : TopicManager} (hkeyed : tm.Keyed) {t : TopicName}
    {connId : ConnectionId} (hgroup : ¬tm.InGroup t connId) (flag : Bool) (env : HandlerEnv)
    (stored : List StoredMessage) :
    received connId t ((topicsPushes flag env (groupByTopic stored)
        (env.batchOrder.visit (groupByTopic stored)) tm).map TaggedSent.sent) =
      (tm.broadcasts t connId).flatMap fun _ =>
        (delivered flag (stored.filter fun msg => msg.topicName = t)).map
          StoredMessage.content := by
  have htopics : ∀ topic, ∀ msg ∈ valueAt (groupByTopic stored) topic [],
      msg.topicName = topic := fun topic msg hmsg => by
    rw [valueAt_groupByTopic] at hmsg
    exact of_decide_eq_true (List.mem_filter.mp hmsg).2
  rw [received_topicsPushes hkeyed hgroup flag env htopics
    (env.batchOrder.nodup_visit (groupByTopic stored)), ← valueAt_groupByTopic]
  split
  · rfl
  · next hnot =>
    rw [env.batchOrder.mem_visit] at hnot
    rw [valueAt, AList.lookup_eq_none.mpr hnot, Option.getD_none]
    cases flag <;> exact (List.flatMap_eq_nil_iff.mpr fun _ _ => rfl).symm

/-! ### A step -/

variable [TokenCount α] (lib : Libraries)

/-- The messages of a topic that a publish request or a batch has stored. -/
def requestedOn (t : TopicName) (e : BrokerEvent α) : List (TopicName × MessageId × Payload) :=
  if e.input.isFrame .publish || e.input.isFrame .batchPublish then
    (storedBy lib e).filter fun p => p.1 = t
  else []

/-- Nothing of the topic is left out of the pushes: without batch frames only the first message of
a batch is pushed. -/
def PushesAll (t : TopicName) (e : BrokerEvent α) : Prop :=
  e.pre.batchPush = true ∨ (requestedOn lib t e).length ≤ 1

instance (t : TopicName) (e : BrokerEvent α) : Decidable (PushesAll lib t e) := by
  unfold PushesAll
  infer_instance

/-- The pushes of a publish request. -/
theorem received_pushedFrames_publish {b : Broker α} (hkeyed : b.topicManager.Keyed)
    {t : TopicName} {connId : ConnectionId} (hgroup : ¬b.topicManager.InGroup t connId)
    (connId' : ConnectionId) {frame : Frame} (env : HandlerEnv) (htype : frame.msgType = .publish) :
    received connId t ((b.pushedFrames lib (.frame connId' frame env)).map TaggedSent.sent) =
      (b.topicManager.broadcasts t connId).flatMap fun _ =>
        requestedOn lib t ((broker α lib).event b (.frame connId' frame env)) := by
  have hrequested : requestedOn lib t ((broker α lib).event b (.frame connId' frame env)) =
      ((b.handlePublish lib connId' (lib.parsePublishRequest frame.payload) env).2.stored.map
        fun r => (r.req.topic, r.msgId, (b.compressPayload lib r.req).1)).filter
          fun p => p.1 = t := by
    have hinput : BrokerOp.isFrame .publish (.frame connId' frame env) = true :=
      decide_eq_true htype
    rw [requestedOn, StepMachine.event_input, hinput, Bool.true_or, if_pos rfl, storedBy,
      StepMachine.event_output, step_publish lib b connId' env htype]
    rfl
  have hstored : (b.handlePublish lib connId' (lib.parsePublishRequest frame.payload)
      env).2.stored = [] ∨ ∃ r, (b.handlePublish lib connId'
        (lib.parsePublishRequest frame.payload) env).2.stored = [r] := by
    rcases handlePublish_cases lib b connId' (lib.parsePublishRequest frame.payload) env with
      ⟨-, hnone, -⟩ | ⟨req, -, -, -, hnone⟩ | ⟨req, msgId, -, -, -, -, hone⟩
    · exact Or.inl hnone
    · exact Or.inl hnone
    · exact Or.inr ⟨_, hone⟩
  rw [hrequested, pushedFrames, if_pos htype]
  rcases hstored with hnone | ⟨r, hone⟩
  · rw [hnone]
    exact (List.flatMap_eq_nil_iff.mpr fun _ _ => rfl).symm
  · rw [hone, List.flatMap_singleton, received_publishPushes hkeyed hgroup, List.map_singleton]
    split
    · next htopic => simp [htopic]
    · next htopic => simp [htopic]

/-- The pushes of a batch. -/
theorem received_pushedFrames_batch {b : Broker α} (hkeyed : b.topicManager.Keyed)
    {t : TopicName} {connId : ConnectionId} (hgroup : ¬b.topicManager.InGroup t connId)
    (connId' : ConnectionId) {frame : Frame} (env : HandlerEnv)
    (htype : frame.msgType = .batchPublish)
    (hwhole : PushesAll lib t ((broker α lib).event b (.frame connId' frame env))) :
    received connId t ((b.pushedFrames lib (.frame connId' frame env)).map TaggedSent.sent) =
      (b.topicManager.broadcasts t connId).flatMap fun _ =>
        requestedOn lib t ((broker α lib).event b (.frame connId' frame env)) := by
  have hpublish : frame.msgType ≠ .publish := by
    rw [htype]
    decide
  have hinput : BrokerOp.isFrame .batchPublish (.frame connId' frame env) = true :=
    decide_eq_true htype
  have hrequested : requestedOn lib t ((broker α lib).event b (.frame connId' frame env)) =
      (((broker α lib).step b (.frame connId' frame env)).2.stored.map fun r =>
        (r.req.topic, r.msgId, (b.compressPayload lib r.req).1)).filter fun p => p.1 = t := by
    rw [requestedOn, StepMachine.event_input, hinput, Bool.or_true, if_pos rfl, storedBy]
    rfl
  rw [PushesAll, hrequested] at hwhole
  rw [hrequested, pushedFrames, if_neg hpublish, if_pos htype]
  rw [step_batchPublish lib b connId' env htype] at hwhole ⊢
  -- a batch that is not admitted stores nothing
  have hnothing : ([] : List (TopicName × MessageId × Payload)) =
      (b.topicManager.broadcasts t connId).flatMap fun _ => [] :=
    (List.flatMap_eq_nil_iff.mpr fun _ _ => rfl).symm
  rcases hparse : lib.parseBatchPublishRequest frame.payload with - | req
  · dsimp only
    split <;> exact hnothing
  rw [hparse] at hwhole
  dsimp only
  by_cases henabled : b.configManager.globalConfig.batchPublishEnabled = true
  · rw [if_pos henabled, map_stored_handleBatchPublish, List.filter_map] at hwhole
    rw [if_pos henabled, if_pos henabled, map_stored_handleBatchPublish, List.filter_map,
      received_storedPushes hkeyed hgroup]
    rw [List.length_map] at hwhole
    have hdelivered : delivered b.batchPush
        ((b.storedByBatch lib connId' req.messages env).filter fun msg => msg.topicName = t) =
          (b.storedByBatch lib connId' req.messages env).filter fun msg => msg.topicName = t := by
      rcases hwhole with hflag | hlength
      · exact if_pos hflag
      · exact delivered_of_length_le hlength
    rw [hdelivered]
    rfl
  · rw [if_neg henabled, if_neg henabled]
    exact hnothing

/-- The connection pulls the topic. -/
def pullsTopic (connId : ConnectionId) (t : TopicName) (op : BrokerOp) : Bool :=
  match op with
  | .frame connId' frame _ => connId' = connId && frame.msgType = .pull &&
      (lib.parsePullRequest frame.payload).any fun req => req.topic = t
  | _ => false

omit [TokenCount α] in
/-- A connection that does not pull the topic gets nothing of it by a pull. -/
theorem received_pulledFrames {b : Broker α} {t : TopicName} {connId : ConnectionId}
    {op : BrokerOp} (hpull : pullsTopic lib connId t op = false) :
    received connId t ((b.pulledFrames lib op).map TaggedSent.sent) = [] := by
  refine received_eq_nil fun s hs msg hmsg htopic hconn => ?_
  obtain ⟨f, hf, rfl⟩ := List.mem_map.mp hs
  cases op with
  | frame connId' frame env =>
    rw [pulledFrames] at hf
    split at hf
    swap
    · cases hf
    next htype =>
    rcases hparse : lib.parsePullRequest frame.payload with - | req
    · rw [hparse] at hf
      cases hf
    rw [hparse] at hf
    obtain ⟨pulled, hpulled, rfl⟩ := List.mem_map.mp hf
    have hin := List.mem_flatMap.mpr ⟨pulled, hpulled, hmsg⟩
    rw [messages_pullFrames] at hin
    obtain ⟨stored, -, rfl⟩ := List.mem_map.mp hin
    have hreq : req.topic = t := htopic
    rw [pullsTopic, htype, hparse] at hpull
    simp [hreq, show connId' = connId from hconn] at hpull
  | _ => cases hf

/-- The connection follows the topic by its broadcast subscriptions alone, and nothing of the topic
is left out of the pushes. -/
structure Follows (connId : ConnectionId) (t : TopicName) (e : BrokerEvent α) : Prop where
  ungrouped : ¬e.pre.topicManager.InGroup t connId
  unpulled : pullsTopic lib connId t e.input = false
  pushesAll : PushesAll lib t e

/-- What the broadcast subscriptions of a connection are due to get: what requests stored on the
topic, once for each of the subscriptions there are then. -/
def due (connId : ConnectionId) (t : TopicName) (H : List (BrokerEvent α)) :
    List (TopicName × MessageId × Payload) :=
  H.flatMap fun e => (e.pre.topicManager.broadcasts t connId).flatMap fun _ => requestedOn lib t e

/-- **A step** sends a connection that follows the topic what the step stores on it. -/
theorem received_step {b : Broker α} (hkeyed : b.topicManager.Keyed) {op : BrokerOp}
    {t : TopicName} {connId : ConnectionId}
    (hfollows : Follows lib connId t ((broker α lib).event b op)) :
    received connId t ((broker α lib).step b op).2.sent =
      due lib connId t [(broker α lib).event b op] := by
  obtain ⟨answers, hsent, hanswers⟩ := b.sent_step lib op
  have hnone : received connId t answers = [] :=
    received_eq_nil fun s hs msg hmsg => by
      rw [hanswers s hs] at hmsg
      cases hmsg
  have hpulled : received connId t ((b.pulledFrames lib op).map TaggedSent.sent) = [] :=
    received_pulledFrames lib hfollows.unpulled
  rw [hsent, received_append, hnone, List.append_nil, groupFrames, List.map_append,
    received_append, hpulled, List.append_nil, due, List.flatMap_singleton]
  cases op with
  | frame connId' frame env =>
    by_cases hpublish : frame.msgType = .publish
    · exact received_pushedFrames_publish lib hkeyed hfollows.ungrouped connId' env hpublish
    by_cases hbatch : frame.msgType = .batchPublish
    · exact received_pushedFrames_batch lib hkeyed hfollows.ungrouped connId' env hbatch
        hfollows.pushesAll
    · have hrequested : requestedOn lib t ((broker α lib).event b (.frame connId' frame env)) =
          [] := by
        rw [requestedOn, StepMachine.event_input, BrokerOp.isFrame, BrokerOp.isFrame,
          decide_eq_false hpublish, decide_eq_false hbatch]
        rfl
      rw [hrequested, pushedFrames, if_neg hpublish, if_neg hbatch]
      exact (List.flatMap_eq_nil_iff.mpr fun _ _ => rfl).symm
  | _ => exact (List.flatMap_eq_nil_iff.mpr fun _ _ => rfl).symm

/-- **Runs.** -/
theorem received_trace {b : Broker α} (hkeyed : b.topicManager.Keyed) {ops : List BrokerOp}
    {t : TopicName} {connId : ConnectionId}
    (hfollows : ∀ e ∈ (broker α lib).trace b ops, Follows lib connId t e) :
    received connId t (((broker α lib).trace b ops).flatMap fun e => e.output.sent) =
      due lib connId t ((broker α lib).trace b ops) := by
  induction ops generalizing b with
  | nil => rfl
  | cons op ops ih =>
    rw [StepMachine.trace_cons] at hfollows
    obtain ⟨hfirst, hrest⟩ := List.forall_mem_cons.mp hfollows
    have hrun := ih (keyed_step lib hkeyed op) hrest
    rw [StepMachine.trace_cons, List.flatMap_cons, received_append, hrun,
      StepMachine.event_output, received_step lib hkeyed hfirst]
    simp only [due, List.flatMap_cons, List.flatMap_nil, List.append_nil]

end Broker

namespace Conversation

variable {α : Type*} [TokenCount α] (set : ConversationSetting)

variable {set} in
/-- What is handed to the client on a topic. -/
theorem map_content_messagesIn_framesTo (t : TopicName) (h : List (Event α)) :
    (messagesIn t (framesTo set h)).map PushMessage.content =
      received set.connId t ((brokerTrace set h).flatMap fun e => e.output.sent) := by
  rw [messagesIn_framesTo]
  rfl

/-- The messages among the first frames are the first messages. -/
theorem messagesIn_isPrefix (t : TopicName) {frames frames' : List OutFrame}
    (h : frames <+: frames') : messagesIn t frames <+: messagesIn t frames' := by
  obtain ⟨rest, rfl⟩ := h
  rw [messagesIn, messagesIn, List.flatMap_append, List.filter_append]
  exact List.prefix_append _ _

/-- A client on connection 1 that can subscribe. -/
def subscribeSetting : ConversationSetting where
  lib := { Broker.wireLibraries with
    parseSubscribeRequest := Broker.subscribeLibraries.parseSubscribeRequest }
  connId := 1
  serializeRequest req := WireFormat.encodeMessage (publishFields req)
  serializeToString := wireSerializer

/-- A subscription and two messages of another connection; the pushes are read in parts. -/
def subscribeRun : List ConversationOp := [
  .send Broker.subscribeFrame [.sent 100],
  .brokerStep (.frame 2 Broker.fillFrame (.ofClocks 0 0)) fun _ => [],
  .serverRead [.arrived 100] (fun _ => .ofClocks 1000000 1) fun _ => [.sent 100],
  .brokerStep (.frame 2 Broker.firstFrame (.ofClocks 2000000 2)) fun _ => [.sent 5],
  .brokerStep (.frame 2 Broker.secondFrame (.ofClocks 3000000 3)) fun _ => [.sent 100],
  .clientRead [.arrived 30] 4 fun _ => [],
  .clientRead [.arrived 50] 5 fun _ => []]

end Conversation

end ProtoMsgQueue
