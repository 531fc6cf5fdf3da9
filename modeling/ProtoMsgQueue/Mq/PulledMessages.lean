import ProtoMsgQueue.Mq.Conversation
import ProtoMsgQueue.Mq.PayloadFidelity
import ProtoMsgQueue.Mq.Receivers
import ProtoMsgQueue.Storage.TopicTrace

/-!
# What a connection gets by its pulls

Pushes go to the subscribers of the topic of their messages (`subscribed_of_mem_pushedFrames`). So
a connection without a subscription to a topic gets the messages of the topic by its pulls alone:
where the pulls of a consumer come from one connection, and this one pulls for no other consumer,
what it gets is what the store returns to the consumer (`messagesTo_trace`).
-/

namespace ProtoMsgQueue

open UnorderedMap TopicManager MemoryMessageStore

/-- The connection has a subscription to the topic. -/
def TopicManager.Subscribed (tm : TopicManager) (topic : TopicName) (connId : ConnectionId) :
    Prop :=
  ∃ group, ∃ sub ∈ tm.subscribersOf topic group, sub.connId = connId

/-- The connection is a member of a group of the topic. -/
def TopicManager.InGroup (tm : TopicManager) (topic : TopicName) (connId : ConnectionId) : Prop :=
  ∃ group, ∃ sub ∈ tm.subscribersOf topic (some group), sub.connId = connId

/-- The messages of a topic that a connection is sent, in order. -/
def messagesTo (connId : ConnectionId) (t : TopicName) (sent : List Sent) : List PushMessage :=
  ((sent.filter fun s => s.connId = connId).flatMap fun s => s.frame.messages).filter
    fun msg => msg.topic = t

theorem messagesTo_append (connId : ConnectionId) (t : TopicName) (sent sent' : List Sent) :
    messagesTo connId t (sent ++ sent') =
      messagesTo connId t sent ++ messagesTo connId t sent' := by
  simp [messagesTo]

/-- Nothing is sent if every message of the topic goes to another connection. -/
theorem messagesTo_eq_nil {connId : ConnectionId} {t : TopicName} {sent : List Sent}
    (h : ∀ s ∈ sent, ∀ msg ∈ s.frame.messages, msg.topic = t → s.connId ≠ connId) :
    messagesTo connId t sent = [] := by
  rw [messagesTo, List.filter_eq_nil_iff]
  intro msg hmsg htopic
  obtain ⟨s, hs, hmsg⟩ := List.mem_flatMap.mp hmsg
  obtain ⟨hs, hconn⟩ := List.mem_filter.mp hs
  exact h s hs msg hmsg (of_decide_eq_true htopic) (of_decide_eq_true hconn)

/-- The frames of one connection. -/
theorem messagesTo_map (connId connId' : ConnectionId) (t : TopicName) (frames : List OutFrame) :
    messagesTo connId t (frames.map (Sent.mk connId')) =
      if connId' = connId then (frames.flatMap OutFrame.messages).filter fun msg => msg.topic = t
      else [] := by
  rw [messagesTo, List.filter_map]
  by_cases hconn : connId' = connId
  · simp [hconn, Function.comp_def, List.flatMap_map]
  · simp [hconn, Function.comp_def]

/-- The operation is a pull. -/
def StoreOp.isPull : StoreOp → Bool
  | .onTopic _ (.pull _ _ _ _) => true
  | _ => false

namespace Broker

variable {α : Type*}

/-! ### Pushes go to subscribers -/

/-- A selected member is a member of a group. -/
theorem inGroup_of_mem_selectedMembers {tm : TopicManager} (hkeyed : tm.Keyed)
    {topic : TopicName} {env : HandlerEnv} {p : String × ConnectionId}
    (hp : p ∈ selectedMembers topic env tm) : tm.InGroup topic p.2 := by
  rw [selectedMembers_eq hkeyed, List.mem_filterMap] at hp
  obtain ⟨group, hgroup, hp⟩ := hp
  obtain ⟨connId, htarget, rfl⟩ := Option.map_eq_some_iff.mp hp
  rw [ConsumerGroup.target] at htarget
  split at htarget
  · cases htarget
  · next member hmember =>
    dsimp only at htarget
    split at htarget
    · cases htarget
    · obtain ⟨member', hmember', hconn⟩ :=
        exists_mem_of_memberConnId (List.mem_of_getElem? hmember)
      refine ⟨group.groupId, member'.toInfo, ?_, ?_⟩
      · rw [subscribersOf_some, (hkeyed.mem_getConsumerGroups env.groupOrder).mp hgroup]
        exact List.mem_map_of_mem hmember'
      · exact hconn.symm.trans (Option.some_inj.mp htarget)

/-- So it has subscribed. -/
theorem subscribed_of_mem_selectedMembers {tm : TopicManager} (hkeyed : tm.Keyed)
    {topic : TopicName} {env : HandlerEnv} {p : String × ConnectionId}
    (hp : p ∈ selectedMembers topic env tm) : tm.Subscribed topic p.2 := by
  obtain ⟨group, hgroup⟩ := inGroup_of_mem_selectedMembers hkeyed hp
  exact ⟨some group, hgroup⟩

theorem subscribed_of_mem_publishPushes {tm : TopicManager} (hkeyed : tm.Keyed)
    {req : PublishRequest} {payload : Payload} {compressed : Bool} {msgId : MessageId}
    {env : HandlerEnv} {f : TaggedSent}
    (hf : f ∈ publishPushes req payload compressed msgId env tm) :
    tm.Subscribed req.topic f.sent.connId := by
  rcases List.mem_append.mp hf with hf | hf
  · obtain ⟨sub, hsub, rfl⟩ := List.mem_map.mp hf
    exact ⟨none, sub, hsub, rfl⟩
  · obtain ⟨n, hn, rfl⟩ := List.mem_mapIdx.mp hf
    exact subscribed_of_mem_selectedMembers hkeyed (List.getElem_mem hn)

theorem subscribed_of_mem_topicsPushes {flag : Bool} {env : HandlerEnv}
    {topicMessages : UnorderedMap TopicName (List StoredMessage)} {topics : List TopicName}
    {tm : TopicManager} (hkeyed : tm.Keyed) {f : TaggedSent}
    (hf : f ∈ topicsPushes flag env topicMessages topics tm) {p : PushMessage}
    (hp : p ∈ f.sent.frame.messages) : tm.Subscribed p.topic f.sent.connId := by
  induction topics generalizing tm with
  | nil => cases hf
  | cons topic topics ih =>
    rw [topicsPushes] at hf
    rcases List.mem_append.mp hf with hf | hf
    · obtain ⟨receiver, hreceiver, hf⟩ := List.mem_flatMap.mp hf
      obtain ⟨frame, hframe, rfl⟩ := List.mem_map.mp hf
      have htopic : p.topic = topic := by
        rw [topicFrames] at hframe
        split at hframe
        · rw [List.mem_singleton.mp hframe] at hp
          obtain ⟨msg, -, rfl⟩ := List.mem_map.mp hp
          rfl
        · obtain ⟨msg, -, rfl⟩ := List.mem_map.mp hframe
          rw [List.mem_singleton.mp hp]
          rfl
      rw [htopic]
      rcases List.mem_append.mp hreceiver with hreceiver | hreceiver
      · obtain ⟨sub, hsub, rfl⟩ := List.mem_map.mp hreceiver
        exact ⟨none, sub, hsub, rfl⟩
      · obtain ⟨member, hmember, rfl⟩ := List.mem_map.mp hreceiver
        exact subscribed_of_mem_selectedMembers hkeyed hmember
    · -- selecting members changes no subscription
      have hselects := selects_selectTargets topic (tm.getConsumerGroups env.groupOrder topic) tm
      obtain ⟨group, sub, hsub, hconn⟩ := ih (hkeyed.selects hselects) hf
      rw [hselects.subscribersOf_eq] at hsub
      exact ⟨group, sub, hsub, hconn⟩

variable (lib : Libraries)

/-- **Pushes go to subscribers** of the topics of their messages. -/
theorem subscribed_of_mem_pushedFrames [TokenCount α] {b : Broker α}
    (hkeyed : b.topicManager.Keyed) {op : BrokerOp} {f : TaggedSent}
    (hf : f ∈ b.pushedFrames lib op) {p : PushMessage} (hp : p ∈ f.sent.frame.messages) :
    b.topicManager.Subscribed p.topic f.sent.connId := by
  cases op with
  | frame connId frame env =>
    rw [pushedFrames] at hf
    split at hf
    · obtain ⟨r, -, hf⟩ := List.mem_flatMap.mp hf
      rw [← (mem_messages_publishPushes hf hp).1]
      exact subscribed_of_mem_publishPushes hkeyed hf
    split at hf
    · rcases hparse : lib.parseBatchPublishRequest frame.payload with - | req
      · rw [hparse] at hf
        cases hf
      rw [hparse] at hf
      dsimp only at hf
      split at hf
      · exact subscribed_of_mem_topicsPushes hkeyed hf hp
      · cases hf
    · cases hf
  | _ => cases hf

/-! ### Pulls -/

/-- A pull hands its connection what the store returns. -/
theorem messages_pullFrames (b : Broker α) (req : PullRequest) (env : HandlerEnv) :
    (b.pullFrames req env).flatMap OutFrame.messages =
      (b.store.pull req.topic (consumerOf req.subscriberId req.groupId) req.maxMessages
        env.pullNowMs env.pulledAt).2.map fun msg => .ofStored msg req.topic false := by
  rw [pullFrames]
  split
  · exact List.append_nil _
  · rw [List.flatMap_map]
    exact List.flatMap_singleton' _

/-- An administration command pulls nothing. -/
theorem isPull_adminOps {parsed : Option AdminRequest} :
    ∀ op ∈ adminOps parsed, op.isPull = false := by
  rcases parsed with - | ⟨command, topic⟩
  · exact fun op hop => by cases hop
  cases command with
  | deleteTopic | cleanupTopic =>
    rw [adminOps]
    split <;> simp [StoreOp.isPull]
  | _ => exact fun op hop => by cases hop

variable [TokenCount α]

/-- A pull frame makes one operation on the store, if it is read. -/
theorem storeOps_pull (b : Broker α) (connId : ConnectionId) {frame : Frame} (env : HandlerEnv)
    (htype : frame.msgType = .pull) : b.storeOps lib (.frame connId frame env) =
      (lib.parsePullRequest frame.payload).toList.map fun req =>
        .onTopic req.topic (.pull (consumerOf req.subscriberId req.groupId) req.maxMessages
          env.pullNowMs env.pulledAt) := by
  have hne : ∀ msgType, msgType ≠ .pull → frame.msgType ≠ msgType := by
    rintro _ hne rfl
    exact hne htype
  rw [storeOps, frameOps, if_neg (hne .publish (by decide)), if_neg (hne .batchPublish (by decide)),
    if_neg (hne .subscribe (by decide)), if_pos htype]
  cases lib.parsePullRequest frame.payload <;> rfl

/-- A step handles a pull request, or its operations on the store pull nothing. -/
theorem storeOps_pull_cases (b : Broker α) (op : BrokerOp) :
    (∃ connId frame env req, op = .frame connId frame env ∧ frame.msgType = .pull ∧
      lib.parsePullRequest frame.payload = some req) ∨
    b.pulledFrames lib op = [] ∧ ∀ op' ∈ b.storeOps lib op, op'.isPull = false := by
  cases op with
  | frame connId frame env =>
    by_cases hpull : frame.msgType = .pull
    · rcases hparse : lib.parsePullRequest frame.payload with - | req
      · refine Or.inr ⟨?_, ?_⟩
        · rw [pulledFrames, if_pos hpull, hparse]
        · rw [b.storeOps_pull lib connId env hpull, hparse]
          exact fun op' hop' => by cases hop'
      · exact Or.inl ⟨connId, frame, env, req, rfl, hpull, hparse⟩
    · refine Or.inr ⟨by rw [pulledFrames, if_neg hpull], fun op' hop' => ?_⟩
      rw [storeOps, frameOps] at hop'
      split at hop'
      · rcases hparse : lib.parsePublishRequest frame.payload with - | req
        · rw [hparse] at hop'
          cases hop'
        rw [hparse] at hop'
        dsimp only at hop'
        split at hop'
        · rw [List.mem_singleton.mp hop']
          rfl
        · cases hop'
      split at hop'
      · rcases hparse : lib.parseBatchPublishRequest frame.payload with - | req
        · rw [hparse] at hop'
          cases hop'
        rw [hparse] at hop'
        dsimp only at hop'
        split at hop'
        · obtain ⟨n, -, rfl⟩ := List.mem_mapIdx.mp hop'
          rfl
        · cases hop'
      split at hop'
      · rcases hparse : lib.parseSubscribeRequest frame.payload with - | req
        · rw [hparse] at hop'
          cases hop'
        rw [hparse] at hop'
        dsimp only at hop'
        split at hop'
        · rw [List.mem_singleton.mp hop']
          rfl
        · cases hop'
      split at hop'
      · rcases hparse : lib.parseAckRequest frame.payload with - | req
        · rw [hparse] at hop'
          cases hop'
        rw [hparse] at hop'
        rw [List.mem_singleton.mp hop']
        rfl
      split at hop'
      · exact isPull_adminOps op' hop'
      · cases hop'
  | publishLocal | retryPass | expirePass =>
    refine Or.inr ⟨rfl, fun op' hop' => ?_⟩
    rw [List.mem_singleton.mp hop']
    rfl
  | _ => exact Or.inr ⟨rfl, fun op' hop' => by cases hop'⟩

/-- The pulls of the topic that a step makes are for the consumer if the step handles a frame of
the connection, and for others if not. -/
def PullsAs (t : TopicName) (c : Consumer) (connId : ConnectionId) (e : BrokerEvent α) : Bool :=
  (e.pre.storeOps lib e.input).all fun op =>
    match op with
    | .onTopic topic (.pull c' _ _ _) => topic ≠ t || (c' = c) == e.input.isFrameOf connId
    | _ => true

/-- A frame that pulls sends its connection what the store returns, and others nothing. -/
private theorem messagesTo_pull {b : Broker α} {frame : Frame} {req : PullRequest}
    (htype : frame.msgType = .pull) (hparse : lib.parsePullRequest frame.payload = some req)
    {t : TopicName} {c : Consumer} {connId connId' : ConnectionId} {env : HandlerEnv}
    (hpulls : PullsAs lib t c connId ((broker α lib).event b (.frame connId' frame env)) = true) :
    messagesTo connId t ((b.pulledFrames lib (.frame connId' frame env)).map TaggedSent.sent) =
      ((messageStore.trace b.store (b.storeOps lib (.frame connId' frame env))).flatMap
        (StoreEvent.pulled t c)).map fun msg => .ofStored msg t false := by
  have hops : b.storeOps lib (.frame connId' frame env) =
      [.onTopic req.topic (.pull (consumerOf req.subscriberId req.groupId) req.maxMessages
        env.pullNowMs env.pulledAt)] := by
    rw [b.storeOps_pull lib connId' env htype, hparse, Option.toList_some, List.map_singleton]
  have hframes : (b.pulledFrames lib (.frame connId' frame env)).map TaggedSent.sent =
      (b.pullFrames req env).map (Sent.mk connId') := by
    rw [pulledFrames, if_pos htype, hparse, List.map_map]
    rfl
  rw [hframes, messagesTo_map, messages_pullFrames, hops, StepMachine.trace_cons,
    StepMachine.trace_nil, List.flatMap_singleton]
  have hreturned : StoreEvent.pulled t c (messageStore.event b.store (.onTopic req.topic
      (.pull (consumerOf req.subscriberId req.groupId) req.maxMessages env.pullNowMs
        env.pulledAt))) =
      if req.topic = t ∧ consumerOf req.subscriberId req.groupId = c then
        (b.store.pull req.topic (consumerOf req.subscriberId req.groupId) req.maxMessages
          env.pullNowMs env.pulledAt).2
      else [] := rfl
  rw [hreturned]
  by_cases htopic : req.topic = t
  · subst htopic
    have hconn : connId' = connId ↔ consumerOf req.subscriberId req.groupId = c := by
      rw [PullsAs, StepMachine.event_pre, StepMachine.event_input, hops] at hpulls
      have hsame : decide (consumerOf req.subscriberId req.groupId = c) =
          decide (connId' = connId) := by
        simpa [BrokerOp.isFrameOf] using hpulls
      rw [← decide_eq_true_iff (p := connId' = connId), ← hsame, decide_eq_true_iff]
    by_cases hconsumer : consumerOf req.subscriberId req.groupId = c
    · rw [if_pos (hconn.mpr hconsumer), if_pos ⟨rfl, hconsumer⟩]
      exact List.filter_eq_self.mpr (by simp [PushMessage.ofStored])
    · rw [if_neg (hconsumer ∘ hconn.mp), if_neg fun h => hconsumer h.2]
      rfl
  · have hother : ¬(req.topic = t ∧ consumerOf req.subscriberId req.groupId = c) :=
      fun h => htopic h.1
    rw [if_neg hother, List.map_nil]
    split
    · exact List.filter_eq_nil_iff.mpr (by simp [PushMessage.ofStored, htopic])
    · rfl

/-- **A step.** A connection that has no subscription to the topic and pulls it as the consumer
gets what the store returns to the consumer. -/
theorem messagesTo_step {b : Broker α} (hkeyed : b.topicManager.Keyed) {op : BrokerOp}
    {t : TopicName} {c : Consumer} {connId : ConnectionId}
    (hunsubscribed : ¬b.topicManager.Subscribed t connId)
    (hpulls : PullsAs lib t c connId ((broker α lib).event b op) = true) :
    messagesTo connId t ((broker α lib).step b op).2.sent =
      ((messageStore.trace b.store (b.storeOps lib op)).flatMap (StoreEvent.pulled t c)).map
        fun msg => .ofStored msg t false := by
  obtain ⟨answers, hsent, hanswers⟩ := b.sent_step lib op
  have hnone : messagesTo connId t answers = [] :=
    messagesTo_eq_nil fun s hs msg hmsg => by
      rw [hanswers s hs] at hmsg
      cases hmsg
  have hpushed : messagesTo connId t ((b.pushedFrames lib op).map TaggedSent.sent) = [] := by
    refine messagesTo_eq_nil fun s hs msg hmsg htopic hconn => ?_
    obtain ⟨f, hf, rfl⟩ := List.mem_map.mp hs
    have hsubscribed := subscribed_of_mem_pushedFrames lib hkeyed hf hmsg
    rw [htopic, hconn] at hsubscribed
    exact hunsubscribed hsubscribed
  rw [hsent, messagesTo_append, hnone, List.append_nil, groupFrames, List.map_append,
    messagesTo_append, hpushed, List.nil_append]
  rcases b.storeOps_pull_cases lib op with ⟨connId', frame, env, req, rfl, htype, hparse⟩ |
    ⟨hpulled, hops⟩
  · exact messagesTo_pull lib htype hparse hpulls
  · have hnothing : ∀ e ∈ messageStore.trace b.store (b.storeOps lib op),
        StoreEvent.pulled t c e = [] := by
      intro e he
      obtain ⟨before, after, hsplit, -⟩ := messageStore.mem_trace he
      have hop := hops e.input (hsplit ▸ List.mem_append_right _ List.mem_cons_self)
      rw [StoreEvent.pulled]
      split
      · next hinput _ =>
        rw [hinput] at hop
        cases hop
      · rfl
    rw [hpulled, List.flatMap_eq_nil_iff.mpr hnothing]
    rfl

/-! ### Runs -/

/-- What happened to the store. -/
def storeTrace (H : List (BrokerEvent α)) : List StoreEvent :=
  H.flatMap fun e => messageStore.trace e.pre.store (e.pre.storeOps lib e.input)

theorem storeTrace_append (H H' : List (BrokerEvent α)) :
    storeTrace lib (H ++ H') = storeTrace lib H ++ storeTrace lib H' := List.flatMap_append

theorem storeTrace_eq (b : Broker α) (ops : List BrokerOp) :
    storeTrace lib ((broker α lib).trace b ops) = messageStore.trace b.store
      (((broker α lib).trace b ops).flatMap fun e => e.pre.storeOps lib e.input) :=
  ((broker α lib).trace_component (π := Broker.store) (f := fun b op => b.storeOps lib op)
    (fun b op => (b.store_step lib op).1) b ops).symm

/-- The messages that the steps stored, and what the store accepted. -/
theorem flatMap_storedBy (t : TopicName) (b : Broker α) (ops : List BrokerOp) :
    (((broker α lib).trace b ops).flatMap (storedBy lib)).filter (fun p => p.1 = t) =
      (storeTrace lib ((broker α lib).trace b ops)).flatMap (StoreEvent.publishedOn t) := by
  rw [storeTrace, List.flatMap_assoc, List.filter_flatMap]
  refine List.flatMap_congr fun e he => ?_
  obtain ⟨before, -, -, hevent⟩ := (broker α lib).mem_trace he
  have hstored := (e.pre.store_step lib e.input).2
  rw [← (broker α lib).output_of_mem_trace he] at hstored
  change List.filter _ (e.output.stored.map _) = _
  rw [← hstored, List.filterMap_eq_flatMap_toList, List.filter_flatMap]
  rfl

/-- **A run.** What a connection gets of the topic, as long as it has no subscription to it, is
what the store returns to the consumer. -/
theorem messagesTo_trace {b : Broker α} (hkeyed : b.topicManager.Keyed) {ops : List BrokerOp}
    {t : TopicName} {c : Consumer} {connId : ConnectionId}
    (hunsubscribed : ∀ e ∈ (broker α lib).trace b ops, ¬e.pre.topicManager.Subscribed t connId)
    (hpulls : ∀ e ∈ (broker α lib).trace b ops, PullsAs lib t c connId e = true) :
    messagesTo connId t (((broker α lib).trace b ops).flatMap fun e => e.output.sent) =
      ((storeTrace lib ((broker α lib).trace b ops)).flatMap (StoreEvent.pulled t c)).map
        fun msg => .ofStored msg t false := by
  induction ops generalizing b with
  | nil => rfl
  | cons op ops ih =>
    rw [StepMachine.trace_cons] at hunsubscribed hpulls
    obtain ⟨hfirst, hrest⟩ := List.forall_mem_cons.mp hunsubscribed
    obtain ⟨hpull, hpulls⟩ := List.forall_mem_cons.mp hpulls
    have hstep := messagesTo_step lib hkeyed hfirst hpull
    have hstore : storeTrace lib ((broker α lib).trace b (op :: ops)) =
        messageStore.trace b.store (b.storeOps lib op) ++
          storeTrace lib ((broker α lib).trace ((broker α lib).step b op).1 ops) := rfl
    rw [hstore, StepMachine.trace_cons, List.flatMap_cons, messagesTo_append,
      ih (keyed_step lib hkeyed op) hrest hpulls, List.flatMap_append, List.map_append]
    exact congrArg (· ++ _) hstep

end Broker

end ProtoMsgQueue
