import ProtoMsgQueue.Mq.HandlerCases
import ProtoMsgQueue.Mq.Subscriptions

/-!
# What the broker does to its topic manager

Publishing selects members of groups. The frames of a consumer subscribe and unsubscribe, an
administration command may delete a topic, and the heartbeat check ends the subscriptions of a
connection. Nothing else changes the topic manager of a running broker.
-/

namespace ProtoMsgQueue

open UnorderedMap TopicManager

variable {α : Type*}

/-- One change of a topic manager by a broker, other than a subscription. -/
inductive TopicManagerCall (tm : TopicManager) : TopicManager → Prop where
  | selects {tm'} (h : Selects tm tm') : TopicManagerCall tm tm'
  | unsubscribe (topic : TopicName) (subscriberId : SubscriberId) (groupId : String) :
      TopicManagerCall tm (tm.unsubscribe topic subscriberId groupId).1
  | unregisterTopic (topic : TopicName) : TopicManagerCall tm (tm.unregisterTopic topic).1
  | unsubscribeByConnId (connId : ConnectionId) :
      TopicManagerCall tm (tm.unsubscribeByConnId connId).1

/-- Groups stay stored under their names. -/
theorem TopicManagerCall.keyed {tm tm' : TopicManager} (hcall : TopicManagerCall tm tm')
    (h : tm.Keyed) : tm'.Keyed := by
  cases hcall with
  | selects hselects => exact h.selects hselects
  | unsubscribe topic subscriberId groupId =>
    exact h.of_groupsFrom (groupsFrom_unsubscribe tm topic subscriberId groupId)
  | unregisterTopic topic => exact h.of_groupsFrom (groupsFrom_unregisterTopic tm topic)
  | unsubscribeByConnId connId =>
    exact h.of_groupsFrom (groupsFrom_unsubscribeByConnId tm connId)

/-- No list of subscribers gets longer. -/
theorem TopicManagerCall.subscribersOf_subset {tm tm' : TopicManager}
    (hcall : TopicManagerCall tm tm') (topic : TopicName) (group : Option String) :
    tm'.subscribersOf topic group ⊆ tm.subscribersOf topic group := by
  cases hcall with
  | selects hselects =>
    rw [hselects.subscribersOf_eq]
    exact List.Subset.refl _
  | unsubscribe topic' subscriberId groupId =>
    rw [subscribersOf_unsubscribe]
    split
    · exact List.filter_sublist.subset
    · exact List.Subset.refl _
  | unregisterTopic topic' =>
    rw [subscribersOf_unregisterTopic]
    split
    · exact List.nil_subset _
    · exact List.Subset.refl _
  | unsubscribeByConnId connId =>
    rw [subscribersOf_unsubscribeByConnId]
    exact List.filter_sublist.subset

namespace Broker

/-- The members that get a message are selected one after the other. -/
theorem selects_selectTargets (topic : TopicName) (groups : List ConsumerGroup)
    (tm : TopicManager) : Selects tm (selectTargets topic groups tm).1 := by
  induction groups generalizing tm with
  | nil => exact .refl tm
  | cons group groups ih =>
    rw [selectTargets]
    split
    · exact ih tm
    · dsimp only
      split <;> exact (ih _).head

theorem selects_pushTopics (env : HandlerEnv)
    (topicMessages : UnorderedMap TopicName (List StoredMessage)) (topics : List TopicName)
    (b : Broker α) :
    Selects b.topicManager (pushTopics env topicMessages topics b).1.topicManager := by
  induction topics generalizing b with
  | nil => exact .refl _
  | cons topic topics ih =>
    exact (selects_selectTargets topic _ b.topicManager).trans
      (ih (b.pushTopic env topic (valueAt topicMessages topic [])).1)

variable [TokenCount α] (lib : Libraries)

/-- A publish request selects members of groups. -/
theorem selects_handlePublish (b : Broker α) (connId : ConnectionId)
    (parsed : Option PublishRequest) (env : HandlerEnv) :
    Selects b.topicManager (b.handlePublish lib connId parsed env).1.topicManager := by
  rcases parsed with - | req
  · exact .refl _
  have houtcome := b.publishOutcome lib connId req env
  generalize b.handlePublish lib connId (some req) env = out at houtcome ⊢
  cases houtcome with
  | duplicate | refused => exact .refl _
  | admitted =>
    rw [storePublish]
    dsimp only
    split
    · exact .refl _
    · rw [topicManager_markProcessed]
      exact selects_selectTargets req.topic _ b.topicManager

/-- A batch selects members of groups. -/
theorem selects_handleBatchPublish (b : Broker α) (connId : ConnectionId)
    (parsed : Option BatchPublishRequest) (env : HandlerEnv) :
    Selects b.topicManager (b.handleBatchPublish lib connId parsed env).1.topicManager := by
  rcases parsed with - | req
  · exact .refl _
  have houtcome := b.batchOutcome lib connId req env
  generalize b.handleBatchPublish lib connId (some req) env = out at houtcome ⊢
  cases houtcome with
  | empty | refused | tooLarge => exact .refl _
  | @admitted limiters globalLimiter =>
    rcases storeBatchPublish_cases lib _ connId req.messages env with ⟨-, -, heq⟩ | ⟨-, heq⟩
    · rw [heq]
      exact .refl _
    · rw [heq]
      exact selects_pushTopics env _ _
        { b with store := _, publishLimiters := limiters, globalPublishLimiter := globalLimiter }

omit [TokenCount α] in
/-- An administration command may delete a topic. -/
theorem topicManager_handleAdmin (b : Broker α) (connId : ConnectionId)
    (parsed : Option AdminRequest) (env : HandlerEnv) :
    (b.handleAdmin connId parsed env).1.topicManager = b.topicManager ∨
      ∃ topic, (b.handleAdmin connId parsed env).1.topicManager =
        (b.topicManager.unregisterTopic topic).1 := by
  rcases parsed with - | ⟨command, topic⟩
  · exact Or.inl rfl
  cases command with
  | deleteTopic =>
    simp only [handleAdmin]
    split
    · exact Or.inl rfl
    · exact Or.inr ⟨topic, rfl⟩
  | getTopicInfo | cleanupTopic =>
    simp only [handleAdmin]
    split <;> exact Or.inl rfl
  | _ => exact Or.inl rfl

/-- Is this step a subscription with this request? -/
def IsSubscription (op : BrokerOp) (connId : ConnectionId) (req : SubscribeRequest) : Prop :=
  ∃ frame env, op = .frame connId frame env ∧ frame.msgType = .subscribe ∧
    lib.parseSubscribeRequest frame.payload = some req

/-- **One step** of a broker is a subscription, or changes its topic manager by one call. -/
theorem topicManager_step (b : Broker α) (op : BrokerOp) :
    TopicManagerCall b.topicManager ((broker α lib).step b op).1.topicManager ∨
      ∃ connId req, IsSubscription lib op connId req ∧
        ((broker α lib).step b op).1.topicManager =
          (b.topicManager.subscribe req.topic ⟨req.subscriberId, connId⟩ req.groupId).1 := by
  have hrefl : TopicManagerCall b.topicManager b.topicManager := .selects (.refl _)
  cases op with
  | frame connId frame env =>
    have houtcome := b.frameOutcome lib connId frame env
    generalize (broker α lib).step b (.frame connId frame env) = out at houtcome ⊢
    cases houtcome with
    | publish => exact Or.inl (.selects (b.selects_handlePublish lib connId _ env))
    | batchPublish => exact Or.inl (.selects (b.selects_handleBatchPublish lib connId _ env))
    | subscribe htype =>
      cases hparse : lib.parseSubscribeRequest frame.payload with
      | none => exact Or.inl hrefl
      | some req => exact Or.inr ⟨connId, req, ⟨frame, env, rfl, htype, hparse⟩, rfl⟩
    | unsubscribe =>
      refine Or.inl ?_
      cases lib.parseUnsubscribeRequest frame.payload with
      | none => exact hrefl
      | some req => exact .unsubscribe req.topic req.subscriberId req.groupId
    | pull => cases lib.parsePullRequest frame.payload <;> exact Or.inl hrefl
    | ack => cases lib.parseAckRequest frame.payload <;> exact Or.inl hrefl
    | admin =>
      refine Or.inl ?_
      rcases topicManager_handleAdmin b connId (lib.parseAdminRequest frame.payload) env
        with heq | ⟨topic, heq⟩
      · rw [heq]
        exact hrefl
      · rw [heq]
        exact .unregisterTopic topic
    | batchDisabled | ping | pingIgnored | unknown => exact Or.inl hrefl
  | connectionClosed connId => exact Or.inl (.unsubscribeByConnId connId)
  | _ => exact Or.inl hrefl

/-- A step keeps all groups under their names. -/
theorem keyed_step {b : Broker α} (h : b.topicManager.Keyed) (op : BrokerOp) :
    ((broker α lib).step b op).1.topicManager.Keyed := by
  rcases b.topicManager_step lib op with hcall | ⟨connId, req, -, heq⟩
  · exact hcall.keyed h
  · rw [heq]
    exact h.of_groupsFrom (groupsFrom_subscribe _ req.topic _ req.groupId)

theorem keyed_ofConfig (config : BrokerConfig) (store : StoreConfig) (steadyNow : ℤ) :
    (ofConfig config store steadyNow : Broker α).topicManager.Keyed := by
  intro topic groupId group hlookup
  cases hlookup

/-- In every run all groups are stored under their names. -/
theorem keyed_run (config : BrokerConfig) (store : StoreConfig) (steadyNow : ℤ)
    (ops : List BrokerOp) :
    ((broker α lib).run (ofConfig config store steadyNow) ops).topicManager.Keyed :=
  StepMachine.run_induction _ (P := fun b : Broker α => b.topicManager.Keyed)
    (keyed_ofConfig config store steadyNow) (fun _ op h => keyed_step lib h op) ops

/-! ### A subscription on the wire -/

/-- Parsers that know one subscription of subscriber `c` to topic `t`. -/
def subscribeLibraries : Libraries where
  parsePublishRequest _ := none
  parseBatchPublishRequest _ := none
  parseSubscribeRequest
    | [10, 1, 116, 18, 1, 99] => some { topic := "t", subscriberId := "c" }
    | _ => none
  parseUnsubscribeRequest _ := none
  parsePullRequest _ := none
  parseAckRequest _ := none
  parseAdminRequest _ := none
  compress2 _ := none

/-- The frame of the subscription. -/
def subscribeFrame : Frame := { msgType := .subscribe, payload := [10, 1, 116, 18, 1, 99] }

end Broker

end ProtoMsgQueue
