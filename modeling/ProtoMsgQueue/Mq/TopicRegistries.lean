import ProtoMsgQueue.Mq.GroupDelivery
import ProtoMsgQueue.Mq.Registry

/-!
# The two registries of topics

The store and the topic manager of a broker each keep their own topics. A successful
subscription makes a topic in both and its deletion removes it from both; a publish and a
cleanup make it in the store alone. `registries_agree_iff` says that the two agree throughout a
run exactly when every topic that a step makes in the store alone is known to the manager.
-/

namespace ProtoMsgQueue

open UnorderedMap TopicManager

/-! ### Topics of the store -/

namespace MemoryMessageStore

/-- An operation on a topic makes it if it publishes. -/
theorem mem_topics_onTopic (store : MemoryMessageStore) (topic : TopicName) (op : TopicOp)
    (t : TopicName) : t ∈ (messageStore.step store (.onTopic topic op)).1.topics ↔
      op.isPublish = true ∧ t = topic ∨ t ∈ store.topics := by
  by_cases hmade : topic ∈ store.topics ∨ op.isPublish = true
  · have hinsert : ∃ td, (messageStore.step store (.onTopic topic op)).1.topics =
        store.topics.insert topic td := by
      rcases hlookup : store.topics.lookup topic with - | td
      · cases op with
        | publish payload ttlMs expiryNowMs nowMs =>
          exact ⟨_, (step_publish_new hlookup payload ttlMs expiryNowMs nowMs).1⟩
        | _ => exact absurd (hmade.resolve_right nofun) (AList.lookup_eq_none.mp hlookup)
      · exact ⟨_, (step_onTopic hlookup op).1⟩
    obtain ⟨td, hinsert⟩ := hinsert
    rw [hinsert, AList.mem_insert]
    constructor
    · rintro (rfl | hmem)
      · exact hmade.symm.imp (fun hpublish => ⟨hpublish, rfl⟩) id
      · exact Or.inr hmem
    · exact Or.imp_left And.right
  · rw [step_onTopic_unmade hmade]
    rw [not_or] at hmade
    exact ⟨Or.inr, fun h => h.resolve_left fun hpublish => hmade.2 hpublish.1⟩

theorem mem_topics_createTopic (store : MemoryMessageStore) (topic t : TopicName) :
    t ∈ (store.createTopic topic).1.topics ↔ t = topic ∨ t ∈ store.topics := by
  rw [createTopic]
  split
  · rename_i hmem
    exact ⟨Or.inr, fun h => h.elim (fun heq => heq ▸ hmem) id⟩
  · exact AList.mem_insert _

theorem mem_topics_deleteTopic (store : MemoryMessageStore) (topic t : TopicName) :
    t ∈ (store.deleteTopic topic).1.topics ↔ t ≠ topic ∧ t ∈ store.topics := by
  rw [deleteTopic]
  split
  · exact AList.mem_erase
  · rename_i hmem
    exact ⟨fun h => ⟨fun heq => hmem (heq ▸ h), h⟩, And.right⟩

/-- Publishes make their topics. -/
theorem mem_topics_run_publishes {ops : List StoreOp} (hops : ∀ op ∈ ops, op.isPublish = true)
    (store : MemoryMessageStore) (t : TopicName) :
    t ∈ (messageStore.run store ops).topics ↔
      (∃ top, .onTopic t top ∈ ops) ∨ t ∈ store.topics := by
  induction ops generalizing store with
  | nil => exact ⟨Or.inr, fun h => h.resolve_left fun ⟨_, hmem⟩ => nomatch hmem⟩
  | cons op ops ih =>
    rw [StepMachine.run_cons, ih fun op hop => hops op (List.mem_cons_of_mem _ hop)]
    have hpublish := hops op List.mem_cons_self
    cases op with
    | onTopic topic top =>
      have hpublish : top.isPublish = true := hpublish
      rw [mem_topics_onTopic]
      simp only [hpublish, true_and, List.mem_cons, StoreOp.onTopic.injEq, exists_or,
        exists_and_left, exists_eq, and_true]
      tauto
    | _ => cases hpublish

end MemoryMessageStore

/-! ### Topics of the manager -/

namespace TopicManager

theorem Selects.topics_eq {tm tm' : TopicManager} (h : Selects tm tm') : tm'.topics = tm.topics := by
  induction h with
  | refl => rfl
  | tail _ hstep ih =>
    obtain ⟨topic, groupId, rfl⟩ := hstep
    rw [topics_selectNextMember, ih]

/-- Every known topic is stored under its name. -/
def TopicsNamed (tm : TopicManager) : Prop :=
  ∀ topic info, tm.topics.lookup topic = some info → info.name = topic

/-- A loop over the topics finds the known names. -/
theorem TopicsNamed.mem_names {tm : TopicManager} (h : tm.TopicsNamed)
    (order : VisitOrder TopicName TopicInfo) (topic : TopicName) :
    topic ∈ (tm.getAllTopics order).map TopicInfo.name ↔ tm.hasTopic topic = true := by
  rw [getAllTopics, List.mem_map, hasTopic, decide_eq_true_iff]
  constructor
  · rintro ⟨info, hmem, rfl⟩
    obtain ⟨t, -, hlookup⟩ := List.mem_filterMap.mp hmem
    rw [h t info hlookup]
    exact mem_iff_exists_lookup.mpr ⟨info, hlookup⟩
  · intro hmem
    obtain ⟨info, hlookup⟩ := mem_iff_exists_lookup.mp hmem
    exact ⟨info, List.mem_filterMap.mpr ⟨topic, (order.mem_visit _ _).mpr hmem, hlookup⟩,
      h topic info hlookup⟩

/-- Every topic with a subscription is known, and stored under its name. -/
structure Registered (tm : TopicManager) : Prop where
  refines : ∃ r, Refines tm r
  named : tm.TopicsNamed

theorem TopicsNamed.subscribe {tm : TopicManager} (h : tm.TopicsNamed) (topic : TopicName)
    (sub : SubscriberInfo) (groupId : String) : (tm.subscribe topic sub groupId).1.TopicsNamed := by
  intro t info hlookup
  rw [topics_subscribe, touch] at hlookup
  split at hlookup
  · exact h t info hlookup
  rcases eq_or_ne t topic with rfl | hne
  · rw [AList.lookup_insert] at hlookup
    rw [← Option.some.inj hlookup]
  · rw [AList.lookup_insert_ne hne] at hlookup
    exact h t info hlookup

theorem Registered.subscribe {tm : TopicManager} (h : tm.Registered) (topic : TopicName)
    (sub : SubscriberInfo) (groupId : String) : (tm.subscribe topic sub groupId).1.Registered := by
  obtain ⟨r, hr⟩ := h.refines
  exact ⟨⟨_, (hr.subscribe topic sub groupId).1⟩, h.named.subscribe topic sub groupId⟩

theorem Registered.selects {tm tm' : TopicManager} (h : tm.Registered) (hselects : Selects tm tm') :
    tm'.Registered := by
  refine ⟨?_, fun topic info hlookup => h.named topic info (hselects.topics_eq ▸ hlookup)⟩
  induction hselects with
  | refl => exact h.refines
  | tail _ hstep ih =>
    obtain ⟨topic, groupId, rfl⟩ := hstep
    obtain ⟨r, hr⟩ := ih
    exact ⟨r, hr.selectNextMember topic groupId⟩

theorem Registered.call {tm tm' : TopicManager} (h : tm.Registered)
    (hcall : TopicManagerCall tm tm') : tm'.Registered := by
  obtain ⟨r, hr⟩ := h.refines
  cases hcall with
  | selects hselects => exact h.selects hselects
  | unsubscribe topic subscriberId groupId =>
    refine ⟨⟨_, (hr.unsubscribe topic subscriberId groupId).1⟩, fun t info hlookup => ?_⟩
    rw [topics_unsubscribe] at hlookup
    exact h.named t info hlookup
  | unregisterTopic topic =>
    refine ⟨⟨_, hr.unregisterTopic topic⟩, fun t info hlookup => ?_⟩
    rw [TopicManager.unregisterTopic] at hlookup
    rcases eq_or_ne t topic with rfl | hne
    · rw [AList.lookup_erase] at hlookup
      cases hlookup
    · rw [AList.lookup_erase_ne hne] at hlookup
      exact h.named t info hlookup
  | unsubscribeByConnId connId => exact ⟨⟨_, (hr.unsubscribeByConnId connId).1⟩, h.named⟩

/-- A subscription that exists is one to a known topic. -/
theorem Registered.mem_of_not_subscribe {tm : TopicManager} (h : tm.Registered)
    {topic : TopicName} {sub : SubscriberInfo} {groupId : String}
    (hfailed : (tm.subscribe topic sub groupId).2 = false) : topic ∈ tm.topics := by
  obtain ⟨r, hr⟩ := h.refines
  rw [(hr.subscribe topic sub groupId).2, Registry.subscribe] at hfailed
  split at hfailed
  · rename_i hmem
    obtain ⟨s, hs, hkey⟩ := List.mem_map.mp hmem
    have htopic : s.topic = topic := congrArg Prod.fst hkey
    rw [hr.mem_topics, ← htopic]
    exact r.registered s hs
  · cases hfailed

end TopicManager

/-! ### One step -/

namespace Broker

variable {α : Type*}

/-- What a step does to the registries, and the topics it makes in the store alone. -/
inductive TopicsStep (b b' : Broker α) : List TopicName → Prop where
  | made (topics : List TopicName)
      (hstore : ∀ t, t ∈ b'.store.topics ↔ t ∈ topics ∨ t ∈ b.store.topics)
      (hmanager : ∀ t, t ∈ b'.topicManager.topics ↔ t ∈ b.topicManager.topics) :
      TopicsStep b b' topics
  | registered (topic : TopicName)
      (hstore : ∀ t, t ∈ b'.store.topics ↔ t = topic ∨ t ∈ b.store.topics)
      (hmanager : ∀ t, t ∈ b'.topicManager.topics ↔ t = topic ∨ t ∈ b.topicManager.topics) :
      TopicsStep b b' []
  | deleted (topic : TopicName)
      (hstore : ∀ t, t ∈ b'.store.topics ↔ t ≠ topic ∧ t ∈ b.store.topics)
      (hmanager : ∀ t, t ∈ b'.topicManager.topics ↔ t ≠ topic ∧ t ∈ b.topicManager.topics) :
      TopicsStep b b' []

/-- A step that changes neither. -/
theorem TopicsStep.of_same {b b' : Broker α}
    (hstore : ∀ t, t ∈ b'.store.topics ↔ t ∈ b.store.topics)
    (hmanager : b'.topicManager.topics = b.topicManager.topics) : TopicsStep b b' [] := by
  refine .made [] (fun t => ?_) fun t => by rw [hmanager]
  rw [hstore, or_iff_right List.not_mem_nil]

theorem TopicsStep.refl (b : Broker α) : TopicsStep b b [] := .of_same (fun _ => Iff.rfl) rfl

/-- The store and the topic manager know the same topics. -/
def RegistriesAgree (b : Broker α) : Prop :=
  ∀ topic, b.store.hasTopic topic = b.topicManager.hasTopic topic

theorem registriesAgree_iff {b : Broker α} :
    b.RegistriesAgree ↔ ∀ t, t ∈ b.store.topics ↔ t ∈ b.topicManager.topics :=
  forall_congr' fun _ => decide_eq_decide

/-- Registries that agree still do after a step iff the topics made in the store are known. -/
theorem TopicsStep.agree_iff {b b' : Broker α} {topics : List TopicName}
    (h : TopicsStep b b' topics) (hagree : b.RegistriesAgree) :
    b'.RegistriesAgree ↔ ∀ t ∈ topics, b.topicManager.hasTopic t = true := by
  rw [registriesAgree_iff] at hagree ⊢
  simp only [hasTopic, decide_eq_true_iff]
  cases h with
  | made _ hstore hmanager =>
    simp only [hstore, hmanager, hagree]
    exact forall_congr' fun t => or_iff_right_iff_imp
  | registered topic hstore hmanager =>
    simp only [hstore, hmanager, hagree]
    exact iff_of_true (fun _ => trivial) nofun
  | deleted topic hstore hmanager =>
    simp only [hstore, hmanager, hagree]
    exact iff_of_true (fun _ => trivial) nofun

variable [TokenCount α] (lib : Libraries)

/-- The topics a step publishes to or cleans up: those it makes in the store alone. -/
def madeTopics (b : Broker α) : BrokerOp → List TopicName
  | .frame connId frame env =>
    if frame.msgType = .publish then
      match lib.parsePublishRequest frame.payload with
      | none => []
      | some req => if b.admitsPublish connId req env then [req.topic] else []
    else if frame.msgType = .batchPublish then
      match lib.parseBatchPublishRequest frame.payload with
      | none => []
      | some req =>
        if b.configManager.globalConfig.batchPublishEnabled &&
            b.admitsMessages connId req.messages env then
          req.messages.map PublishRequest.topic
        else []
    else if frame.msgType = .admin then
      match lib.parseAdminRequest frame.payload with
      | some ⟨.cleanupTopic, topic⟩ => if topic = "" then [] else [topic]
      | _ => []
    else []
  | .publishLocal topic _ _ => [topic]
  | _ => []

/-- A publish request makes its topic in the store. -/
theorem topicsStep_handlePublish (b : Broker α) (connId : ConnectionId) (req : PublishRequest)
    (env : HandlerEnv) :
    TopicsStep b (b.handlePublish lib connId (some req) env).1
      (if b.admitsPublish connId req env then [req.topic] else []) := by
  have hmanager := (b.selects_handlePublish lib connId (some req) env).topics_eq
  refine .made _ (fun t => ?_) fun t => by rw [hmanager]
  rw [(b.handlePublish_ops lib connId req env).1]
  split
  · rw [StepMachine.run_cons, StepMachine.run_nil, publishOp,
      MemoryMessageStore.mem_topics_onTopic, List.mem_singleton]
    exact or_congr_left (and_iff_right rfl)
  · rw [StepMachine.run_nil, or_iff_right List.not_mem_nil]

/-- A batch makes its topics in the store. -/
theorem topicsStep_handleBatchPublish (b : Broker α) (connId : ConnectionId)
    (req : BatchPublishRequest) (env : HandlerEnv) :
    TopicsStep b (b.handleBatchPublish lib connId (some req) env).1
      (if b.admitsMessages connId req.messages env then req.messages.map PublishRequest.topic
        else []) := by
  have hmanager := (b.selects_handleBatchPublish lib connId (some req) env).topics_eq
  refine .made _ (fun t => ?_) fun t => by rw [hmanager]
  rw [(b.handleBatchPublish_ops lib connId req env).1]
  split
  · have hops : ∀ op ∈ req.messages.mapIdx fun n msg => b.publishOp lib msg env n,
        op.isPublish = true := by
      intro op hop
      obtain ⟨n, hn, rfl⟩ := List.mem_mapIdx.mp hop
      rfl
    rw [MemoryMessageStore.mem_topics_run_publishes hops]
    refine or_congr_left ?_
    rw [List.mem_map]
    constructor
    · rintro ⟨top, hmem⟩
      obtain ⟨n, hn, heq⟩ := List.mem_mapIdx.mp hmem
      exact ⟨req.messages[n], List.getElem_mem hn, (StoreOp.onTopic.inj heq).1⟩
    · rintro ⟨msg, hmem, rfl⟩
      obtain ⟨n, hn, rfl⟩ := List.getElem_of_mem hmem
      exact ⟨_, List.mem_mapIdx.mpr ⟨n, hn, rfl⟩⟩
  · rw [StepMachine.run_nil, or_iff_right List.not_mem_nil]

omit [TokenCount α] in
/-- A subscription makes its topic in both. -/
theorem topicsStep_handleSubscribe {b : Broker α} (h : b.topicManager.Registered)
    (connId : ConnectionId) (parsed : Option SubscribeRequest) :
    TopicsStep b (b.handleSubscribe connId parsed).1 [] := by
  rcases parsed with - | req
  · exact .refl b
  have htopics := b.topicManager.topics_subscribe req.topic ⟨req.subscriberId, connId⟩ req.groupId
  rw [handleSubscribe]
  dsimp only
  split
  · refine .registered req.topic (fun t => b.store.mem_topics_createTopic req.topic t) fun t => ?_
    rw [htopics, mem_touch]
  · rename_i hfailed
    have hmem := h.mem_of_not_subscribe (Bool.eq_false_iff.mpr hfailed)
    refine .of_same (fun _ => Iff.rfl) ?_
    rw [htopics, touch, if_pos hmem]

omit [TokenCount α] in
/-- A command deletes a topic from both, or makes it in the store. -/
theorem topicsStep_handleAdmin (b : Broker α) (connId : ConnectionId) (parsed : Option AdminRequest)
    (env : HandlerEnv) :
    TopicsStep b (b.handleAdmin connId parsed env).1
      (match parsed with
      | some ⟨.cleanupTopic, topic⟩ => if topic = "" then [] else [topic]
      | _ => []) := by
  rcases parsed with - | ⟨command, topic⟩
  · exact .refl b
  cases command with
  | getTopicInfo =>
    simp only [handleAdmin]
    split <;> exact .refl b
  | deleteTopic =>
    simp only [handleAdmin]
    split
    · exact .refl b
    · exact .deleted topic (b.store.mem_topics_deleteTopic topic) fun t => AList.mem_erase
  | cleanupTopic =>
    simp only [handleAdmin]
    split
    · exact .refl b
    · refine .made _ (fun t => ?_) fun t => Iff.rfl
      rw [MemoryMessageStore.mem_topics_createTopic, MemoryMessageStore.mem_topics_deleteTopic,
        List.mem_singleton]
      tauto
  | _ => exact .refl b

/-- **One step** on the two registries. -/
theorem topicsStep {b : Broker α} (h : b.topicManager.Registered) (op : BrokerOp) :
    TopicsStep b ((broker α lib).step b op).1 (b.madeTopics lib op) := by
  -- Operations on a topic other than a publish make none.
  have honTopic : ∀ topic (top : TopicOp), top.isPublish = false → ∀ t,
      t ∈ (messageStore.step b.store (.onTopic topic top)).1.topics ↔ t ∈ b.store.topics := by
    intro topic top hpublish t
    rw [MemoryMessageStore.mem_topics_onTopic, hpublish]
    exact or_iff_right nofun
  cases op with
  | frame connId frame env =>
    have houtcome := b.frameOutcome lib connId frame env
    simp only [madeTopics]
    generalize (broker α lib).step b (.frame connId frame env) = out at houtcome ⊢
    cases houtcome with
    | publish htype =>
      rw [htype]
      cases lib.parsePublishRequest frame.payload with
      | none => exact .refl b
      | some req => exact b.topicsStep_handlePublish lib connId req env
    | batchPublish htype henabled =>
      rw [htype, henabled]
      cases lib.parseBatchPublishRequest frame.payload with
      | none => exact .refl b
      | some req => exact b.topicsStep_handleBatchPublish lib connId req env
    | batchDisabled htype hdisabled =>
      rw [htype, hdisabled]
      cases lib.parseBatchPublishRequest frame.payload <;> exact .refl b
    | subscribe htype =>
      rw [htype]
      exact topicsStep_handleSubscribe h connId _
    | unsubscribe htype =>
      rw [htype]
      cases lib.parseUnsubscribeRequest frame.payload with
      | none => exact .refl b
      | some req =>
        exact .of_same (fun _ => Iff.rfl)
          (b.topicManager.topics_unsubscribe req.topic req.subscriberId req.groupId)
    | pull htype =>
      rw [htype]
      cases lib.parsePullRequest frame.payload with
      | none => exact .refl b
      | some req => exact .of_same (honTopic req.topic (.pull _ _ _ _) rfl) rfl
    | ack htype =>
      rw [htype]
      cases lib.parseAckRequest frame.payload with
      | none => exact .refl b
      | some req => exact .of_same (honTopic req.topic (.ack _ _) rfl) rfl
    | ping htype | pingIgnored htype =>
      rw [htype]
      exact .refl b
    | admin htype =>
      rw [htype]
      exact b.topicsStep_handleAdmin connId _ env
    | unknown htype =>
      simp only [FrameMessageType.handled, List.mem_cons, not_or] at htype
      simp only [htype, if_false]
      exact .refl b
  | publishLocal topic payload env =>
    refine .made [topic] (fun t => ?_) fun _ => Iff.rfl
    rw [List.mem_singleton]
    exact (b.store.mem_topics_onTopic topic (.publish payload 0 _ _) t).trans
      (or_congr_left (and_iff_right rfl))
  | retryPass topic clock order => exact .of_same (honTopic topic (.retryPass clock order) rfl) rfl
  | expirePass topic nowMs => exact .of_same (honTopic topic (.expirePass nowMs) rfl) rfl
  | _ => exact .of_same (fun _ => Iff.rfl) rfl

/-! ### Every run -/

theorem registered_step {b : Broker α} (h : b.topicManager.Registered) (op : BrokerOp) :
    ((broker α lib).step b op).1.topicManager.Registered := by
  rcases b.topicManager_step lib op with hcall | ⟨connId, req, -, heq⟩
  · exact h.call hcall
  · rw [heq]
    exact h.subscribe req.topic _ req.groupId

theorem registered_ofConfig (config : BrokerConfig) (store : StoreConfig) (steadyNow : ℤ) :
    (ofConfig config store steadyNow : Broker α).topicManager.Registered :=
  ⟨⟨_, (refines_run []).1⟩, nofun⟩

/-- The names a command reports are the topics of the store, if the registries agree. -/
def ReportsStore (b : Broker α) : Prop :=
  ∀ order topic, topic ∈ (b.topicManager.getAllTopics order).map TopicInfo.name ↔
    b.store.hasTopic topic = true

/-- **Exactly the known topics.** The store and the topic manager know the same topics, and the
commands report them, throughout a run iff every topic that a step of it publishes to or cleans
up is known to the manager before the step. -/
theorem registries_agree_iff (config : BrokerConfig) (store : StoreConfig) (steadyNow : ℤ)
    (ops : List BrokerOp) :
    (broker α lib).Always (fun _ b => b.RegistriesAgree ∧ b.ReportsStore)
        (ofConfig config store steadyNow) ops ↔
      (broker α lib).Along (fun _ e => ∀ topic ∈ e.pre.madeTopics lib e.input,
        e.pre.topicManager.hasTopic topic = true) (ofConfig config store steadyNow) ops := by
  have hreports : ∀ b : Broker α, b.topicManager.Registered →
      (b.RegistriesAgree ∧ b.ReportsStore ↔ b.RegistriesAgree) := by
    refine fun b hb => and_iff_left_of_imp fun hagree order topic => ?_
    rw [hb.named.mem_names order topic, hagree topic]
  have hinit := registered_ofConfig (α := α) config store steadyNow
  refine (broker α lib).always_iff_along (J := fun _ b => b.topicManager.Registered)
    (A := fun _ _ => True) hinit ?_ (fun _ b op hb _ => registered_step lib hb op) ?_
    fun _ _ _ _ => trivial
  · exact (hreports _ hinit).mpr fun topic => rfl
  · intro _ b op hb _ hagree
    rw [hreports _ (registered_step lib hb op)]
    exact (topicsStep lib hb op).agree_iff hagree.1

/-- A message for a topic without subscribers makes a topic that no command reports. -/
theorem not_registriesAgree_publish :
    ¬(broker ℚ groupLibraries).Always (fun _ b => b.RegistriesAgree)
      (ofConfig {} { defaultBufferSize := 128 } 0) [.frame 2 messageFrame (.ofClocks 0 0)] := by
  intro h
  exact absurd (StepMachine.Always.run _ h "t") (by decide +kernel)

end Broker

end ProtoMsgQueue
