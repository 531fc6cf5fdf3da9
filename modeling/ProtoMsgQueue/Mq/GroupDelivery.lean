import ProtoMsgQueue.Mq.GroupFrames

/-!
# One delivery for a consumer group

A group gets the messages of a topic by pushes, to a member that the topic manager selects, and
by pulls, from the offset that the store keeps for it. The two do not know of each other: a push
does not move the offset. So a group gets a message twice iff it was pushed to the group and a
later pull of the group reaches it.
-/

namespace ProtoMsgQueue

open UnorderedMap TopicManager MemoryMessageStore

namespace Broker

variable {α : Type*} [TokenCount α] (lib : Libraries)

/-! ### What a group gets -/

/-- What was pushed to the group. -/
def pushedTo (t : TopicName) (g : String) (H : List (BrokerEvent α)) : List MessageId :=
  H.flatMap fun e => deliveredTo t g (e.pre.pushedFrames lib e.input)

/-- What the group pulled. -/
def pulledTo (t : TopicName) (g : String) (H : List (BrokerEvent α)) : List MessageId :=
  H.flatMap fun e => deliveredTo t g (e.pre.pulledFrames lib e.input)

/-- The messages of a topic that were delivered for the group, in order. -/
def deliveries (t : TopicName) (g : String) (H : List (BrokerEvent α)) : List MessageId :=
  H.flatMap fun e => deliveredTo t g (e.pre.groupFrames lib e.input)

/-- The number of messages that were offered to the store. -/
def offered (H : List (BrokerEvent α)) : ℕ :=
  (H.flatMap fun e => e.pre.storeOps lib e.input).countP StoreOp.isPublish

/-- In the step no topic is deleted and no pending entry times out. -/
def Calm (e : BrokerEvent α) : Bool :=
  (e.pre.storeOps lib e.input).all fun op =>
    match op with
    | .deleteTopic _ => false
    | .onTopic topic (.retryPass clock order) =>
      (TopicData.duePass e.pre.store.config clock order (e.pre.store.topicAt topic)).isEmpty
    | _ => true

/-- The step is a pull of the group that reaches a message which was pushed to the group. -/
def PullsPushed (t : TopicName) (g : String) (H : List (BrokerEvent α)) (e : BrokerEvent α) :
    Bool :=
  (e.pre.storeOps lib e.input).any fun op =>
    match op with
    | .onTopic topic (.pull c maxMessages nowMs _) =>
      topic = t && c = ⟨true, g⟩ && (pushedTo lib t g H).any fun id =>
        (e.pre.store.topicAt t).reaches c maxMessages nowMs id
    | _ => false

/-! ### One step -/

omit [TokenCount α] in
/-- The identifiers on a topic, without the payloads. -/
theorem idsOn_map_stored (t : TopicName) (stored : List StoredRequest)
    (payloadOf : PublishRequest → Payload) :
    idsOn t (stored.map fun r => (r.req.topic, r.msgId, payloadOf r.req)) =
      (((stored.map fun r => (r.req.topic, r.msgId)).filter fun p => p.1 = t).map Prod.snd) := by
  rw [idsOn, List.filter_map, List.filter_map, List.map_map, List.map_map]
  rfl

omit [TokenCount α] in
/-- The pushes of stored requests, one after the other. -/
theorem deliveredTo_flatMap_publishPushes_sublist (b : Broker α) (hkeyed : b.topicManager.Keyed)
    (env : HandlerEnv) (t : TopicName) (g : String) (stored : List StoredRequest) :
    (deliveredTo t g (stored.flatMap fun r => publishPushes r.req (b.compressPayload lib r.req).1
      (b.compressPayload lib r.req).2 r.msgId env b.topicManager)).Sublist
        (((stored.map fun r => (r.req.topic, r.msgId)).filter fun p => p.1 = t).map Prod.snd) := by
  induction stored with
  | nil => exact .slnil
  | cons r stored ih =>
    have hfirst := deliveredTo_publishPushes_sublist hkeyed r.req (b.compressPayload lib r.req).1
      (b.compressPayload lib r.req).2 r.msgId env t g
    rw [List.flatMap_cons, deliveredTo_append, List.map_cons]
    by_cases htopic : r.req.topic = t
    · rw [if_pos htopic] at hfirst
      rw [List.filter_cons_of_pos (by simpa using htopic), List.map_cons]
      exact hfirst.append ih
    · rw [if_neg htopic, List.sublist_nil] at hfirst
      rw [List.filter_cons_of_neg (by simpa using htopic), hfirst, List.nil_append]
      exact ih

/-- What a step pushes to a group are messages it stored. -/
theorem deliveredTo_pushedFrames_sublist (b : Broker α) (hkeyed : b.topicManager.Keyed)
    (op : BrokerOp) (t : TopicName) (g : String) :
    (deliveredTo t g (b.pushedFrames lib op)).Sublist
      (idsOn t (((broker α lib).step b op).2.stored.map fun r =>
        (r.req.topic, r.msgId, b.storedPayload lib op r.req))) := by
  cases op with
  | frame connId frame env =>
    rw [pushedFrames]
    split
    · rename_i hpublish
      rw [step_publish lib b connId env hpublish, idsOn_map_stored]
      exact b.deliveredTo_flatMap_publishPushes_sublist lib hkeyed env t g _
    split
    · rename_i hbatch
      rw [step_batchPublish lib b connId env hbatch]
      rcases lib.parseBatchPublishRequest frame.payload with - | req
      · exact List.nil_sublist _
      dsimp only
      split
      · have hstored := b.map_stored_handleBatchPublish lib connId req env
        simp only [storedPayload]
        rw [hstored, idsOn, List.filter_map, List.map_map]
        refine (deliveredTo_topicsPushes_sublist b.batchPush env _ ?_ t g
          (env.batchOrder.nodup_visit _) _ hkeyed).trans ?_
        · intro topic msg hmsg
          rw [valueAt_groupByTopic] at hmsg
          exact of_decide_eq_true (List.mem_filter.mp hmsg).2
        · rw [valueAt_groupByTopic]
          split
          · exact List.Sublist.refl _
          · exact List.nil_sublist _
      · exact List.nil_sublist _
    · exact List.nil_sublist _
  | _ => exact List.nil_sublist _

omit [TokenCount α] in
/-- A pull sends what the store returns, for the group of the request. -/
theorem deliveredTo_pullFrames (b : Broker α) (connId : ConnectionId) (req : PullRequest)
    (env : HandlerEnv) (t : TopicName) (g : String) :
    deliveredTo t g ((b.pullFrames req env).map fun pulled =>
        ⟨if req.groupId = "" then none else some req.groupId, connId, pulled⟩) =
      StoreEvent.pulledBy t ⟨true, g⟩ (messageStore.event b.store (.onTopic req.topic
        (.pull (consumerOf req.subscriberId req.groupId) req.maxMessages env.pullNowMs
          env.pulledAt))) := by
  set msgs := (b.store.pull req.topic (consumerOf req.subscriberId req.groupId) req.maxMessages
    env.pullNowMs env.pulledAt).2 with hmsgs
  have hreturned : StoreEvent.pulledBy t ⟨true, g⟩ (messageStore.event b.store (.onTopic req.topic
      (.pull (consumerOf req.subscriberId req.groupId) req.maxMessages env.pullNowMs
        env.pulledAt))) = if req.topic = t ∧ consumerOf req.subscriberId req.groupId = ⟨true, g⟩ then
          msgs.map StoredMessage.id else [] := rfl
  have hmessages : (b.pullFrames req env).flatMap OutFrame.messages =
      msgs.map fun msg => PushMessage.ofStored msg req.topic false := by
    rw [pullFrames]
    split
    · exact List.append_nil _
    · rw [List.flatMap_map]
      exact List.flatMap_singleton' _
  have htag : (if req.groupId = "" then none else some req.groupId) = some g ↔
      consumerOf req.subscriberId req.groupId = ⟨true, g⟩ := by
    rw [consumerOf]
    split <;> simp
  have hframes := deliveredTo_flatMap t g
    [(if req.groupId = "" then none else some req.groupId, connId)] (b.pullFrames req env)
  rw [List.flatMap_singleton] at hframes
  rw [hframes, hreturned, hmessages]
  by_cases hgroup : consumerOf req.subscriberId req.groupId = ⟨true, g⟩
  · rw [List.filter_cons_of_pos (by simpa using htag.mpr hgroup), List.filter_nil,
      List.flatMap_singleton]
    by_cases htopic : req.topic = t
    · rw [if_pos ⟨htopic, hgroup⟩, List.filter_eq_self.mpr (by simp [PushMessage.ofStored, htopic]),
        List.map_map]
      rfl
    · rw [if_neg fun h => htopic h.1,
        List.filter_eq_nil_iff.mpr (by simp [PushMessage.ofStored, htopic]), List.map_nil]
  · rw [List.filter_cons_of_neg (by simpa using fun h => hgroup (htag.mp h)), List.filter_nil,
      if_neg fun h => hgroup h.2]
    rfl

/-- An administration command that deletes nothing leaves the store alone. -/
theorem adminOps_eq_nil {parsed : Option AdminRequest}
    (hdelete : ∀ topic, .deleteTopic topic ∉ adminOps parsed) : adminOps parsed = [] := by
  rcases parsed with - | ⟨command, topic⟩
  · rfl
  cases command with
  | deleteTopic | cleanupTopic =>
    simp only [adminOps] at hdelete ⊢
    by_cases htopic : topic = ""
    · rw [if_pos htopic]
    · rw [if_neg htopic] at hdelete
      exact absurd List.mem_cons_self (hdelete topic)
  | _ => rfl

/-- What a frame that pulls nothing makes of the store: publishes, or one operation. -/
theorem frameOps_cases (b : Broker α) (connId : ConnectionId) {frame : Frame} (env : HandlerEnv)
    (hpull : frame.msgType ≠ .pull)
    (hdelete : ∀ topic, .deleteTopic topic ∉ b.frameOps lib connId frame env) :
    (∀ op ∈ b.frameOps lib connId frame env, op.isPublish = true) ∨
      ∃ op, b.frameOps lib connId frame env = [op] ∧
        ∀ t c store, StoreEvent.pulledBy t c (messageStore.event store op) = [] := by
  have hnil : ∀ op ∈ ([] : List StoreOp), op.isPublish = true := by simp
  rw [frameOps] at hdelete ⊢
  by_cases hpublish : frame.msgType = .publish
  · rw [if_pos hpublish]
    left
    rcases lib.parsePublishRequest frame.payload with - | req
    · exact hnil
    dsimp only
    split
    · intro op hop
      rw [List.mem_singleton.mp hop]
      rfl
    · exact hnil
  rw [if_neg hpublish] at hdelete ⊢
  by_cases hbatch : frame.msgType = .batchPublish
  · rw [if_pos hbatch]
    left
    rcases lib.parseBatchPublishRequest frame.payload with - | req
    · exact hnil
    dsimp only
    split
    · intro op hop
      obtain ⟨n, _, rfl⟩ := List.exists_of_mem_mapIdx hop
      rfl
    · exact hnil
  rw [if_neg hbatch] at hdelete ⊢
  by_cases hsubscribe : frame.msgType = .subscribe
  · rw [if_pos hsubscribe]
    rcases lib.parseSubscribeRequest frame.payload with - | req
    · exact Or.inl hnil
    dsimp only
    split
    · exact Or.inr ⟨_, rfl, fun _ _ _ => rfl⟩
    · exact Or.inl hnil
  rw [if_neg hsubscribe, if_neg hpull] at hdelete ⊢
  by_cases hack : frame.msgType = .ack
  · rw [if_pos hack]
    rcases lib.parseAckRequest frame.payload with - | req
    · exact Or.inl hnil
    · exact Or.inr ⟨_, rfl, fun _ _ _ => rfl⟩
  rw [if_neg hack] at hdelete ⊢
  by_cases hadmin : frame.msgType = .admin
  · rw [if_pos hadmin] at hdelete ⊢
    rw [adminOps_eq_nil hdelete]
    exact Or.inl hnil
  · rw [if_neg hadmin]
    exact Or.inl hnil

/-- What a step makes of the store: publishes, or one operation whose messages are sent. -/
theorem storeOps_cases (b : Broker α) (op : BrokerOp)
    (hdelete : ∀ topic, .deleteTopic topic ∉ b.storeOps lib op) (t : TopicName) (g : String) :
    (∀ op' ∈ b.storeOps lib op, op'.isPublish = true) ∧
        deliveredTo t g (b.pulledFrames lib op) = [] ∨
      ∃ op', b.storeOps lib op = [op'] ∧ deliveredTo t g (b.pulledFrames lib op) =
        StoreEvent.pulledBy t ⟨true, g⟩ (messageStore.event b.store op') := by
  cases op with
  | frame connId frame env =>
    by_cases hpull : frame.msgType = .pull
    · have hne : ∀ msgType, msgType ≠ .pull → frame.msgType ≠ msgType := by
        rintro _ hne rfl
        exact hne hpull
      rw [storeOps, frameOps, if_neg (hne .publish (by decide)),
        if_neg (hne .batchPublish (by decide)), if_neg (hne .subscribe (by decide)),
        if_pos hpull, pulledFrames, if_pos hpull]
      rcases lib.parsePullRequest frame.payload with - | req
      · exact Or.inl ⟨by simp, rfl⟩
      · exact Or.inr ⟨_, rfl, b.deliveredTo_pullFrames connId req env t g⟩
    · rw [pulledFrames, if_neg hpull]
      rcases b.frameOps_cases lib connId env hpull hdelete with hpublish | ⟨op', hop', hnone⟩
      · exact Or.inl ⟨hpublish, rfl⟩
      · exact Or.inr ⟨op', hop', (hnone t ⟨true, g⟩ b.store).symm⟩
  | publishLocal topic payload env =>
    refine Or.inl ⟨fun op' hop' => ?_, rfl⟩
    rw [List.mem_singleton.mp hop']
    rfl
  | retryPass topic clock order => exact Or.inr ⟨_, rfl, rfl⟩
  | expirePass topic nowMs => exact Or.inr ⟨_, rfl, rfl⟩
  | _ => exact Or.inl ⟨by simp [storeOps], rfl⟩

/-! ### Whole runs -/

theorem pushedTo_concat (t : TopicName) (g : String) (H : List (BrokerEvent α))
    (e : BrokerEvent α) : pushedTo lib t g (H ++ [e]) =
      pushedTo lib t g H ++ deliveredTo t g (e.pre.pushedFrames lib e.input) := by
  simp [pushedTo]

omit [TokenCount α] in
theorem pulledTo_concat (t : TopicName) (g : String) (H : List (BrokerEvent α))
    (e : BrokerEvent α) : pulledTo lib t g (H ++ [e]) =
      pulledTo lib t g H ++ deliveredTo t g (e.pre.pulledFrames lib e.input) := by
  simp [pulledTo]

/-- A step only adds to what was pushed and pulled. -/
theorem pushed_pulled_sublist_concat (t : TopicName) (g : String) (H : List (BrokerEvent α))
    (e : BrokerEvent α) : (pushedTo lib t g H ++ pulledTo lib t g H).Sublist
      (pushedTo lib t g (H ++ [e]) ++ pulledTo lib t g (H ++ [e])) := by
  rw [pushedTo_concat, pulledTo_concat]
  exact (List.sublist_append_left _ _).append (List.sublist_append_left _ _)

theorem offered_append (H H' : List (BrokerEvent α)) :
    offered lib (H ++ H') = offered lib H + offered lib H' := by
  rw [offered, List.flatMap_append, List.countP_append]
  rfl

theorem offered_concat (H : List (BrokerEvent α)) (e : BrokerEvent α) :
    offered lib (H ++ [e]) =
      offered lib H + (e.pre.storeOps lib e.input).countP StoreOp.isPublish := by
  rw [offered_append, offered, offered, List.flatMap_singleton]

/-- The deliveries are the pushes and the pulls, in the order of the steps. -/
theorem deliveries_perm (t : TopicName) (g : String) (H : List (BrokerEvent α)) :
    (deliveries lib t g H).Perm (pushedTo lib t g H ++ pulledTo lib t g H) := by
  induction H with
  | nil => exact .nil
  | cons e H ih =>
    have hhead : deliveredTo t g (e.pre.groupFrames lib e.input) =
        deliveredTo t g (e.pre.pushedFrames lib e.input) ++
          deliveredTo t g (e.pre.pulledFrames lib e.input) := deliveredTo_append t g _ _
    rw [deliveries, pushedTo, pulledTo, List.flatMap_cons, List.flatMap_cons, List.flatMap_cons,
      hhead, List.append_assoc, List.append_assoc]
    refine List.Perm.append_left _ ((List.Perm.append_left _ ih).trans ?_)
    rw [← List.append_assoc, ← List.append_assoc]
    exact List.perm_append_comm.append_right _

/-- What holds of a group as long as it got nothing twice. -/
structure GroupOnce (config : StoreConfig) (t : TopicName) (g : String)
    (H : List (BrokerEvent α)) (b : Broker α) : Prop where
  config_eq : b.store.config = config
  keyed : b.topicManager.Keyed
  reached : b.store.TopicsReached (offered lib H)
  once : (b.store.topicAt t).HandedOnce ⟨true, g⟩ (pushedTo lib t g H) (pulledTo lib t g H)

/-- **Step.** A calm step that pulls nothing which was pushed to the group. -/
theorem GroupOnce.step {config : StoreConfig}
    (hbuffer : config.defaultBufferSize ≤ kMaxPayloadSize) {t : TopicName} {g : String}
    {H : List (BrokerEvent α)} {b : Broker α} (h : GroupOnce lib config t g H b) (op : BrokerOp)
    (hcalm : Calm lib ((broker α lib).event b op) = true)
    (hoffered : offered lib (H ++ [(broker α lib).event b op]) < 2 ^ 64 - 2)
    (hpulls : PullsPushed lib t g H ((broker α lib).event b op) = false) :
    GroupOnce lib config t g (H ++ [(broker α lib).event b op]) ((broker α lib).step b op).1 := by
  obtain ⟨hstore, hpublished⟩ := b.store_step lib op
  have hpushed := b.deliveredTo_pushedFrames_sublist lib h.keyed op t g
  rw [← hpublished] at hpushed
  rw [offered_concat] at hoffered
  have hconfig := h.config_eq
  have hcalm' := List.all_eq_true.mp hcalm
  have hpulls' := List.any_eq_false.mp hpulls
  refine ⟨?_, keyed_step lib h.keyed op, ?_, ?_⟩
  · rw [hstore, config_run, hconfig]
  · rw [hstore, offered_concat]
    exact topicsReached_run h.reached _
  rw [hstore, pushedTo_concat, pulledTo_concat]
  have hdelete : ∀ topic, .deleteTopic topic ∉ b.storeOps lib op := by
    intro topic hmem
    cases hcalm' _ hmem
  rcases b.storeOps_cases lib op hdelete t g with ⟨hops, hpulled⟩ | ⟨op', hop', hpulled⟩
  · -- messages are stored and pushed
    have hcount : (b.storeOps lib op).countP StoreOp.isPublish = (b.storeOps lib op).length :=
      List.countP_eq_length.mpr hops
    have honce := handedOnce_publishes h.once h.reached (hconfig ▸ hbuffer) hops (hcount ▸ hoffered)
    rw [StepMachine.event_pre, StepMachine.event_input, hpulled, List.append_nil]
    exact honce.of_sublist hpushed
  · -- one operation, which may be a pull
    have hmem : op' ∈ b.storeOps lib op := by
      rw [hop']
      exact List.mem_singleton_self op'
    rw [hop', published?_trace_singleton] at hpushed
    rw [StepMachine.event_pre, StepMachine.event_input, hpulled, hop']
    have honce := handedOnce_step h.once h.reached (hconfig ▸ hbuffer)
      ((Nat.le_add_right _ _).trans_lt hoffered) op' ?_ ?_ ?_
    · exact honce.of_sublist hpushed
    · rintro rfl
      exact hdelete t hmem
    · rintro clock order rfl
      exact List.isEmpty_iff.mp (hcalm' _ hmem)
    · rintro maxMessages nowMs steadyNow rfl id hid
      have hnot := hpulls' _ hmem
      simp only [decide_true, Bool.true_and, List.any_eq_true, not_exists, not_and] at hnot
      exact Bool.eq_false_iff.mpr (hnot id hid)

/-- **Converse of the step.** A pull that reaches a pushed message hands it out again. -/
theorem GroupOnce.not_nodup {config : StoreConfig}
    (hbuffer : config.defaultBufferSize ≤ kMaxPayloadSize) {t : TopicName} {g : String}
    {H : List (BrokerEvent α)} {b : Broker α} (h : GroupOnce lib config t g H b) (op : BrokerOp)
    (hcalm : Calm lib ((broker α lib).event b op) = true)
    (hoffered : offered lib H < 2 ^ 64 - 2)
    (hpulls : PullsPushed lib t g H ((broker α lib).event b op) = true) :
    ¬(pushedTo lib t g (H ++ [(broker α lib).event b op]) ++
      pulledTo lib t g (H ++ [(broker α lib).event b op])).Nodup := by
  have hdelete : ∀ topic, .deleteTopic topic ∉ b.storeOps lib op := by
    intro topic hmem
    cases List.all_eq_true.mp hcalm _ hmem
  obtain ⟨op', hmem, hop'⟩ := List.any_eq_true.mp hpulls
  -- the operation is a pull of the group
  obtain ⟨maxMessages, nowMs, steadyNow, rfl, id, hid, hreaches⟩ : ∃ maxMessages nowMs steadyNow,
      op' = .onTopic t (.pull ⟨true, g⟩ maxMessages nowMs steadyNow) ∧
        ∃ id ∈ pushedTo lib t g H,
          (b.store.topicAt t).reaches ⟨true, g⟩ maxMessages nowMs id = true := by
    split at hop'
    · rename_i topic c maxMessages nowMs steadyNow
      simp only [Bool.and_eq_true, decide_eq_true_eq, List.any_eq_true] at hop'
      obtain ⟨⟨rfl, rfl⟩, id, hid, hreaches⟩ := hop'
      exact ⟨maxMessages, nowMs, steadyNow, rfl, id, hid, hreaches⟩
    · cases hop'
  have hpulled : id ∈ deliveredTo t g (b.pulledFrames lib op) := by
    rcases b.storeOps_cases lib op hdelete t g with ⟨hops, -⟩ | ⟨op', hop', hpulled⟩
    · cases hops _ hmem
    rw [StepMachine.event_pre, StepMachine.event_input, hop', List.mem_singleton] at hmem
    rw [hpulled, ← hmem]
    exact mem_pulledBy_of_reaches h.once.queue h.reached (h.config_eq ▸ hbuffer) hoffered hreaches
  intro hnodup
  rw [pushedTo_concat, pulledTo_concat] at hnodup
  exact (List.nodup_append.mp hnodup).2.2 id (List.mem_append_left _ hid) id
    (List.mem_append_right _ hpulled) rfl

/-- **At most once**, exactly if no pull reaches a pushed message. In every run without deleted
topics and timed-out entries a message of a topic is delivered for a group at most once, by
push or by pull, iff no pull of the group reaches a message that was pushed to the group. -/
theorem nodup_deliveries_iff (config : BrokerConfig) (store : StoreConfig)
    (hbuffer : store.defaultBufferSize ≤ kMaxPayloadSize) (steadyNow : ℤ) (ops : List BrokerOp)
    (hcalm : (broker α lib).Along (fun _ e => Calm lib e = true)
      (ofConfig config store steadyNow) ops)
    (hoffered : offered lib ((broker α lib).trace (ofConfig config store steadyNow) ops) <
      2 ^ 64 - 2) (t : TopicName) (g : String) :
    (deliveries lib t g ((broker α lib).trace (ofConfig config store steadyNow) ops)).Nodup ↔
      (broker α lib).Along (fun H e => PullsPushed lib t g H e = false)
        (ofConfig config store steadyNow) ops := by
  rw [(deliveries_perm lib t g _).nodup_iff]
  have hstart : GroupOnce lib store t g [] (ofConfig config store steadyNow : Broker α) := by
    refine ⟨rfl, keyed_ofConfig config store steadyNow, topicsReached_ofConfig store, ?_⟩
    exact TopicData.handedOnce_ofName _ t store.defaultBufferSize
  -- along the run the bound on the offered messages holds at every step
  have hbound : ∀ ops : List BrokerOp,
      offered lib ((broker α lib).trace (ofConfig config store steadyNow) ops) < 2 ^ 64 - 2 →
        (broker α lib).Along (fun H e => offered lib (H ++ [e]) < 2 ^ 64 - 2)
          (ofConfig config store steadyNow) ops := by
    intro ops hoffered before e after hsplit
    rw [hsplit, List.append_cons, offered_append] at hoffered
    exact (Nat.le_add_right _ _).trans_lt hoffered
  have honce : ∀ ops : List BrokerOp,
      (broker α lib).Along (fun _ e => Calm lib e = true) (ofConfig config store steadyNow) ops →
      offered lib ((broker α lib).trace (ofConfig config store steadyNow) ops) < 2 ^ 64 - 2 →
      (broker α lib).Along (fun H e => PullsPushed lib t g H e = false)
        (ofConfig config store steadyNow) ops →
      GroupOnce lib store t g ((broker α lib).trace (ofConfig config store steadyNow) ops)
        ((broker α lib).run (ofConfig config store steadyNow) ops) := by
    intro ops hcalm hoffered hpulls
    refine (broker α lib).history_induction_along (P := GroupOnce lib store t g)
      (C := fun H e => Calm lib e = true ∧ offered lib (H ++ [e]) < 2 ^ 64 - 2 ∧
        PullsPushed lib t g H e = false) hstart ?_ ?_
    · intro H b op h hstep
      exact h.step lib hbuffer op hstep.1 hstep.2.1 hstep.2.2
    · intro before e after hsplit
      exact ⟨hcalm before e after hsplit, hbound ops hoffered before e after hsplit,
        hpulls before e after hsplit⟩
  constructor
  · intro hnodup
    induction ops using List.reverseRecOn with
    | nil => exact (broker α lib).along_nil _ _
    | append_singleton ops op ih =>
      rw [StepMachine.trace_concat] at hnodup hoffered
      have hcalm' := (broker α lib).along_concat.mp hcalm
      rw [offered_append] at hoffered
      have hoffered' := (Nat.le_add_right _ _).trans_lt hoffered
      have hbefore := hnodup.sublist (pushed_pulled_sublist_concat lib t g _ _)
      have hpre := ih hcalm'.1 hoffered' hbefore
      refine (broker α lib).along_concat.mpr ⟨hpre, Bool.eq_false_iff.mpr fun hpulls => ?_⟩
      exact (honce ops hcalm'.1 hoffered' hpre).not_nodup lib hbuffer op hcalm'.2 hoffered' hpulls
        hnodup
  · intro hpulls
    exact (honce ops hcalm hoffered hpulls).once.nodup

/-! ### Runs on the wire -/

/-- Parsers that know a subscription of `c` to topic `t` in group `g`, a message for `t` and a
pull of `c` for the group. -/
def groupLibraries : Libraries where
  parsePublishRequest
    | [10, 1, 116, 18, 1, 97] => some { topic := "t", payload := [97] }
    | _ => none
  parseBatchPublishRequest _ := none
  parseSubscribeRequest
    | [10, 1, 116, 18, 1, 99, 26, 1, 103] =>
      some { topic := "t", subscriberId := "c", groupId := "g" }
    | _ => none
  parseUnsubscribeRequest _ := none
  parsePullRequest
    | [10, 1, 116, 18, 1, 99, 26, 1, 103, 32, 10] =>
      some { topic := "t", subscriberId := "c", groupId := "g", maxMessages := 10 }
    | _ => none
  parseAckRequest _ := none
  parseAdminRequest _ := none
  compress2 _ := none

/-- The frame of the subscription. -/
def joinFrame : Frame :=
  { msgType := .subscribe, payload := [10, 1, 116, 18, 1, 99, 26, 1, 103] }

/-- The frame of the message. -/
def messageFrame : Frame := { msgType := .publish, payload := [10, 1, 116, 18, 1, 97] }

/-- The frame of the pull. -/
def groupPullFrame : Frame :=
  { msgType := .pull, payload := [10, 1, 116, 18, 1, 99, 26, 1, 103, 32, 10] }

/-- A message is pulled by the group before anyone joins it, and the next one is pushed. -/
def pullThenPushRun : List BrokerOp := [
  .frame 2 messageFrame (.ofClocks 0 0), .frame 1 groupPullFrame (.ofClocks 1000000 1),
  .frame 1 joinFrame (.ofClocks 2000000 2), .frame 2 messageFrame (.ofClocks 3000000 3)]

/-- A message is pushed to the member of the group, which pulls afterwards. -/
def pushThenPullRun : List BrokerOp := [
  .frame 1 joinFrame (.ofClocks 0 0), .frame 2 messageFrame (.ofClocks 1000000 1),
  .frame 1 groupPullFrame (.ofClocks 2000000 2)]

/-- What is pushed after the pulls of the group is delivered once. -/
theorem nodup_deliveries_pullThenPush :
    (deliveries groupLibraries "t" "g" ((broker ℚ groupLibraries).trace
      (ofConfig {} { defaultBufferSize := 128 } 0) pullThenPushRun)).Nodup := by
  refine (nodup_deliveries_iff groupLibraries {} { defaultBufferSize := 128 } (by decide) 0
    pullThenPushRun ?_ ?_ "t" "g").mpr ?_
  · exact StepMachine.along_of_forall_mem _ (by decide +kernel)
  · decide +kernel
  · rw [StepMachine.along_iff_getElem]
    decide +kernel

/-- A message that was pushed to the group is pulled by it once more. -/
theorem not_nodup_deliveries_pushThenPull :
    (broker ℚ groupLibraries).Along (fun _ e => Calm groupLibraries e = true)
        (ofConfig {} { defaultBufferSize := 128 } 0) pushThenPullRun ∧
      ¬(deliveries groupLibraries "t" "g" ((broker ℚ groupLibraries).trace
        (ofConfig {} { defaultBufferSize := 128 } 0) pushThenPullRun)).Nodup :=
  ⟨StepMachine.along_of_forall_mem _ (by decide +kernel), by decide +kernel⟩

end Broker

end ProtoMsgQueue
