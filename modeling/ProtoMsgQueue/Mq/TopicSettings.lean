import Mathlib.Data.UInt
import ProtoMsgQueue.Mq.BatchReplies
import ProtoMsgQueue.Mq.TopicManagerCalls

/-!
# Which settings take effect

The configuration manager holds global settings and those of topics, and a topic's setting is to
override the global one. `ttlMsFor`, `ringBufferSizeFor` and `compressionFor` say what the
configuration asks for. The broker asks less often: it reads the time to live from the request
alone, the store has one size for all new ring buffers, and `shouldCompress` looks for the setting
of a topic in the topic manager, where none is ever set. `settings_apply_iff` says for which
messages of a run this comes to the same.
-/

namespace ProtoMsgQueue

open UnorderedMap

/-! ### What the configuration asks for -/

/-- A setting, or the default where the setting is zero. -/
def orDefault {β : Type*} [Zero β] [DecidableEq β] (setting default : β) : β :=
  if setting = 0 then default else setting

theorem orDefault_eq_zero_iff {β : Type*} [Zero β] [DecidableEq β] {setting default : β} :
    orDefault setting default = 0 ↔ setting = 0 ∧ default = 0 := by
  rw [orDefault]
  split
  · next h => rw [and_iff_right h]
  · next h => exact iff_of_false h fun h' => h h'.1

namespace ConfigManager

variable (manager : ConfigManager)

/-- How long a message of a topic is to live: as long as its request says, else as the topic's
default, else as the global one. Zero is forever. -/
def ttlMsFor (topic : TopicName) (ttlMs : UInt32) : UInt32 :=
  orDefault ttlMs
    (orDefault (manager.getTopicConfig topic).defaultTtlMs manager.globalConfig.defaultTtlMs)

/-- When a message of a topic that is published at `nowMs` is to expire. Zero is never. -/
def expiresAtFor (topic : TopicName) (ttlMs : UInt32) (nowMs : UInt64) : ℕ :=
  if manager.ttlMsFor topic ttlMs = 0 then 0
  else nowMs.toNat + (manager.ttlMsFor topic ttlMs).toNat

/-- The size of the ring buffer of a new topic. -/
def ringBufferSizeFor (topic : TopicName) : UInt64 :=
  orDefault (manager.getTopicConfig topic).ringBufferSize
    manager.globalConfig.defaultRingBufferSize

/-- Is a topic to compress? -/
def compressionFor (topic : TopicName) : Bool :=
  if manager.hasTopicConfig topic then (manager.getTopicConfig topic).compressionEnabled
  else manager.globalConfig.compressionEnabled

/-- The expiry by the request alone is the one asked for iff the request says how long and that is
in range, or nothing does. -/
theorem expiresAt_eq_iff (topic : TopicName) (ttlMs : UInt32) (nowMs : UInt64) :
    TopicData.expiresAt ttlMs nowMs = manager.expiresAtFor topic ttlMs nowMs ↔
      if ttlMs = 0 then
        (manager.getTopicConfig topic).defaultTtlMs = 0 ∧ manager.globalConfig.defaultTtlMs = 0
      else nowMs.toNat + ttlMs.toNat < 2 ^ 64 := by
  rw [TopicData.expiresAt, expiresAtFor, ttlMsFor]
  by_cases hzero : ttlMs = 0
  · -- the request asks for nothing, so no default may ask for more
    rw [hzero, if_neg (UInt32.lt_irrefl 0), if_pos rfl, orDefault, if_pos rfl,
      ← orDefault_eq_zero_iff]
    split
    · next h => exact iff_of_true rfl h
    · next h =>
      rw [← UInt32.toNat_inj, UInt32.toNat_zero] at h
      refine iff_of_false ?_ (fun h' => h (by rw [h', UInt32.toNat_zero]))
      omega
  · rw [if_pos (UInt32.pos_iff_ne_zero.mpr hzero), if_neg hzero, orDefault, if_neg hzero,
      if_neg hzero]
    omega

/-- One size for all is the one asked for iff the setting that decides says so. -/
theorem ringBufferSizeFor_eq_iff (topic : TopicName) (size : UInt64) :
    manager.ringBufferSizeFor topic = size ↔
      if (manager.getTopicConfig topic).ringBufferSize = 0 then
        manager.globalConfig.defaultRingBufferSize = size
      else (manager.getTopicConfig topic).ringBufferSize = size := by
  rw [ringBufferSizeFor, orDefault]
  split <;> exact Iff.rfl

/-- The global setting is the one asked for iff the topic's does not differ. -/
theorem compressionFor_eq_iff (topic : TopicName) :
    manager.globalConfig.compressionEnabled = manager.compressionFor topic ↔
      (manager.hasTopicConfig topic = true →
        (manager.getTopicConfig topic).compressionEnabled =
          manager.globalConfig.compressionEnabled) := by
  rw [compressionFor]
  split
  · next hset => rw [forall_prop_of_true hset, eq_comm]
  · next hset => exact iff_of_true rfl fun h => absurd h hset

end ConfigManager

/-! ### The topic manager's own settings -/

namespace TopicManager

theorem topicConfigs_subscribe (tm : TopicManager) (topic : TopicName) (sub : SubscriberInfo)
    (groupId : String) : (tm.subscribe topic sub groupId).1.topicConfigs = tm.topicConfigs := by
  unfold subscribe
  dsimp only
  split <;> split <;> rfl

theorem topicConfigs_unsubscribe (tm : TopicManager) (topic : TopicName)
    (subscriberId : SubscriberId) (groupId : String) :
    (tm.unsubscribe topic subscriberId groupId).1.topicConfigs = tm.topicConfigs := by
  unfold unsubscribe
  split
  · split
    · rfl
    · split <;> rfl
  split
  · rfl
  split
  · rfl
  · split <;> rfl

theorem topicConfigs_selectNextMember (tm : TopicManager) (topic : TopicName) (groupId : String) :
    (tm.selectNextMember topic groupId).1.topicConfigs = tm.topicConfigs := by
  unfold selectNextMember
  split
  · rfl
  split
  · rfl
  dsimp only
  split <;> rfl

theorem Selects.topicConfigs_eq {tm tm' : TopicManager} (h : Selects tm tm') :
    tm'.topicConfigs = tm.topicConfigs := by
  induction h with
  | refl => rfl
  | tail _ hstep ih =>
    obtain ⟨topic, groupId, rfl⟩ := hstep
    rw [topicConfigs_selectNextMember, ih]

end TopicManager

/-- No call of a broker sets a topic's configuration in its topic manager. -/
theorem TopicManagerCall.topicConfigs_eq {tm tm' : TopicManager} (hcall : TopicManagerCall tm tm') :
    tm'.topicConfigs = tm.topicConfigs := by
  cases hcall with
  | selects hselects => exact hselects.topicConfigs_eq
  | unsubscribe topic subscriberId groupId => exact tm.topicConfigs_unsubscribe _ _ _
  | unregisterTopic topic => rfl
  | unsubscribeByConnId connId => rfl

/-! ### Messages in the store -/

/-- The message that an operation on the store puts into a topic, if any. -/
def StoreEvent.stored? (s : StoreEvent) : Option StoredMessage :=
  match s.input, s.output with
  | .onTopic topic op, .onTopic result => acceptedMessage ⟨s.pre.topicAt topic, op, result⟩
  | _, _ => none

/-- The topic that an operation on the store leaves. -/
def StoreEvent.topicAfter (s : StoreEvent) (t : TopicName) : TopicData :=
  (messageStore.step s.pre s.input).1.topicAt t

namespace Broker

variable {α : Type*} [TokenCount α] (lib : Libraries)

/-- The settings take effect on a message that is published at `nowMs`: what is stored expires as
it is to, the ring buffer of a topic it creates has the size it is to have, with one more cell, and
a payload that is not compressed and not too small is compressed if it is to be. -/
structure Configured (b : Broker α) (req : PublishRequest) (nowMs : UInt64) (s : StoreEvent) :
    Prop where
  expiresAt : b.configManager.globalConfig.ttlEnabled = true → ∀ m ∈ s.stored?,
    m.expiresAt = b.configManager.expiresAtFor req.topic req.ttlMs nowMs
  ringBuffer : req.topic ∉ s.pre.topics → (s.topicAfter req.topic).ringBuffer.capacity =
    (b.configManager.ringBufferSizeFor req.topic).toNat + 1
  compression : req.compressed = false →
    b.configManager.globalConfig.compressionThresholdBytes.toNat ≤ req.payload.length →
      b.shouldCompress req.topic req.payload.length = b.configManager.compressionFor req.topic

/-- **The condition** on a message, where the store was made for ring buffers of this size.

A message that finds room has a time to live of its own and expires within the range of the clock,
or there is no default. The setting of a topic that is new is that size. The setting of a topic
whose payloads are long enough is the global one. -/
structure SettingsAgree (b : Broker α) (size : UInt64) (req : PublishRequest) (nowMs : UInt64)
    (store : MemoryMessageStore) : Prop where
  ttl : b.configManager.globalConfig.ttlEnabled = true →
    (store.roomAt req.topic).accepts (b.compressPayload lib req).1 = true →
      if req.ttlMs = 0 then
        (b.configManager.getTopicConfig req.topic).defaultTtlMs = 0 ∧
          b.configManager.globalConfig.defaultTtlMs = 0
      else nowMs.toNat + req.ttlMs.toNat < 2 ^ 64
  ringBuffer : req.topic ∉ store.topics →
    if (b.configManager.getTopicConfig req.topic).ringBufferSize = 0 then
      b.configManager.globalConfig.defaultRingBufferSize = size
    else (b.configManager.getTopicConfig req.topic).ringBufferSize = size
  compression : req.compressed = false →
    b.configManager.globalConfig.compressionThresholdBytes.toNat ≤ req.payload.length →
      b.configManager.hasTopicConfig req.topic = true →
        (b.configManager.getTopicConfig req.topic).compressionEnabled =
          b.configManager.globalConfig.compressionEnabled

/-! ### One message -/

variable {b : Broker α} {size : UInt64} {store : MemoryMessageStore}

omit [TokenCount α] in
/-- The broker stores a message if there is room, and takes the time to live from its request. -/
theorem stored?_publishOp (req : PublishRequest) (env : HandlerEnv) (n : ℕ) :
    StoreEvent.stored? (messageStore.event store (b.publishOp lib req env n)) =
      if (store.roomAt req.topic).accepts (b.compressPayload lib req).1 then
        some ⟨(store.roomAt req.topic).nextMsgId, "", (b.compressPayload lib req).1,
          (env.publishNowMs n).toNat, 0,
          TopicData.expiresAt (b.requestTtlMs req) (env.expiryNowMs n)⟩
      else none := by
  have haccepts := (store.publish_roomAt req.topic (b.compressPayload lib req).1
    (b.requestTtlMs req) (env.expiryNowMs n) (env.publishNowMs n)).2.1
  rw [← haccepts]
  exact acceptedMessage_publish store.config (store.topicAt req.topic) _ _ _ _

omit [TokenCount α] in
/-- A topic that a message creates has a ring buffer of the size the store was made for. -/
theorem capacity_topicAfter_publishOp {req : PublishRequest} (hnew : req.topic ∉ store.topics)
    (env : HandlerEnv) (n : ℕ) :
    (StoreEvent.topicAfter (messageStore.event store (b.publishOp lib req env n))
      req.topic).ringBuffer.capacity = store.config.defaultBufferSize + 1 := by
  have htopic : store.topicAt req.topic = store.newTopic req.topic := by
    rw [MemoryMessageStore.topicAt, AList.lookup_eq_none.mpr hnew, Option.getD_none]
  have hafter := (@MemoryMessageStore.topicAt_step_onTopic store req.topic (.publish
    (b.compressPayload lib req).1 (b.requestTtlMs req) (env.expiryNowMs n) (env.publishNowMs n))
    (Or.inr rfl)).1
  rw [htopic] at hafter
  rw [StoreEvent.topicAfter, StepMachine.event_pre, StepMachine.event_input, publishOp, hafter]
  exact SpscRingBuffer.push_capacity _ _

omit [TokenCount α] in
/-- Without settings in the topic manager the global one decides. -/
theorem shouldCompress_of_topicConfigs (hconfigs : b.topicManager.topicConfigs = ∅)
    (topic : TopicName) {payloadSize : ℕ}
    (hsize : b.configManager.globalConfig.compressionThresholdBytes.toNat ≤ payloadSize) :
    b.shouldCompress topic payloadSize = b.configManager.globalConfig.compressionEnabled := by
  have hconfig : b.topicManager.getTopicConfig topic = {} := by
    rw [TopicManager.getTopicConfig, hconfigs]
    rfl
  rw [shouldCompress, hconfig]
  dsimp only
  rw [if_neg hsize.not_gt]
  cases b.configManager.globalConfig.compressionEnabled <;> rfl

omit [TokenCount α] in
/-- **One message.** In a broker whose topic manager has no settings, the settings take effect on a
message iff they agree with what the broker goes by. -/
theorem configured_iff (hstore : store.config.defaultBufferSize = size.toNat)
    (hconfigs : b.topicManager.topicConfigs = ∅) (req : PublishRequest) (env : HandlerEnv) (n : ℕ) :
    Configured b req (env.expiryNowMs n) (messageStore.event store (b.publishOp lib req env n)) ↔
      SettingsAgree lib b size req (env.expiryNowMs n) store := by
  have hexpiresAt (httl : b.configManager.globalConfig.ttlEnabled = true) :
      (∀ m ∈ StoreEvent.stored? (messageStore.event store (b.publishOp lib req env n)),
        m.expiresAt = b.configManager.expiresAtFor req.topic req.ttlMs (env.expiryNowMs n)) ↔
      ((store.roomAt req.topic).accepts (b.compressPayload lib req).1 = true →
        TopicData.expiresAt req.ttlMs (env.expiryNowMs n) =
          b.configManager.expiresAtFor req.topic req.ttlMs (env.expiryNowMs n)) := by
    rw [stored?_publishOp, requestTtlMs, if_pos httl]
    split
    · next hroom => simp [hroom]
    · next hroom => simp [hroom]
  have hringBuffer (hnew : req.topic ∉ store.topics) :
      (StoreEvent.topicAfter (messageStore.event store (b.publishOp lib req env n))
        req.topic).ringBuffer.capacity = (b.configManager.ringBufferSizeFor req.topic).toNat + 1 ↔
      b.configManager.ringBufferSizeFor req.topic = size := by
    rw [capacity_topicAfter_publishOp lib hnew, hstore, Nat.add_right_cancel_iff,
      UInt64.toNat_inj, eq_comm]
  have hcompression (hsize : b.configManager.globalConfig.compressionThresholdBytes.toNat ≤
      req.payload.length) := shouldCompress_of_topicConfigs hconfigs req.topic hsize
  constructor
  · rintro ⟨hm, hcapacity, hcompress⟩
    refine ⟨fun httl hroom => ?_, fun hnew => ?_, fun hplain hsize => ?_⟩
    · exact (ConfigManager.expiresAt_eq_iff _ _ _ _).mp ((hexpiresAt httl).mp (hm httl) hroom)
    · exact (ConfigManager.ringBufferSizeFor_eq_iff _ _ _).mp
        ((hringBuffer hnew).mp (hcapacity hnew))
    · exact (ConfigManager.compressionFor_eq_iff _ _).mp
        ((hcompression hsize).symm.trans (hcompress hplain hsize))
  · rintro ⟨hm, hcapacity, hcompress⟩
    refine ⟨fun httl => ?_, fun hnew => ?_, fun hplain hsize => ?_⟩
    · refine (hexpiresAt httl).mpr fun hroom => ?_
      exact (ConfigManager.expiresAt_eq_iff _ _ _ _).mpr (hm httl hroom)
    · refine (hringBuffer hnew).mpr ?_
      exact (ConfigManager.ringBufferSizeFor_eq_iff _ _ _).mpr (hcapacity hnew)
    · refine (hcompression hsize).trans ?_
      exact (ConfigManager.compressionFor_eq_iff _ _).mpr (hcompress hplain hsize)

/-! ### The messages of a frame -/

/-- The requests of a frame that pass the checks, in order. -/
def admittedMessages (b : Broker α) (connId : ConnectionId) (frame : Frame) (env : HandlerEnv) :
    List PublishRequest :=
  if frame.msgType = .publish then
    match lib.parsePublishRequest frame.payload with
    | none => []
    | some req => if b.admitsPublish connId req env then [req] else []
  else if frame.msgType = .batchPublish then
    match lib.parseBatchPublishRequest frame.payload with
    | none => []
    | some req =>
      if b.configManager.globalConfig.batchPublishEnabled &&
          b.admitsMessages connId req.messages env then
        req.messages
      else []
  else []

/-- They are what the frame has the store do. -/
theorem frameOps_eq_mapIdx (b : Broker α) (connId : ConnectionId) {frame : Frame}
    (env : HandlerEnv) (htype : frame.msgType = .publish ∨ frame.msgType = .batchPublish) :
    b.frameOps lib connId frame env =
      (b.admittedMessages lib connId frame env).mapIdx fun n req => b.publishOp lib req env n := by
  rw [frameOps, admittedMessages]
  rcases htype with htype | htype
  · rw [htype, if_pos rfl, if_pos rfl]
    rcases lib.parsePublishRequest frame.payload with - | req
    · rfl
    dsimp only
    split <;> rfl
  · rw [htype, if_neg (by decide), if_pos rfl, if_neg (by decide), if_pos rfl]
    rcases lib.parseBatchPublishRequest frame.payload with - | req
    · rfl
    dsimp only
    split <;> rfl

/-- The store event of the `n`-th message of a frame publishes it. -/
theorem getElem?_trace_frameOps {b : Broker α} {connId : ConnectionId} {frame : Frame}
    {env : HandlerEnv} {n : ℕ} {req : PublishRequest}
    (hreq : (b.admittedMessages lib connId frame env)[n]? = some req) :
    (messageStore.trace b.store (b.frameOps lib connId frame env))[n]? =
      some (messageStore.event
        (messageStore.run b.store ((b.frameOps lib connId frame env).take n))
        (b.publishOp lib req env n)) := by
  have htype : frame.msgType = .publish ∨ frame.msgType = .batchPublish := by
    by_contra hother
    rw [not_or] at hother
    rw [admittedMessages, if_neg hother.1, if_neg hother.2, List.getElem?_nil] at hreq
    cases hreq
  have hop : (b.frameOps lib connId frame env)[n]? = some (b.publishOp lib req env n) := by
    rw [frameOps_eq_mapIdx lib b connId env htype, List.getElem?_mapIdx, hreq]
    rfl
  rw [StepMachine.getElem?_trace, hop, Option.map_some]

/-- The settings take effect on all messages of a step. -/
def SettingsApply (e : BrokerEvent α) : Prop :=
  match e.input with
  | .frame connId frame env =>
    ∀ n, ∀ req ∈ (e.pre.admittedMessages lib connId frame env)[n]?,
      ∀ s ∈ (messageStore.trace e.pre.store (e.pre.frameOps lib connId frame env))[n]?,
        Configured e.pre req (env.expiryNowMs n) s
  | _ => True

/-- All messages of a step meet the condition, each in the store that it finds. -/
def AllAgree (size : UInt64) (e : BrokerEvent α) : Prop :=
  match e.input with
  | .frame connId frame env =>
    ∀ n, ∀ req ∈ (e.pre.admittedMessages lib connId frame env)[n]?,
      SettingsAgree lib e.pre size req (env.expiryNowMs n)
        (messageStore.run e.pre.store ((e.pre.frameOps lib connId frame env).take n))
  | _ => True

/-- **One step.** -/
theorem settingsApply_iff {size : UInt64} {b : Broker α}
    (hstore : b.store.config.defaultBufferSize = size.toNat)
    (hconfigs : b.topicManager.topicConfigs = ∅) (op : BrokerOp) :
    SettingsApply lib ((broker α lib).event b op) ↔
      AllAgree lib size ((broker α lib).event b op) := by
  cases op with
  | frame connId frame env =>
    refine forall_congr' fun n => forall₂_congr fun req hreq => ?_
    have hevent := getElem?_trace_frameOps lib hreq
    have hsize : (messageStore.run b.store
        ((b.frameOps lib connId frame env).take n)).config.defaultBufferSize = size.toNat := by
      rw [MemoryMessageStore.config_run, hstore]
    have hone := configured_iff lib hsize hconfigs req env n
    constructor
    · intro h
      exact hone.mp (h _ hevent)
    · intro h s hs
      obtain rfl := Option.some_inj.mp (hevent.symm.trans hs)
      exact hone.mpr h
  | _ => exact Iff.rfl

/-! ### Runs -/

/-- No step of a broker sets a topic's configuration in its topic manager. -/
theorem topicConfigs_step (b : Broker α) (op : BrokerOp) :
    ((broker α lib).step b op).1.topicManager.topicConfigs = b.topicManager.topicConfigs := by
  rcases b.topicManager_step lib op with hcall | ⟨connId, req, -, hsubscribe⟩
  · exact hcall.topicConfigs_eq
  · rw [hsubscribe, TopicManager.topicConfigs_subscribe]

/-- A broker as the server makes it: the store gets its arguments from the configuration. -/
def ofServerConfig (config : BrokerConfig) (steadyNow : ℤ) : Broker α :=
  ofConfig config
    { defaultBufferSize := config.defaultRingBufferSize.toNat
      maxRetryCount := config.maxRetryCount
      pendingTimeoutMs := config.pendingTimeoutMs } steadyNow

/-- **The settings take effect** on every message of a run iff all messages meet the condition.
Topics and the broker may be configured at any time in the run. -/
theorem settings_apply_iff (config : BrokerConfig) (steadyNow : ℤ) (ops : List BrokerOp) :
    (broker α lib).Along (fun _ e => SettingsApply lib e) (ofServerConfig config steadyNow) ops ↔
      (broker α lib).Along (fun _ e => AllAgree lib config.defaultRingBufferSize e)
        (ofServerConfig config steadyNow) ops := by
  -- the store keeps its size, and the topic manager stays without settings
  let P (_ : List (BrokerEvent α)) (b : Broker α) : Prop :=
    b.store.config.defaultBufferSize = config.defaultRingBufferSize.toNat ∧
      b.topicManager.topicConfigs = ∅
  have hstart : P [] (ofServerConfig config steadyNow) := ⟨rfl, rfl⟩
  have hstep (b : Broker α) (op : BrokerOp) (hb : P [] b) : P [] ((broker α lib).step b op).1 :=
    ⟨(congrArg _ (b.storeConfig_step lib op)).trans hb.1, (b.topicConfigs_step lib op).trans hb.2⟩
  constructor
  · intro h
    refine StepMachine.Along.of_history _ (P := P) hstart (fun _ b op hb _ => hstep b op hb) ?_ h
    exact fun _ b op hb happly => (settingsApply_iff lib hb.1 hb.2 op).mp happly
  · intro h
    refine StepMachine.Along.of_history _ (P := P) hstart (fun _ b op hb _ => hstep b op hb) ?_ h
    exact fun _ b op hb hagree => (settingsApply_iff lib hb.1 hb.2 op).mpr hagree

/-! ### A configured topic -/

/-- A parser that knows one publish request, of topic `t` and without a time to live. -/
def topicLibraries : Libraries where
  parsePublishRequest
    | [10, 1, 116, 18, 1, 98] => some { topic := "t", payload := [98] }
    | _ => none
  parseBatchPublishRequest _ := none
  parsePullRequest _ := none
  parseSubscribeRequest _ := none
  parseUnsubscribeRequest _ := none
  parseAckRequest _ := none
  parseAdminRequest _ := none
  compress2 _ := none

/-- The application configures topic `t`; then a client publishes to it. -/
def configuredTopicRun : List BrokerOp := [
  .setTopicConfig "t" { ringBufferSize := 512, defaultTtlMs := 60000, compressionEnabled := true },
  .frame 1 { msgType := .publish, payload := [10, 1, 116, 18, 1, 98] } (.ofClocks 0 1000)]

/-- The message is stored without an expiry. -/
theorem not_settings_apply_configuredTopic :
    ¬ (broker ℚ topicLibraries).Along (fun _ e => SettingsApply topicLibraries e)
      (ofServerConfig { defaultRingBufferSize := 256, compressionThresholdBytes := 1 } 0)
      configuredTopicRun := by
  intro h
  have hlast := h _ _ [] (StepMachine.trace_concat _ _ (configuredTopicRun.take 1)
    (.frame 1 { msgType := .publish, payload := [10, 1, 116, 18, 1, 98] } (.ofClocks 0 1000)))
  have hsize : 256 = (256 : UInt64).toNat := rfl
  have hagree := (settingsApply_iff topicLibraries hsize rfl _).mp hlast
  have hone := hagree 0 { topic := "t", payload := [98] } (by decide +kernel)
  exact absurd (hone.ttl rfl (by decide +kernel)) (by decide +kernel)

end Broker

end ProtoMsgQueue
