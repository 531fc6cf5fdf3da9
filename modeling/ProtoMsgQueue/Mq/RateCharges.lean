import ProtoMsgQueue.Common.TokenRate
import ProtoMsgQueue.Mq.TopicManagerCalls

/-!
# What a rejected request costs

A limiter that refuses takes no tokens. A request passes two of them, though, and a batch a check
of its size behind them, and what was taken is not put back: the tokens of a connection are gone
when the global limiter refuses, and those of both when a batch turns out too large.
`rejected_costsNothing_iff` says that a rejected request costs nothing in all other cases. Tokens
are counted in exact rationals.
-/

namespace ProtoMsgQueue

open UnorderedMap

namespace Broker

variable (b : Broker ℚ)

/-! ### Levels -/

/-- The limiter of a connection: a full one before its first use. -/
def connLimiter (connId : ConnectionId) (env : HandlerEnv) : TokenBucket ℚ :=
  (b.publishLimiters.lookup connId).getD
    (.ofRate b.serverConfig.connPublishRate b.serverConfig.rateLimitBurst env.limiterMadeAt)

/-- The tokens of a connection when its limiter is asked. -/
def connLevel (connId : ConnectionId) (env : HandlerEnv) : ℚ :=
  (b.connLimiter connId env).level env.limiterAt

/-- The tokens of the global limiter when it is asked. -/
def globalLevel (env : HandlerEnv) : Option ℚ :=
  b.globalPublishLimiter.map fun limiter => limiter.level env.globalLimiterAt

/-- Both limiters hold what refilling alone gives them. -/
def KeepsLevels (b' : Broker ℚ) (connId : ConnectionId) (env : HandlerEnv) : Prop :=
  b'.connLevel connId env = b.connLevel connId env ∧ b'.globalLevel env = b.globalLevel env

/-- The limiter of the connection has the tokens, if connections have limiters. -/
def ConnAdmits (connId : ConnectionId) (tokens : UInt32) (env : HandlerEnv) : Prop :=
  b.serverConfig.rateLimitEnabled = true → (tokens.toNat : ℚ) ≤ b.connLevel connId env

/-- The global limiter has the tokens, if there is one. -/
def GlobalAdmits (tokens : UInt32) (env : HandlerEnv) : Prop :=
  ∀ level ∈ b.globalLevel env, (tokens.toNat : ℚ) ≤ level

instance (connId : ConnectionId) (tokens : UInt32) (env : HandlerEnv) :
    Decidable (b.ConnAdmits connId tokens env) := by
  unfold ConnAdmits
  infer_instance

instance (tokens : UInt32) (env : HandlerEnv) : Decidable (b.GlobalAdmits tokens env) := by
  unfold GlobalAdmits
  infer_instance

/-! ### The limits -/

/-- A connection is charged if it has the tokens. -/
theorem acquirePublishPermit_spec (connId : ConnectionId) (tokens : UInt32) (env : HandlerEnv) :
    let out := b.acquirePublishPermit connId tokens env
    (out.2 = true ↔ b.ConnAdmits connId tokens env) ∧
      out.1.connLevel connId env = b.connLevel connId env -
        (if b.serverConfig.rateLimitEnabled && out.2 then (tokens.toNat : ℚ) else 0) ∧
      out.1.globalPublishLimiter = b.globalPublishLimiter := by
  intro out
  by_cases henabled : b.serverConfig.rateLimitEnabled = true
  · have hout : out =
        ({ b with
            publishLimiters := b.publishLimiters.insert connId
              ((b.connLimiter connId env).acquire tokens env.limiterAt).1 },
          ((b.connLimiter connId env).acquire tokens env.limiterAt).2) := if_pos henabled
    rw [hout, henabled, Bool.true_and]
    refine ⟨?_, ?_, rfl⟩
    · rw [TokenBucket.acquire_snd, ConnAdmits, henabled]
      exact ⟨fun h _ => h, fun h => h rfl⟩
    · rw [connLevel, connLimiter, AList.lookup_insert, Option.getD_some, TokenBucket.level_acquire]
      rfl
  · have hout : out = (b, true) := if_neg henabled
    rw [Bool.not_eq_true] at henabled
    rw [hout, henabled]
    refine ⟨iff_of_true rfl fun h => ?_, (sub_zero _).symm, rfl⟩
    rw [henabled] at h
    cases h

/-- The global limiter is charged if it has the tokens. -/
theorem acquireGlobalPermit_spec (connId : ConnectionId) (tokens : UInt32) (env : HandlerEnv) :
    let out := b.acquireGlobalPermit tokens env
    (out.2 = true ↔ b.GlobalAdmits tokens env) ∧
      out.1.globalLevel env = (b.globalLevel env).map (fun level =>
        level - if out.2 then (tokens.toNat : ℚ) else 0) ∧
      out.1.connLevel connId env = b.connLevel connId env := by
  intro out
  rcases hlimiter : b.globalPublishLimiter with - | limiter
  · have hout : out = (b, true) := by
      change b.acquireGlobalPermit tokens env = _
      rw [acquireGlobalPermit, hlimiter]
    have hlevel : b.globalLevel env = none := by rw [globalLevel, hlimiter, Option.map_none]
    rw [hout, GlobalAdmits, hlevel]
    refine ⟨iff_of_true rfl fun level hmem => ?_, rfl, rfl⟩
    cases hmem
  · have hout : out =
        ({ b with
            globalPublishLimiter := some (limiter.acquire tokens env.globalLimiterAt).1 },
          (limiter.acquire tokens env.globalLimiterAt).2) := by
      change b.acquireGlobalPermit tokens env = _
      rw [acquireGlobalPermit, hlimiter]
    have hlevel : b.globalLevel env = some (limiter.level env.globalLimiterAt) := by
      rw [globalLevel, hlimiter, Option.map_some]
    rw [hout, GlobalAdmits, hlevel]
    refine ⟨?_, ?_, rfl⟩
    · rw [TokenBucket.acquire_snd]
      simp only [Option.mem_some_iff, forall_eq']
      rfl
    · rw [globalLevel, Option.map_some, Option.map_some, TokenBucket.level_acquire]

/-- A charge of no tokens is none. -/
theorem sub_charge_eq_self_iff {x : ℚ} {charged : Bool} {tokens : UInt32} :
    (x - if charged then (tokens.toNat : ℚ) else 0) = x ↔ (charged = true → tokens = 0) := by
  rw [sub_eq_self]
  cases charged with
  | false => simp
  | true => simp [← UInt32.toNat_inj]

/-- **The limits** are off, or the connection is refused, or it is charged and the global limiter
refuses, or both are charged. -/
theorem checkRateLimits_cases (connId : ConnectionId) (tokens : UInt32) (env : HandlerEnv) :
    let out := b.checkRateLimits connId tokens env
    (b.configManager.globalConfig.rateLimitEnabled = false ∧ out = (b, none)) ∨
    b.configManager.globalConfig.rateLimitEnabled = true ∧
      ((¬b.ConnAdmits connId tokens env ∧ out.2.isSome ∧ b.KeepsLevels out.1 connId env) ∨
      (b.ConnAdmits connId tokens env ∧ ¬b.GlobalAdmits tokens env ∧ out.2.isSome ∧
        (b.KeepsLevels out.1 connId env ↔
          (b.serverConfig.rateLimitEnabled = true → tokens = 0))) ∨
      (b.ConnAdmits connId tokens env ∧ b.GlobalAdmits tokens env ∧ out.2 = none ∧
        (b.KeepsLevels out.1 connId env ↔
          (b.serverConfig.rateLimitEnabled = true ∨ b.globalPublishLimiter.isSome → tokens = 0)))) := by
  intro out
  cases henabled : b.configManager.globalConfig.rateLimitEnabled with
  | false =>
    refine Or.inl ⟨rfl, ?_⟩
    change b.checkRateLimits connId tokens env = _
    rw [checkRateLimits, henabled]
    rfl
  | true =>
    refine Or.inr ⟨rfl, ?_⟩
    obtain ⟨hconn, hconnLevel, hglobal⟩ := b.acquirePublishPermit_spec connId tokens env
    have hout : out = _ := checkRateLimits.eq_1 b connId tokens env
    rw [henabled, if_pos rfl] at hout
    rcases hasked : b.acquirePublishPermit connId tokens env with ⟨b₁, - | -⟩ <;>
      rw [hasked] at hconn hconnLevel hglobal hout
    · -- refused by the limiter of the connection
      have hlevel : b₁.globalLevel env = b.globalLevel env := congrArg (Option.map _) hglobal
      rw [Bool.and_false, if_neg Bool.false_ne_true, sub_zero] at hconnLevel
      rw [hout]
      exact Or.inl ⟨fun h => Bool.false_ne_true (hconn.mpr h), rfl, hconnLevel, hlevel⟩
    have hconnAdmits := hconn.mp rfl
    obtain ⟨hadmits, hglobalLevel, hsame⟩ := b₁.acquireGlobalPermit_spec connId tokens env
    have hlevel : b₁.globalLevel env = b.globalLevel env := congrArg (Option.map _) hglobal
    rw [GlobalAdmits, hlevel, ← GlobalAdmits] at hadmits
    rw [hlevel] at hglobalLevel
    rw [Bool.and_true] at hconnLevel
    dsimp only at hout
    rcases hasked' : b₁.acquireGlobalPermit tokens env with ⟨b₂, - | -⟩ <;>
      rw [hasked'] at hadmits hglobalLevel hsame hout
    · -- refused by the global limiter
      simp only [Bool.false_eq_true, if_false, sub_zero, Option.map_id'] at hglobalLevel
      rw [hout]
      refine Or.inr (Or.inl ⟨hconnAdmits, fun h => Bool.false_ne_true (hadmits.mpr h), rfl, ?_⟩)
      rw [KeepsLevels, hsame, hconnLevel, sub_charge_eq_self_iff]
      exact and_iff_left hglobalLevel
    · rw [hout]
      refine Or.inr (Or.inr ⟨hconnAdmits, hadmits.mp rfl, rfl, ?_⟩)
      rw [KeepsLevels, hsame, hconnLevel, sub_charge_eq_self_iff, hglobalLevel, or_imp]
      refine and_congr_right fun _ => ?_
      rw [globalLevel]
      cases b.globalPublishLimiter with
      | none => exact iff_of_true rfl fun hsome => absurd hsome Bool.false_ne_true
      | some limiter =>
        rw [Option.map_some, Option.map_some, Option.some_inj, sub_charge_eq_self_iff]
        rfl

/-! ### Rejections -/

/-- The error with which a request is rejected. -/
def Rejects (connId : ConnectionId) (result : BrokerResult) : Prop :=
  ∃ resp : Response, ⟨connId, .response resp⟩ ∈ result.sent ∧
    (resp.errorCode = ErrorCode.rateLimitExceeded.toUInt32 ∨
      resp.errorCode = ErrorCode.batchSizeExceeded.toUInt32)

/-- Tokens were taken before the request was refused: by its connection before the global limiter
refused it, or by the limiters it passed before it turned out too large. -/
def ChargedInVain (connId : ConnectionId) (tokens : UInt32) (tooLarge : Bool)
    (env : HandlerEnv) : Prop :=
  b.configManager.globalConfig.rateLimitEnabled = true ∧ b.ConnAdmits connId tokens env ∧
    tokens ≠ 0 ∧
      if b.GlobalAdmits tokens env then
        tooLarge = true ∧
          (b.serverConfig.rateLimitEnabled = true ∨ b.globalPublishLimiter.isSome)
      else b.serverConfig.rateLimitEnabled = true

instance (connId : ConnectionId) (tokens : UInt32) (tooLarge : Bool) (env : HandlerEnv) :
    Decidable (b.ChargedInVain connId tokens tooLarge env) := by
  unfold ChargedInVain
  infer_instance

/-- A response with another code rejects nothing. -/
theorem not_rejects_of_sent {connId : ConnectionId} {result : BrokerResult} {pushes : List Sent}
    {resp : Response} (hsent : result.sent = pushes ++ [⟨connId, .response resp⟩])
    (hpushes : ∀ s ∈ pushes, ∀ resp', s.frame ≠ .response resp')
    (code : UInt32) (hcode : resp.errorCode = code)
    (hother : code ≠ ErrorCode.rateLimitExceeded.toUInt32 ∧
      code ≠ ErrorCode.batchSizeExceeded.toUInt32) : ¬Rejects connId result := by
  rintro ⟨resp', hmem, hrejects⟩
  rw [hsent, List.mem_append, List.mem_singleton] at hmem
  rcases hmem with hpush | heq
  · exact hpushes _ hpush resp' rfl
  · cases heq
    rw [hcode] at hrejects
    exact hrejects.elim hother.1 hother.2

theorem push_ne_response (msg : PushMessage) (resp : Response) :
    OutFrame.push msg ≠ .response resp := by
  intro h
  cases h

theorem batchPush_ne_response (msgs : List PushMessage) (resp : Response) :
    OutFrame.batchPush msgs ≠ .response resp := by
  intro h
  cases h

/-- A single response with another code rejects nothing. -/
theorem not_rejects_respond {connId : ConnectionId} {resp : Response} (code : UInt32)
    (hcode : resp.errorCode = code)
    (hother : code ≠ ErrorCode.rateLimitExceeded.toUInt32 ∧
      code ≠ ErrorCode.batchSizeExceeded.toUInt32) :
    ¬Rejects connId (.respond connId resp) :=
  not_rejects_of_sent (List.nil_append _).symm (fun _ hs => absurd hs List.not_mem_nil) code hcode
    hother

/-- A request that passed the checks is not rejected. -/
theorem not_rejects_storePublish {α : Type*} (lib : Libraries) (b : Broker α)
    (connId : ConnectionId) (req : PublishRequest) (env : HandlerEnv) :
    ¬Rejects connId (b.storePublish lib connId req env).2 := by
  rw [storePublish]
  dsimp only
  split
  · exact not_rejects_respond ErrorCode.bufferFull.toUInt32 rfl (by decide)
  · refine not_rejects_of_sent rfl ?_ 0 rfl (by decide)
    simp only [pushPublished, List.mem_append, List.mem_map, List.mem_mapIdx]
    intro s hs resp'
    rcases hs with ⟨sub, -, rfl⟩ | ⟨n, hn, rfl⟩ <;> exact push_ne_response _ resp'

/-- Pushes are no responses. -/
theorem not_response_pushTopics {α : Type*} (env : HandlerEnv)
    (topicMessages : UnorderedMap TopicName (List StoredMessage)) (topics : List TopicName)
    (b : Broker α) :
    ∀ s ∈ (pushTopics env topicMessages topics b).2, ∀ resp, s.frame ≠ .response resp := by
  induction topics generalizing b with
  | nil => exact fun s hs => absurd hs List.not_mem_nil
  | cons topic topics ih =>
    intro s hs resp
    rcases List.mem_append.mp hs with hs | hs
    · simp only [topicFrames, List.mem_flatMap, List.mem_map] at hs
      obtain ⟨connId, -, frame, hframe, rfl⟩ := hs
      split at hframe
      · rw [List.mem_singleton.mp hframe]
        exact batchPush_ne_response _ resp
      · obtain ⟨msg, -, rfl⟩ := List.mem_map.mp hframe
        exact push_ne_response _ resp
    · exact ih _ s hs resp

theorem not_rejects_storeBatchPublish {α : Type*} (lib : Libraries) (b : Broker α)
    (connId : ConnectionId) (msgs : List PublishRequest) (env : HandlerEnv) :
    ¬Rejects connId (b.storeBatchPublish lib connId msgs env).2 := by
  rw [storeBatchPublish]
  dsimp only
  split
  · exact not_rejects_respond ErrorCode.bufferFull.toUInt32 rfl (by decide)
  · exact not_rejects_of_sent rfl (not_response_pushTopics env _ _ _) 0 rfl (by decide)

/-- A request is charged in vain iff it is refused or too large and the levels are not kept. -/
theorem chargedInVain_iff (connId : ConnectionId) (tokens : UInt32) (tooLarge : Bool)
    (env : HandlerEnv) :
    b.ChargedInVain connId tokens tooLarge env ↔
      ((b.checkRateLimits connId tokens env).2.isSome ∨ tooLarge = true) ∧
        ¬b.KeepsLevels (b.checkRateLimits connId tokens env).1 connId env := by
  rw [ChargedInVain]
  rcases b.checkRateLimits_cases connId tokens env with ⟨hdisabled, hout⟩ |
    ⟨henabled, ⟨hconn, hrefused, hkeeps⟩ | ⟨hconn, hglobal, hrefused, hkeeps⟩ |
      ⟨hconn, hglobal, hpassed, hkeeps⟩⟩
  · rw [hdisabled, hout]
    exact iff_of_false (fun h => Bool.false_ne_true h.1) fun h => h.2 ⟨rfl, rfl⟩
  · exact iff_of_false (fun h => hconn h.2.1) fun h => h.2 hkeeps
  · rw [if_neg hglobal, hkeeps]
    tauto
  · rw [if_pos hglobal, hkeeps, hpassed]
    simp only [Option.isSome_none, Bool.false_eq_true, false_or]
    tauto

variable (lib : Libraries)

/-- A publish request is rejected by the limits, if it is no duplicate. -/
theorem rejected_keepsLevels_publish_iff (connId : ConnectionId) (req : PublishRequest)
    (env : HandlerEnv) :
    let out := b.handlePublish lib connId (some req) env
    (Rejects connId out.2 → b.KeepsLevels out.1 connId env) ↔
      ¬(b.isDuplicateRequest req = false ∧ b.ChargedInVain connId 1 false env) := by
  rw [chargedInVain_iff]
  intro out
  have houtcome : PublishOutcome lib b connId req env out := b.publishOutcome lib connId req env
  clear_value out
  cases houtcome with
  | duplicate hdup =>
    refine iff_of_true (fun _ => ⟨rfl, rfl⟩) fun h => ?_
    exact Bool.false_ne_true (h.1.symm.trans hdup)
  | @refused limiters globalLimiter errorMsg hnew hcheck =>
    have hrejects : Rejects connId (BrokerResult.respond connId
        (.ofErrorCode .rateLimitExceeded errorMsg)) :=
      ⟨_, List.mem_singleton_self _, Or.inl rfl⟩
    simp [hrejects, hnew, hcheck]
  | admitted hnew hcheck =>
    rw [hcheck]
    refine iff_of_true (fun h => ?_) fun h => ?_
    · exact absurd h (not_rejects_storePublish lib _ connId req env)
    · exact h.2.1.elim Bool.false_ne_true Bool.false_ne_true

/-- A batch is rejected by the limits or for its size. -/
theorem rejected_keepsLevels_batchPublish_iff (connId : ConnectionId) (req : BatchPublishRequest)
    (env : HandlerEnv) :
    let out := b.handleBatchPublish lib connId (some req) env
    (Rejects connId out.2 → b.KeepsLevels out.1 connId env) ↔
      ¬(req.messages ≠ [] ∧ b.ChargedInVain connId (UInt32.ofNat req.messages.length)
        (b.configManager.globalConfig.maxBatchSize < UInt32.ofNat req.messages.length) env) := by
  rw [chargedInVain_iff]
  intro out
  have houtcome : BatchOutcome lib b connId req env out := b.batchOutcome lib connId req env
  clear_value out
  cases houtcome with
  | empty hempty => exact iff_of_true (fun _ => ⟨rfl, rfl⟩) fun h => h.1 hempty
  | @refused limiters globalLimiter errorMsg hne hcheck =>
    have hrejects : Rejects connId (BrokerResult.respond connId
        (.ofErrorCode .rateLimitExceeded errorMsg)) :=
      ⟨_, List.mem_singleton_self _, Or.inl rfl⟩
    simp [hrejects, hne, hcheck]
  | tooLarge hne hcheck hlarge =>
    have hrejects : Rejects connId (BrokerResult.respond connId
        (.ofErrorCode .batchSizeExceeded "Batch size exceeds limit")) :=
      ⟨_, List.mem_singleton_self _, Or.inr rfl⟩
    simp [hrejects, hne, hlarge, hcheck]
  | admitted hne hcheck hsize =>
    rw [hcheck]
    refine iff_of_true (fun h => ?_) fun h => ?_
    · exact absurd h (not_rejects_storeBatchPublish lib _ connId req.messages env)
    · refine h.2.1.elim Bool.false_ne_true fun hlarge => ?_
      exact UInt32.not_lt.mpr hsize (of_decide_eq_true hlarge)

/-- **A rejected request costs nothing**, exactly if it is not charged in vain. For all states of
the limiters and all times, a publish request or a batch that is answered with
`RateLimitExceeded` or `BatchSizeExceeded` leaves both limiters with what refilling alone gives
them, iff it is not the case that its connection has the tokens and the global limiter refuses,
or that both have them and the batch is too large. -/
theorem rejected_costsNothing_iff (connId : ConnectionId) (env : HandlerEnv) :
    (∀ req : PublishRequest,
      (Rejects connId (b.handlePublish lib connId (some req) env).2 →
        b.KeepsLevels (b.handlePublish lib connId (some req) env).1 connId env) ↔
      ¬(b.isDuplicateRequest req = false ∧ b.ChargedInVain connId 1 false env)) ∧
    ∀ req : BatchPublishRequest,
      (Rejects connId (b.handleBatchPublish lib connId (some req) env).2 →
        b.KeepsLevels (b.handleBatchPublish lib connId (some req) env).1 connId env) ↔
      ¬(req.messages ≠ [] ∧ b.ChargedInVain connId (UInt32.ofNat req.messages.length)
        (b.configManager.globalConfig.maxBatchSize < UInt32.ofNat req.messages.length) env) :=
  ⟨fun req => b.rejected_keepsLevels_publish_iff lib connId req env,
    fun req => b.rejected_keepsLevels_batchPublish_iff lib connId req env⟩

/-- A broker with rate limits, for batches of two messages at most. -/
def limitedBroker : Broker ℚ :=
  ofConfig { rateLimitEnabled := true, rateLimitBurst := 10, maxBatchSize := 2 } {} 0

/-- A batch of three messages is rejected for its size, and costs three tokens of each limiter. -/
theorem not_rejected_costsNothing_tooLarge :
    let msgs : List PublishRequest := List.replicate 3 { topic := "t", payload := [97] }
    let out := limitedBroker.handleBatchPublish subscribeLibraries 1 (some ⟨msgs⟩) (.ofClocks 0 0)
    Rejects 1 out.2 ∧ limitedBroker.connLevel 1 (.ofClocks 0 0) = 10 ∧
      out.1.connLevel 1 (.ofClocks 0 0) = 7 ∧
      limitedBroker.globalLevel (.ofClocks 0 0) = some 10 ∧
      out.1.globalLevel (.ofClocks 0 0) = some 7 := by
  refine ⟨⟨.ofErrorCode .batchSizeExceeded "Batch size exceeds limit", ?_, Or.inr rfl⟩, ?_⟩
  · decide +kernel
  · decide +kernel

end Broker

end ProtoMsgQueue
