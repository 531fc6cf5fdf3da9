import ProtoMsgQueue.Common.TokenRate
import ProtoMsgQueue.Lib.Budget
import ProtoMsgQueue.Mq.Deduplication

/-!
# What the rate limits let through

Every message of a publish request or a batch takes a token from the limiter of its connection and
one from the global limiter. So over any stretch of a run of the broker, whatever else it handles,
a connection gets at most as many messages stored as its burst and its rate allow for the time
that the stretch takes, and all connections together at most as many as the global ones
(`stored_le_rate`). Both are the budget rule, for the level of a limiter: the tokens that it would
hold if it was refilled. Tokens are counted in exact rationals.
-/

namespace ProtoMsgQueue

open UnorderedMap

/-! ### One limiter -/

namespace TokenBucket

variable (bucket : TokenBucket ℚ)

theorem level_eq (t : ℤ) : bucket.level t =
    min (bucket.burstSize.toNat : ℚ)
      (bucket.tokens + gain bucket.ratePerSecond bucket.lastRefillTime t) :=
  bucket.refill_tokens t

theorem level_le_burstSize (t : ℤ) : bucket.level t ≤ bucket.burstSize.toNat :=
  (bucket.level_eq t).le.trans (min_le_left _ _)

/-- Time raises the level at most at the rate. -/
theorem level_le_add_gain {t u : ℤ} (h : t ≤ u) :
    bucket.level u ≤ bucket.level t + gain bucket.ratePerSecond t u := by
  have hgain := gain_nonneg bucket.ratePerSecond h
  rw [level_eq, level_eq, ← gain_add bucket.ratePerSecond bucket.lastRefillTime t u, ← add_assoc,
    ← min_add_add_right]
  exact min_le_min_right _ (le_add_of_nonneg_right hgain)

/-- A limiter that refuses keeps its level; one that grants had the tokens. -/
theorem acquire_cases (n : UInt32) (t : ℤ) :
    ((bucket.acquire n t).2 = false ∧ (bucket.acquire n t).1.level t = bucket.level t) ∨
    ((bucket.acquire n t).2 = true ∧ 0 ≤ (bucket.acquire n t).1.level t ∧
      n.toNat + (bucket.acquire n t).1.level t = bucket.level t) := by
  have hlevel := bucket.level_acquire n t
  cases hgranted : (bucket.acquire n t).2 with
  | false =>
    rw [hgranted, if_neg Bool.false_ne_true, sub_zero] at hlevel
    exact Or.inl ⟨rfl, hlevel⟩
  | true =>
    have henough : (n.toNat : ℚ) ≤ bucket.level t := (bucket.acquire_snd n t).mp hgranted
    rw [hgranted, if_pos rfl] at hlevel
    refine Or.inr ⟨rfl, ?_, ?_⟩
    · rw [hlevel]
      exact sub_nonneg.mpr henough
    · rw [hlevel]
      exact add_sub_cancel _ _

end TokenBucket

/-! ### The limiters of a broker -/

/-- The limiters of a broker, with what they depend on. -/
structure Limits where
  /-- Does the broker ask the limiters? -/
  enabled : Bool
  /-- The configuration the limiters are made from. -/
  config : BrokerConfig
  /-- The limiters of the connections. -/
  conns : UnorderedMap ConnectionId (TokenBucket ℚ)
  /-- The global limiter. -/
  global : Option (TokenBucket ℚ)

/-- The limiters of a broker. -/
def Broker.limits (b : Broker ℚ) : Limits where
  enabled := b.configManager.globalConfig.rateLimitEnabled
  config := b.serverConfig
  conns := b.publishLimiters
  global := b.globalPublishLimiter

namespace Limits

/-- The limiters are those of a configuration with rate limits. -/
structure Rated (config : BrokerConfig) (l : Limits) : Prop where
  enabled : l.enabled = true
  config_eq : l.config = config
  limited : config.rateLimitEnabled = true
  conns : ∀ connId limiter, l.conns.lookup connId = some limiter →
    limiter.ratePerSecond = config.connPublishRate ∧ limiter.burstSize = config.rateLimitBurst
  global : ∃ limiter, l.global = some limiter ∧
    limiter.ratePerSecond = config.globalPublishRate ∧ limiter.burstSize = config.rateLimitBurst

/-- The level of a connection's limiter; a full one before its first use. -/
def connLevel (l : Limits) (connId : ConnectionId) (t : ℤ) : ℚ :=
  match l.conns.lookup connId with
  | none => l.config.rateLimitBurst.toNat
  | some limiter => limiter.level t

/-- The level of the global limiter. -/
def globalLevel (l : Limits) (t : ℤ) : ℚ :=
  match l.global with
  | none => l.config.rateLimitBurst.toNat
  | some limiter => limiter.level t

variable {config : BrokerConfig} {l : Limits} {connId : ConnectionId} {t u : ℤ}

theorem Rated.connLevel_le_burst (h : Rated config l) :
    l.connLevel connId t ≤ config.rateLimitBurst.toNat := by
  rw [connLevel]
  split
  · rw [h.config_eq]
  · next limiter hlook =>
    rw [← (h.conns connId limiter hlook).2]
    exact limiter.level_le_burstSize t

theorem Rated.globalLevel_le_burst (h : Rated config l) :
    l.globalLevel t ≤ config.rateLimitBurst.toNat := by
  obtain ⟨limiter, hglobal, -, hburst⟩ := h.global
  rw [globalLevel, hglobal, ← hburst]
  exact limiter.level_le_burstSize t

theorem Rated.connLevel_le_add (h : Rated config l) (htu : t ≤ u) :
    l.connLevel connId u ≤
      l.connLevel connId t + TokenBucket.gain config.connPublishRate t u := by
  rw [connLevel, connLevel]
  split
  · exact le_add_of_nonneg_right (TokenBucket.gain_nonneg _ htu)
  · next limiter hlook =>
    rw [← (h.conns connId limiter hlook).1]
    exact limiter.level_le_add_gain htu

theorem Rated.globalLevel_le_add (h : Rated config l) (htu : t ≤ u) :
    l.globalLevel u ≤ l.globalLevel t + TokenBucket.gain config.globalPublishRate t u := by
  obtain ⟨limiter, hglobal, hrate, -⟩ := h.global
  rw [globalLevel, globalLevel, hglobal, ← hrate]
  exact limiter.level_le_add_gain htu

end Limits

namespace Broker

variable {b : Broker ℚ} {config : BrokerConfig} (lib : Libraries)

/-! ### What the handlers do to the limiters -/

theorem limits_storePublish (b : Broker ℚ) (connId : ConnectionId) (req : PublishRequest)
    (env : HandlerEnv) : (b.storePublish lib connId req env).1.limits = b.limits := by
  rw [storePublish]
  dsimp only
  split
  · rfl
  · rw [markProcessed]
    split <;> rfl

theorem limits_storeBatchPublish (b : Broker ℚ) (connId : ConnectionId)
    (msgs : List PublishRequest) (env : HandlerEnv) :
    (b.storeBatchPublish lib connId msgs env).1.limits = b.limits := by
  rcases storeBatchPublish_cases lib b connId msgs env with ⟨-, -, heq⟩ | ⟨-, heq⟩
  · rw [heq]
    rfl
  · rw [heq]
    obtain ⟨tm, htm⟩ := pushTopics_eq env _ _ _
    rw [htm]
    rfl

/-- Is the frame one whose messages are to be stored? -/
def IsPublish (frame : Frame) : Prop :=
  frame.msgType = .publish ∨ frame.msgType = .batchPublish

instance (frame : Frame) : Decidable (IsPublish frame) := inferInstanceAs (Decidable (_ ∨ _))

/-- What a step does to the limiters: nothing, and it stores nothing for a connection, or it asks
them for the tokens of what it stores. -/
inductive LimitsOutcome (b : Broker ℚ) (op : BrokerOp) (out : Broker ℚ × BrokerResult) : Prop where
  | quiet (hlimits : out.1.limits = b.limits) (hstored : out.2.stored = [])
  | asked {connId frame env} (hop : op = .frame connId frame env)
      (htype : IsPublish frame) (tokens : UInt32)
      (hlimits : out.1.limits = (b.checkRateLimits connId tokens env).1.limits)
      (hstored : out.2.stored = [] ∨ (b.checkRateLimits connId tokens env).2 = none ∧
        out.2.stored.length ≤ tokens.toNat)

/-- The batch in a frame, if there is one, has fewer messages than a `uint32_t` counts. -/
def CountedBatch (lib : Libraries) (frame : Frame) : Prop :=
  ∀ req, lib.parseBatchPublishRequest frame.payload = some req → req.messages.length < 2 ^ 32

theorem limitsOutcome_publish (b : Broker ℚ) (connId : ConnectionId) {frame : Frame}
    (env : HandlerEnv) (htype : frame.msgType = .publish) :
    LimitsOutcome b (.frame connId frame env)
      (b.handlePublish lib connId (lib.parsePublishRequest frame.payload) env) := by
  cases hparse : lib.parsePublishRequest frame.payload with
  | none => exact .quiet rfl rfl
  | some req =>
    have houtcome := b.publishOutcome lib connId req env
    generalize b.handlePublish lib connId (some req) env = out at houtcome
    cases houtcome with
    | duplicate => exact .quiet rfl rfl
    | refused hnew hcheck =>
      exact .asked rfl (Or.inl htype) 1 (by rw [hcheck]) (Or.inl rfl)
    | admitted hnew hcheck =>
      refine .asked rfl (Or.inl htype) 1 (by rw [hcheck, limits_storePublish]) ?_
      rcases storePublish_cases lib _ connId req env with ⟨-, hstored, -⟩ | ⟨msgId, -, hstored⟩
      · exact Or.inl hstored
      · exact Or.inr ⟨by rw [hcheck], by rw [hstored]; exact le_rfl⟩

theorem limitsOutcome_batchPublish (b : Broker ℚ) (connId : ConnectionId) {frame : Frame}
    (hbatch : CountedBatch lib frame) (env : HandlerEnv)
    (htype : frame.msgType = .batchPublish) :
    LimitsOutcome b (.frame connId frame env)
      (b.handleBatchPublish lib connId (lib.parseBatchPublishRequest frame.payload) env) := by
  cases hparse : lib.parseBatchPublishRequest frame.payload with
  | none => exact .quiet rfl rfl
  | some req =>
    have houtcome := b.batchOutcome lib connId req env
    generalize b.handleBatchPublish lib connId (some req) env = out at houtcome
    cases houtcome with
    | empty => exact .quiet rfl rfl
    | refused hne hcheck =>
      exact .asked rfl (Or.inr htype) _ (by rw [hcheck]) (Or.inl rfl)
    | tooLarge hne hcheck =>
      exact .asked rfl (Or.inr htype) _ (by rw [hcheck]) (Or.inl rfl)
    | admitted hne hcheck =>
      refine .asked rfl (Or.inr htype) _ (by rw [hcheck, limits_storeBatchPublish]) ?_
      rcases storeBatchPublish_cases lib _ connId req.messages env with ⟨-, -, heq⟩ | ⟨-, heq⟩
      · exact Or.inl (by rw [heq]; rfl)
      · refine Or.inr ⟨by rw [hcheck], ?_⟩
        obtain ⟨stored, hstored, hsub⟩ := sublist_storeBatch lib _ env 0 req.messages _
        rw [heq]
        dsimp only
        rw [hstored, List.nil_append, UInt32.toNat_ofNat_of_lt' (hbatch _ hparse)]
        simpa only [List.length_map] using hsub.length_le

theorem limits_handleAdmin (b : Broker ℚ) (connId : ConnectionId) (parsed : Option AdminRequest)
    (env : HandlerEnv) : (b.handleAdmin connId parsed env).1.limits = b.limits := by
  rcases parsed with - | ⟨command, topic⟩
  · rfl
  cases command with
  | getTopicInfo | deleteTopic | cleanupTopic =>
    simp only [handleAdmin]
    split <;> rfl
  | _ => rfl

/-- A frame asks the limiters for what it stores. -/
theorem limitsOutcome_frame (b : Broker ℚ) (connId : ConnectionId) {frame : Frame}
    (hbatch : CountedBatch lib frame) (env : HandlerEnv) :
    LimitsOutcome b (.frame connId frame env)
      ((broker ℚ lib).step b (.frame connId frame env)) := by
  have houtcome := b.frameOutcome lib connId frame env
  generalize (broker ℚ lib).step b (.frame connId frame env) = out at houtcome
  cases houtcome with
  | publish htype => exact limitsOutcome_publish lib b connId env htype
  | batchPublish htype => exact limitsOutcome_batchPublish lib b connId hbatch env htype
  | subscribe => cases lib.parseSubscribeRequest frame.payload <;> exact .quiet rfl rfl
  | unsubscribe => cases lib.parseUnsubscribeRequest frame.payload <;> exact .quiet rfl rfl
  | pull => cases lib.parsePullRequest frame.payload <;> exact .quiet rfl rfl
  | ack => cases lib.parseAckRequest frame.payload <;> exact .quiet rfl rfl
  | admin =>
    exact .quiet (limits_handleAdmin b connId _ env) (handleAdmin_quiet b connId _ env).2
  | batchDisabled | ping | pingIgnored | unknown => exact .quiet rfl rfl

/-! ### What asking the limiters does -/

section Check

variable (connId : ConnectionId) (tokens : UInt32) (env : HandlerEnv)

/-- A connection is asked through its limiter, which is a full one at the first time. -/
theorem acquirePublishPermit_of_rated (h : b.limits.Rated config) :
    ∃ limiter : TokenBucket ℚ,
      (limiter.ratePerSecond = config.connPublishRate ∧
        limiter.burstSize = config.rateLimitBurst) ∧
      limiter.level env.limiterAt ≤ b.limits.connLevel connId env.limiterAt ∧
      b.acquirePublishPermit connId tokens env =
        ({ b with
            publishLimiters := b.publishLimiters.insert connId
              (limiter.acquire tokens env.limiterAt).1 },
          (limiter.acquire tokens env.limiterAt).2) := by
  have hconfig : b.serverConfig = config := h.config_eq
  have henabled : b.serverConfig.rateLimitEnabled = true := by rw [hconfig, h.limited]
  refine ⟨_, ?_, ?_, if_pos henabled⟩
  · cases hlook : b.publishLimiters.lookup connId with
    | none => exact ⟨by rw [hconfig]; rfl, by rw [hconfig]; rfl⟩
    | some limiter => exact h.conns connId limiter hlook
  · rw [Limits.connLevel]
    change _ ≤ match b.publishLimiters.lookup connId with | none => _ | some limiter => _
    cases b.publishLimiters.lookup connId with
    | none => exact TokenBucket.level_le_burstSize _ _
    | some limiter => exact le_rfl

/-- The global limiter is asked if the connection's one grants the tokens. -/
theorem checkRateLimits_of_rated (h : b.limits.Rated config) :
    ∃ limiter global : TokenBucket ℚ, b.globalPublishLimiter = some global ∧
      (limiter.ratePerSecond = config.connPublishRate ∧
        limiter.burstSize = config.rateLimitBurst) ∧
      limiter.level env.limiterAt ≤ b.limits.connLevel connId env.limiterAt ∧
      let asked := limiter.acquire tokens env.limiterAt
      let conns := b.publishLimiters.insert connId asked.1
      (asked.2 = false ∧
        (b.checkRateLimits connId tokens env).1.limits = { b.limits with conns := conns } ∧
        (b.checkRateLimits connId tokens env).2 ≠ none) ∨
      (asked.2 = true ∧
        let askedGlobal := global.acquire tokens env.globalLimiterAt
        (b.checkRateLimits connId tokens env).1.limits =
          { b.limits with conns := conns, global := some askedGlobal.1 } ∧
        ((b.checkRateLimits connId tokens env).2 = none ↔ askedGlobal.2 = true)) := by
  obtain ⟨limiter, hrates, hlevel, hasked⟩ :=
    acquirePublishPermit_of_rated connId tokens env h
  obtain ⟨global, hglobal, -⟩ := h.global
  have henabled : b.configManager.globalConfig.rateLimitEnabled = true := h.enabled
  refine ⟨limiter, global, hglobal, hrates, hlevel, ?_⟩
  rw [checkRateLimits, if_pos henabled, hasked]
  cases hgranted : (limiter.acquire tokens env.limiterAt).2 with
  | false => exact Or.inl ⟨hgranted, rfl, Option.some_ne_none _⟩
  | true =>
    refine Or.inr ⟨hgranted, ?_⟩
    have hglobal' : b.globalPublishLimiter = some global := hglobal
    simp only [acquireGlobalPermit, hglobal']
    cases hpassed : (global.acquire tokens env.globalLimiterAt).2 with
    | false => exact ⟨rfl, iff_of_false (Option.some_ne_none _) Bool.false_ne_true⟩
    | true => exact ⟨rfl, iff_of_true rfl rfl⟩

/-- Asking the limiters leaves them with their rates. -/
theorem rated_check (h : b.limits.Rated config) :
    (b.checkRateLimits connId tokens env).1.limits.Rated config := by
  obtain ⟨limiter, global, hglobal, hrates, -, hcases⟩ :=
    checkRateLimits_of_rated connId tokens env h
  have hconns : ∀ connId' limiter', (b.publishLimiters.insert connId
      (limiter.acquire tokens env.limiterAt).1).lookup connId' = some limiter' →
      limiter'.ratePerSecond = config.connPublishRate ∧
        limiter'.burstSize = config.rateLimitBurst := by
    intro connId' limiter' hlook
    by_cases heq : connId' = connId
    · rw [heq, AList.lookup_insert, Option.some_inj] at hlook
      rw [← hlook, TokenBucket.acquire_eq]
      exact hrates
    · rw [AList.lookup_insert_ne heq] at hlook
      exact h.conns connId' limiter' hlook
  rcases hcases with ⟨-, hlimits, -⟩ | ⟨-, hlimits, -⟩
  · rw [hlimits]
    exact { h with conns := hconns }
  · rw [hlimits]
    refine { h with conns := hconns, global := ⟨_, rfl, ?_⟩ }
    obtain ⟨global', hglobal', hrates'⟩ := h.global
    obtain rfl : global = global' := Option.some_inj.mp (hglobal.symm.trans hglobal')
    rw [TokenBucket.acquire_eq]
    exact hrates'

/-- The limiters of other connections are left alone. -/
theorem connLevel_check_ne (h : b.limits.Rated config) {connId' : ConnectionId}
    (hne : connId' ≠ connId) (t : ℤ) :
    (b.checkRateLimits connId tokens env).1.limits.connLevel connId' t =
      b.limits.connLevel connId' t := by
  obtain ⟨limiter, global, -, -, -, ⟨-, hlimits, -⟩ | ⟨-, hlimits, -⟩⟩ :=
    checkRateLimits_of_rated connId tokens env h
  all_goals
    rw [hlimits, Limits.connLevel, Limits.connLevel]
    dsimp only
    rw [AList.lookup_insert_ne hne]
    rfl

/-- The connection's limiter refuses, or it had the tokens. -/
theorem connLevel_check (h : b.limits.Rated config) :
    let after := (b.checkRateLimits connId tokens env).1.limits.connLevel connId env.limiterAt
    ((b.checkRateLimits connId tokens env).2 ≠ none ∧
      after ≤ b.limits.connLevel connId env.limiterAt) ∨
    (0 ≤ after ∧ tokens.toNat + after ≤ b.limits.connLevel connId env.limiterAt) := by
  intro after
  obtain ⟨limiter, global, -, -, hlevel, hcases⟩ :=
    checkRateLimits_of_rated connId tokens env h
  have hafter : ∀ l : Limits, (b.checkRateLimits connId tokens env).1.limits = l →
      l.conns = b.publishLimiters.insert connId (limiter.acquire tokens env.limiterAt).1 →
      after = (limiter.acquire tokens env.limiterAt).1.level env.limiterAt := by
    intro l hl hconns
    change (b.checkRateLimits connId tokens env).1.limits.connLevel connId env.limiterAt = _
    rw [hl, Limits.connLevel, hconns, AList.lookup_insert]
  rcases hcases with ⟨hrefused, hlimits, hsome⟩ | ⟨hgranted, hlimits, -⟩
  · refine Or.inl ⟨hsome, ?_⟩
    rw [hafter _ hlimits rfl]
    rcases limiter.acquire_cases tokens env.limiterAt with ⟨-, hkeeps⟩ | ⟨hgranted, -⟩
    · rw [hkeeps]
      exact hlevel
    · rw [hrefused] at hgranted
      cases hgranted
  · refine Or.inr ?_
    rw [hafter _ hlimits rfl]
    rcases limiter.acquire_cases tokens env.limiterAt with ⟨hrefused, -⟩ | ⟨-, hnonneg, htaken⟩
    · rw [hgranted] at hrefused
      cases hrefused
    · exact ⟨hnonneg, htaken.le.trans hlevel⟩

/-- The global limiter is not asked, or refuses, or it had the tokens. -/
theorem globalLevel_check (h : b.limits.Rated config) :
    let after := (b.checkRateLimits connId tokens env).1.limits.globalLevel env.globalLimiterAt
    ((b.checkRateLimits connId tokens env).2 ≠ none ∧
      after ≤ b.limits.globalLevel env.globalLimiterAt) ∨
    (0 ≤ after ∧ tokens.toNat + after ≤ b.limits.globalLevel env.globalLimiterAt) := by
  intro after
  obtain ⟨limiter, global, hglobal, -, -, hcases⟩ :=
    checkRateLimits_of_rated connId tokens env h
  have hbefore : b.limits.globalLevel env.globalLimiterAt = global.level env.globalLimiterAt := by
    have hglobal' : b.limits.global = some global := hglobal
    rw [Limits.globalLevel, hglobal']
  rw [hbefore]
  rcases hcases with ⟨-, hlimits, hsome⟩ | ⟨-, hlimits, hpassed⟩
  · refine Or.inl ⟨hsome, le_of_eq ?_⟩
    change (b.checkRateLimits connId tokens env).1.limits.globalLevel env.globalLimiterAt = _
    rw [hlimits]
    exact hbefore
  · have hafter : after = (global.acquire tokens env.globalLimiterAt).1.level
        env.globalLimiterAt := by
      change (b.checkRateLimits connId tokens env).1.limits.globalLevel env.globalLimiterAt = _
      rw [hlimits, Limits.globalLevel]
    rw [hafter]
    rcases global.acquire_cases tokens env.globalLimiterAt with
      ⟨hrefused, hkeeps⟩ | ⟨-, hnonneg, htaken⟩
    · refine Or.inl ⟨fun hnone => ?_, hkeeps.le⟩
      rw [hpassed.mp hnone] at hrefused
      cases hrefused
    · exact Or.inr ⟨hnonneg, htaken.le⟩

end Check

/-! ### Runs -/

/-- A step that does not turn the rate limits off; a batch is one that can be counted. -/
structure KeepsLimits (lib : Libraries) (op : BrokerOp) : Prop where
  enabled : ∀ config, op = .setGlobalConfig config → config.rateLimitEnabled = true
  counted : ∀ connId frame env, op = .frame connId frame env → CountedBatch lib frame

variable {lib} in
theorem KeepsLimits.frame {connId : ConnectionId} {frame : Frame} {env : HandlerEnv}
    (h : CountedBatch lib frame) : KeepsLimits lib (.frame connId frame env) where
  enabled _ heq := by cases heq
  counted _ _ _ heq := by
    cases heq
    exact h

/-- The steps that are no frames leave the limiters alone. -/
theorem limits_step_other (h : b.limits.Rated config) {op : BrokerOp} (hop : KeepsLimits lib op)
    (hframe : ∀ connId frame env, op ≠ .frame connId frame env) :
    ((broker ℚ lib).step b op).1.limits = b.limits := by
  cases op with
  | frame connId frame env => exact absurd rfl (hframe connId frame env)
  | setGlobalConfig config' =>
    have henabled : b.limits.enabled = config'.rateLimitEnabled :=
      h.enabled.trans (hop.enabled config' rfl).symm
    simp only [broker, limits] at henabled ⊢
    rw [henabled]
  | _ => rfl

theorem rated_step (h : b.limits.Rated config) {op : BrokerOp} (hop : KeepsLimits lib op) :
    ((broker ℚ lib).step b op).1.limits.Rated config := by
  cases op with
  | frame connId frame env =>
    cases limitsOutcome_frame lib b connId (hop.counted connId frame env rfl) env with
    | quiet hlimits =>
      rw [hlimits]
      exact h
    | asked hframe htype tokens hlimits =>
      rw [hlimits]
      exact rated_check _ tokens _ h
  | _ =>
    rw [limits_step_other lib h hop fun _ _ _ heq => by cases heq]
    exact h

/-- The messages that a frame of one of the connections `conns` has stored. -/
def storedFrom (conns : ConnectionId → Bool) (e : BrokerEvent ℚ) : ℕ :=
  match e.input with
  | .frame connId _ _ => if conns connId then e.output.stored.length else 0
  | _ => 0

/-- The clock readings of the limiter of a connection. -/
def connReading (connId : ConnectionId) : BrokerOp → Option ℤ
  | .frame connId' frame env =>
    if connId' = connId ∧ IsPublish frame then some env.limiterAt else none
  | _ => none

/-- The clock readings of the global limiter. -/
def globalReading : BrokerOp → Option ℤ
  | .frame _ frame env => if IsPublish frame then some env.globalLimiterAt else none
  | _ => none

/-- What the rate yields is what it gains. -/
theorem gain_eq (rate : UInt32) (t u : ℤ) :
    TokenBucket.gain rate t u = rate.toNat / 1000000000 * ((u - t : ℤ) : ℚ) := by
  rw [TokenBucket.gain]
  ring

/-- A step that asks a limiter for the tokens of what it stores takes them from its level. -/
theorem spends_of_asked {stored : List StoredRequest} {refused : Option String} {tokens : UInt32}
    {before after : ℚ} (hstored : stored = [] ∨ refused = none ∧ stored.length ≤ tokens.toNat)
    (hasked : (refused ≠ none ∧ after ≤ before) ∨ (0 ≤ after ∧ tokens.toNat + after ≤ before)) :
    (stored.length = 0 ∧ after ≤ before) ∨ (0 ≤ after ∧ stored.length + after ≤ before) := by
  rcases hasked with ⟨hrefused, hle⟩ | ⟨hnonneg, htaken⟩
  · exact Or.inl ⟨List.length_eq_zero_iff.mpr (hstored.resolve_right fun h => hrefused h.1), hle⟩
  · have hlength : (stored.length : ℚ) ≤ tokens.toNat := by
      rcases hstored with rfl | ⟨-, hlength⟩
      · exact Nat.cast_nonneg _
      · exact Nat.cast_le.mpr hlength
    exact Or.inr ⟨hnonneg, (add_le_add_left hlength after).trans htaken⟩

/-- The messages of a connection come out of the level of its limiter. -/
theorem connBudget (config : BrokerConfig) (connId : ConnectionId) :
    Budget (broker ℚ lib) (KeepsLimits lib) (fun b => b.limits.Rated config)
      (storedFrom fun connId' => connId' = connId) (connReading connId)
      (fun b t => b.limits.connLevel connId t) (config.connPublishRate.toNat / 1000000000) where
  rate_nonneg := by positivity
  inv_step b op h hop := rated_step lib h hop
  level_le b t u h htu := by
    rw [← gain_eq]
    exact h.connLevel_le_add htu
  idle b op h hop hreading := by
    cases op with
    | frame connId' frame env =>
      cases limitsOutcome_frame lib b connId' (hop.counted connId' frame env rfl) env with
      | quiet hlimits hstored =>
        refine ⟨?_, fun t => by rw [hlimits]⟩
        rw [storedFrom, StepMachine.event_input, StepMachine.event_output, hstored]
        exact ite_self _
      | asked hframe htype tokens hlimits =>
        cases hframe
        have hne : connId' ≠ connId := by
          rintro rfl
          rw [connReading, if_pos ⟨rfl, htype⟩] at hreading
          cases hreading
        refine ⟨if_neg (by simpa using hne), fun t => ?_⟩
        rw [hlimits, connLevel_check_ne connId' tokens env h hne.symm]
    | _ =>
      refine ⟨rfl, fun t => ?_⟩
      rw [limits_step_other lib h hop fun _ _ _ heq => by cases heq]
  spend b op t h hop hreading := by
    cases op with
    | frame connId' frame env =>
      rw [connReading] at hreading
      split at hreading
      · next hconn =>
        obtain ⟨rfl, -⟩ := hconn
        obtain rfl := Option.some_inj.mp hreading
        have hamount : storedFrom (fun connId => connId = connId')
            ((broker ℚ lib).event b (.frame connId' frame env)) =
              ((broker ℚ lib).step b (.frame connId' frame env)).2.stored.length :=
          if_pos (decide_eq_true rfl)
        rw [hamount]
        cases limitsOutcome_frame lib b connId' (hop.counted connId' frame env rfl) env with
        | quiet hlimits hstored =>
          rw [hlimits, hstored]
          exact Or.inl ⟨rfl, le_rfl⟩
        | asked hframe htype tokens hlimits hstored =>
          cases hframe
          rw [hlimits]
          exact spends_of_asked hstored (connLevel_check connId' tokens env h)
      · cases hreading
    | _ => cases hreading

/-- The messages of all connections come out of the level of the global limiter. -/
theorem globalBudget (config : BrokerConfig) :
    Budget (broker ℚ lib) (KeepsLimits lib) (fun b => b.limits.Rated config)
      (storedFrom fun _ => true) globalReading (fun b t => b.limits.globalLevel t)
      (config.globalPublishRate.toNat / 1000000000) where
  rate_nonneg := by positivity
  inv_step b op h hop := rated_step lib h hop
  level_le b t u h htu := by
    rw [← gain_eq]
    exact h.globalLevel_le_add htu
  idle b op h hop hreading := by
    cases op with
    | frame connId frame env =>
      cases limitsOutcome_frame lib b connId (hop.counted connId frame env rfl) env with
      | quiet hlimits hstored =>
        refine ⟨?_, fun t => by rw [hlimits]⟩
        rw [storedFrom, StepMachine.event_input, StepMachine.event_output, hstored]
        exact ite_self _
      | asked hframe htype tokens hlimits =>
        cases hframe
        rw [globalReading, if_pos htype] at hreading
        cases hreading
    | _ =>
      refine ⟨rfl, fun t => ?_⟩
      rw [limits_step_other lib h hop fun _ _ _ heq => by cases heq]
  spend b op t h hop hreading := by
    cases op with
    | frame connId frame env =>
      rw [globalReading] at hreading
      split at hreading
      · obtain rfl := Option.some_inj.mp hreading
        have hamount : storedFrom (fun _ => true)
            ((broker ℚ lib).event b (.frame connId frame env)) =
              ((broker ℚ lib).step b (.frame connId frame env)).2.stored.length := by
          rw [storedFrom]
          exact if_pos rfl
        rw [hamount]
        cases limitsOutcome_frame lib b connId (hop.counted connId frame env rfl) env with
        | quiet hlimits hstored =>
          rw [hlimits, hstored]
          exact Or.inl ⟨rfl, le_rfl⟩
        | asked hframe htype tokens hlimits hstored =>
          cases hframe
          rw [hlimits]
          exact spends_of_asked hstored (globalLevel_check connId tokens env h)
      · cases hreading
    | _ => cases hreading

/-- A new broker with rate limits. -/
theorem rated_ofConfig {config : BrokerConfig} (hlimited : config.rateLimitEnabled = true)
    (store : StoreConfig) (steadyNow : ℤ) :
    (ofConfig config store steadyNow : Broker ℚ).limits.Rated config where
  enabled := hlimited
  config_eq := rfl
  limited := hlimited
  conns _ _ hlook := by cases hlook
  global := ⟨_, if_pos hlimited, rfl, rfl⟩

/-- The clock that the limiters read runs from `t` to `u`, never backwards. -/
def ClockBetween (t u : ℤ) (readings : List ℤ) : Prop :=
  (t :: (readings ++ [u])).Pairwise (· ≤ ·)

/-- **What the rate limits let through.** Let a broker with rate limits handle any frames in any
order, with any background passes in between. Over any stretch of the run, from time `t` to `u`,
the messages stored for one connection, by publish requests and batches, are at most the burst
size and what the rate of a connection yields in that time, and those stored for all connections
together at most the burst size and what the global rate yields. -/
theorem stored_le_rate {config : BrokerConfig} (hlimited : config.rateLimitEnabled = true)
    (store : StoreConfig) (steadyNow : ℤ) {before stretch : List BrokerOp}
    (hkeeps : ∀ op ∈ before ++ stretch, KeepsLimits lib op) :
    let stored (conns : ConnectionId → Bool) : ℕ :=
      (((broker ℚ lib).trace ((broker ℚ lib).run (ofConfig config store steadyNow) before)
        stretch).map (storedFrom conns)).sum
    (∀ connId t u, ClockBetween t u (stretch.filterMap (connReading connId)) →
      (stored fun connId' => connId' = connId : ℚ) ≤ config.rateLimitBurst.toNat +
        config.connPublishRate.toNat / 1000000000 * (u - t : ℤ)) ∧
    ∀ t u, ClockBetween t u (stretch.filterMap globalReading) →
      (stored fun _ => true : ℚ) ≤ config.rateLimitBurst.toNat +
        config.globalPublishRate.toNat / 1000000000 * (u - t : ℤ) := by
  intro stored
  have hbefore : ∀ op ∈ before, KeepsLimits lib op := fun op hop =>
    hkeeps op (List.mem_append_left _ hop)
  have hstretch : ∀ op ∈ stretch, KeepsLimits lib op := fun op hop =>
    hkeeps op (List.mem_append_right _ hop)
  have hrated := (globalBudget lib config).inv_run
    (rated_ofConfig hlimited store steadyNow) hbefore
  -- what the rate yields between the two times is not negative
  have hyield : ∀ (rate : UInt32) (t u : ℤ) (readings : List ℤ), ClockBetween t u readings →
      (0 : ℚ) ≤ rate.toNat / 1000000000 * (u - t : ℤ) := by
    intro rate t u readings hclock
    have htu : t ≤ u := (List.pairwise_cons.mp hclock).1 u (by simp)
    rw [← gain_eq]
    exact TokenBucket.gain_nonneg rate htu
  constructor
  · intro connId t u hclock
    refine ((connBudget lib config connId).sum_le hrated hstretch hclock).trans ?_
    have hnonneg := hyield config.connPublishRate t u _ hclock
    refine max_le (by positivity) (add_le_add_left hrated.connLevel_le_burst _)
  · intro t u hclock
    refine ((globalBudget lib config).sum_le hrated hstretch hclock).trans ?_
    have hnonneg := hyield config.globalPublishRate t u _ hclock
    refine max_le (by positivity) (add_le_add_left hrated.globalLevel_le_burst _)

/-- Limits of two messages at once and one a second. -/
def slowConfig : BrokerConfig :=
  { rateLimitEnabled := true, rateLimitBurst := 2, connPublishRate := 1, globalPublishRate := 1 }

/-- Two messages at once, a batch too early for a third one, and a message in time. -/
def slowRun : List BrokerOp := [
  .frame 1 fillFrame (.ofClocks 0 0), .frame 1 fillFrame (.ofClocks 0 0),
  .frame 1 batchFrame (.ofClocks 500000000 0), .frame 1 firstFrame (.ofClocks 1000000000 1)]

/-- The bound is reached: three messages in a second. -/
theorem stored_le_rate_slowRun :
    let stored := (((broker ℚ wireLibraries).trace (ofConfig slowConfig {} 0) slowRun).map
      (storedFrom fun connId => connId = 1)).sum
    stored = 3 ∧ (stored : ℚ) ≤ 3 := by
  have hkeeps : ∀ op ∈ [] ++ slowRun, KeepsLimits wireLibraries op := by
    intro op hop
    simp only [slowRun, List.nil_append, List.mem_cons, List.not_mem_nil, or_false] at hop
    rcases hop with rfl | rfl | rfl | rfl <;> refine KeepsLimits.frame fun req hparse => ?_
    · cases hparse
    · cases hparse
    · obtain rfl := Option.some.inj hparse
      decide
    · cases hparse
  have hclock : ClockBetween 0 1000000000 (slowRun.filterMap (connReading 1)) := by
    have hreadings : slowRun.filterMap (connReading 1) = [0, 0, 500000000, 1000000000] := by
      decide +kernel
    rw [hreadings, ClockBetween]
    decide
  refine ⟨by decide +kernel, ?_⟩
  have hlimited : slowConfig.rateLimitEnabled = true := rfl
  have hbound := (stored_le_rate wireLibraries hlimited {} 0 hkeeps).1 1 0 1000000000 hclock
  refine hbound.trans (le_of_eq ?_)
  change ((2 : ℕ) : ℚ) + ((1 : ℕ) : ℚ) / 1000000000 * _ = 3
  norm_num

end Broker

end ProtoMsgQueue
