import Mathlib.Algebra.Order.Ring.Rat
import Mathlib.Tactic.Linarith
import Mathlib.Tactic.Positivity
import Mathlib.Tactic.Ring
import ProtoMsgQueue.Common.RateLimiter
import ProtoMsgQueue.Lib.StepMachine

/-!
# The rate a token bucket enforces

Tokens are counted in exact rationals and the clock never runs backwards. A bucket then
always holds between none and `burstSize` tokens, and over any stretch of time in which its
parameters stay the same it grants at most `burstSize` tokens and those gained in that time
(`granted_le`). The account is kept by `acquire_tokens`: what an `acquire` grants and what
it leaves are together what refilling alone would give.
-/

namespace ProtoMsgQueue

namespace TokenBucket

variable (bucket : TokenBucket ℚ)

/-! ### Refilling -/

/-- The tokens `refill` leaves: those gained since the last time, up to the burst size. -/
theorem refill_tokens (steadyNow : ℤ) : (bucket.refill steadyNow).tokens =
    min (bucket.burstSize.toNat : ℚ)
      (bucket.tokens + bucket.ratePerSecond.toNat *
        ((steadyNow - bucket.lastRefillTime : ℤ) / 1000000000)) := by
  rw [mul_comm]
  simp only [refill, clamp, TokenCount.lt, TokenCount.add, TokenCount.mul, TokenCount.ofUInt32,
    TokenCount.seconds, decide_eq_true_eq]
  split
  · next h => exact (min_eq_left h.le).symm
  · next h => exact (min_eq_right (not_lt.mp h)).symm

@[simp] theorem refill_burstSize (steadyNow : ℤ) :
    (bucket.refill steadyNow).burstSize = bucket.burstSize := rfl

@[simp] theorem refill_ratePerSecond (steadyNow : ℤ) :
    (bucket.refill steadyNow).ratePerSecond = bucket.ratePerSecond := rfl

@[simp] theorem refill_lastRefillTime (steadyNow : ℤ) :
    (bucket.refill steadyNow).lastRefillTime = steadyNow := rfl

/-- A successful `acquire` takes exactly what was asked for, a refused one nothing. -/
theorem acquire_tokens (n : UInt32) (steadyNow : ℤ) :
    (bucket.acquire n steadyNow).1.tokens =
      (bucket.refill steadyNow).tokens -
        if (bucket.acquire n steadyNow).2 then (n.toNat : ℚ) else 0 := by
  unfold acquire
  dsimp only
  split
  · rfl
  · exact (sub_zero _).symm

/-- Tokens are granted exactly if there are enough. -/
theorem acquire_snd (n : UInt32) (steadyNow : ℤ) :
    (bucket.acquire n steadyNow).2 = true ↔ (n.toNat : ℚ) ≤ (bucket.refill steadyNow).tokens := by
  unfold acquire
  simp only [TokenCount.le, TokenCount.ofUInt32, decide_eq_true_eq]
  split
  · next h => exact iff_of_true rfl h
  · next h => exact iff_of_false Bool.false_ne_true h

/-- An `acquire` changes what `refill` changes, and the tokens. -/
theorem acquire_eq (n : UInt32) (steadyNow : ℤ) : (bucket.acquire n steadyNow).1 =
    { bucket.refill steadyNow with tokens := (bucket.acquire n steadyNow).1.tokens } := by
  unfold acquire
  dsimp only
  split <;> rfl

/-- The tokens the bucket would hold at a time if it was refilled and nothing else. -/
def level (steadyNow : ℤ) : ℚ := (bucket.refill steadyNow).tokens

/-- An `acquire` lowers the level by what it grants. -/
theorem level_acquire (n : UInt32) (steadyNow : ℤ) :
    (bucket.acquire n steadyNow).1.level steadyNow =
      bucket.level steadyNow - if (bucket.acquire n steadyNow).2 then (n.toNat : ℚ) else 0 := by
  have htaken : (0 : ℚ) ≤ if (bucket.acquire n steadyNow).2 then (n.toNat : ℚ) else 0 := by
    split
    · exact Nat.cast_nonneg _
    · exact le_rfl
  have hle : (bucket.acquire n steadyNow).1.tokens ≤ bucket.burstSize.toNat := by
    rw [acquire_tokens, refill_tokens]
    exact (sub_le_self _ htaken).trans (min_le_left _ _)
  rw [level, refill_tokens, acquire_eq]
  simp only [refill_burstSize, refill_lastRefillTime, sub_self, Int.cast_zero, zero_div, mul_zero,
    add_zero]
  rw [min_eq_right hle, acquire_tokens]
  rfl

/-! ### The number of tokens -/

/-- The bucket holds between none and `burstSize` tokens. -/
def InBounds : Prop := 0 ≤ bucket.tokens ∧ bucket.tokens ≤ bucket.burstSize.toNat

variable {bucket}

theorem inBounds_ofRate (ratePerSecond burstSize : UInt32) (steadyNow : ℤ) :
    (ofRate ratePerSecond burstSize steadyNow : TokenBucket ℚ).InBounds :=
  ⟨Nat.cast_nonneg _, le_rfl⟩

/-- Time that passes brings tokens, never takes any. -/
theorem InBounds.refill (h : bucket.InBounds) {steadyNow : ℤ}
    (hclock : bucket.lastRefillTime ≤ steadyNow) : (bucket.refill steadyNow).InBounds := by
  have helapsed : (0 : ℚ) ≤ (steadyNow - bucket.lastRefillTime : ℤ) :=
    Int.cast_nonneg (sub_nonneg.mpr hclock)
  rw [InBounds, refill_tokens]
  refine ⟨le_min (Nat.cast_nonneg _) ?_, min_le_left _ _⟩
  exact add_nonneg h.1 (by positivity)

theorem InBounds.acquire (h : bucket.InBounds) {steadyNow : ℤ}
    (hclock : bucket.lastRefillTime ≤ steadyNow) (n : UInt32) :
    (bucket.acquire n steadyNow).1.InBounds := by
  have hrefill := h.refill hclock
  rw [acquire_eq, InBounds, acquire_tokens]
  split
  · next hgranted =>
    have henough := (bucket.acquire_snd n steadyNow).mp hgranted
    refine ⟨sub_nonneg.mpr henough, (sub_le_self _ (Nat.cast_nonneg _)).trans hrefill.2⟩
  · rwa [sub_zero]

theorem InBounds.setRate (h : bucket.InBounds) {steadyNow : ℤ}
    (hclock : bucket.lastRefillTime ≤ steadyNow) (ratePerSecond burstSize : UInt32) :
    (bucket.setRate ratePerSecond burstSize steadyNow).InBounds := by
  have hrefill := h.refill hclock
  simp only [InBounds, TokenBucket.setRate, clamp, TokenCount.lt, TokenCount.ofUInt32,
    decide_eq_true_eq]
  split
  · exact ⟨Nat.cast_nonneg _, le_rfl⟩
  · next hle => exact ⟨hrefill.1, not_lt.mp hle⟩

/-! ### Runs of calls -/

/-- A call on a bucket. -/
inductive BucketCall where
  /-- `acquire` of a number of tokens. -/
  | acquire (tokens : UInt32)
  /-- `setRate` with new parameters. -/
  | setRate (ratePerSecond burstSize : UInt32)

/-- A bucket as a machine: each call comes with the reading of the clock made in it; the
output says whether tokens were granted. -/
def limiter : StepMachine (TokenBucket ℚ) (BucketCall × ℤ) Bool where
  step bucket
    | (.acquire tokens, steadyNow) => bucket.acquire tokens steadyNow
    | (.setRate ratePerSecond burstSize, steadyNow) =>
      (bucket.setRate ratePerSecond burstSize steadyNow, false)

/-- The tokens granted in one step. -/
def grantedBy (e : StepMachine.Event (TokenBucket ℚ) (BucketCall × ℤ) Bool) : ℕ :=
  match e.input.1 with
  | .acquire tokens => if e.output then tokens.toNat else 0
  | .setRate _ _ => 0

/-- The tokens granted over a run. -/
def granted (bucket : TokenBucket ℚ) (calls : List (BucketCall × ℤ)) : ℕ :=
  ((limiter.trace bucket calls).map grantedBy).sum

/-- The clock never runs backwards, from the time `t` on. -/
def ClockFrom (t : ℤ) (calls : List (BucketCall × ℤ)) : Prop :=
  (t :: calls.map Prod.snd).Pairwise (· ≤ ·)

theorem clockFrom_cons {t : ℤ} {call : BucketCall × ℤ} {calls : List (BucketCall × ℤ)} :
    ClockFrom t (call :: calls) ↔ t ≤ call.2 ∧ ClockFrom call.2 calls := by
  simp only [ClockFrom, List.map_cons, List.pairwise_cons, List.mem_cons, forall_eq_or_imp]
  constructor
  · exact fun h => ⟨h.1.1, h.2⟩
  · exact fun h => ⟨⟨h.1, fun u hu => h.1.trans (h.2.1 u hu)⟩, h.2⟩

/-- Every call reads the clock once. -/
@[simp] theorem step_lastRefillTime (bucket : TokenBucket ℚ) (call : BucketCall × ℤ) :
    (limiter.step bucket call).1.lastRefillTime = call.2 := by
  obtain ⟨call | _, steadyNow⟩ := call
  · exact congrArg lastRefillTime (bucket.acquire_eq call steadyNow)
  · rfl

theorem InBounds.step (h : bucket.InBounds) {call : BucketCall × ℤ}
    (hclock : bucket.lastRefillTime ≤ call.2) : (limiter.step bucket call).1.InBounds := by
  obtain ⟨n | ⟨r, b⟩, steadyNow⟩ := call
  · exact h.acquire hclock n
  · exact h.setRate hclock r b

theorem InBounds.run (h : bucket.InBounds) {calls : List (BucketCall × ℤ)}
    (hclock : ClockFrom bucket.lastRefillTime calls) : (limiter.run bucket calls).InBounds := by
  induction calls generalizing bucket with
  | nil => exact h
  | cons call calls ih =>
    obtain ⟨hnow, hlater⟩ := clockFrom_cons.mp hclock
    refine ih (h.step hnow) ?_
    rwa [step_lastRefillTime]

/-- The clock goes on from where the calls so far have left it. -/
theorem ClockFrom.of_append {before rest : List (BucketCall × ℤ)}
    (h : ClockFrom bucket.lastRefillTime (before ++ rest)) :
    ClockFrom (limiter.run bucket before).lastRefillTime rest := by
  induction before generalizing bucket with
  | nil => exact h
  | cons call before ih =>
    refine ih ?_
    rw [step_lastRefillTime]
    exact (clockFrom_cons.mp h).2

theorem ClockFrom.left {t : ℤ} {before rest : List (BucketCall × ℤ)}
    (h : ClockFrom t (before ++ rest)) : ClockFrom t before := by
  rw [ClockFrom, List.map_append, ← List.cons_append] at h
  exact (List.pairwise_append.mp h).1

/-! ### The bound -/

/-- The tokens gained between two times. -/
def gain (ratePerSecond : UInt32) (t₁ t₂ : ℤ) : ℚ :=
  ratePerSecond.toNat * ((t₂ - t₁ : ℤ) / 1000000000)

theorem gain_nonneg (ratePerSecond : UInt32) {t₁ t₂ : ℤ} (h : t₁ ≤ t₂) :
    0 ≤ gain ratePerSecond t₁ t₂ := by
  have helapsed : (0 : ℚ) ≤ (t₂ - t₁ : ℤ) := Int.cast_nonneg (sub_nonneg.mpr h)
  rw [gain]
  positivity

theorem gain_add (ratePerSecond : UInt32) (t₁ t₂ t₃ : ℤ) :
    gain ratePerSecond t₁ t₂ + gain ratePerSecond t₂ t₃ = gain ratePerSecond t₁ t₃ := by
  simp only [gain]
  push_cast
  ring

@[simp] theorem granted_nil (bucket : TokenBucket ℚ) : granted bucket [] = 0 := rfl

theorem granted_cons (bucket : TokenBucket ℚ) (call : BucketCall × ℤ)
    (calls : List (BucketCall × ℤ)) : granted bucket (call :: calls) =
      grantedBy (limiter.event bucket call) + granted (limiter.step bucket call).1 calls := rfl

/-- One `acquire`: what it grants and what it leaves are what refilling gives. -/
theorem grantedBy_acquire (bucket : TokenBucket ℚ) (n : UInt32) (steadyNow : ℤ) :
    (grantedBy (limiter.event bucket (.acquire n, steadyNow)) : ℚ) +
      (limiter.step bucket (.acquire n, steadyNow)).1.tokens =
        (bucket.refill steadyNow).tokens := by
  change ((if (bucket.acquire n steadyNow).2 then n.toNat else 0 : ℕ) : ℚ) +
    (bucket.acquire n steadyNow).1.tokens = _
  rw [acquire_tokens, Nat.cast_ite, Nat.cast_zero]
  ring

/-- A stretch that begins with an `acquire`: what is granted comes out of the refilled
bucket and of what is gained from then on, if this holds of the rest of the stretch. -/
theorem granted_acquire_cons_le {n : UInt32} {steadyNow t₂ : ℤ}
    {stretch : List (BucketCall × ℤ)}
    (hrest : (granted (bucket.acquire n steadyNow).1 stretch : ℚ) ≤
      (bucket.acquire n steadyNow).1.tokens + gain bucket.ratePerSecond steadyNow t₂) :
    (granted bucket ((.acquire n, steadyNow) :: stretch) : ℚ) ≤
      (bucket.refill steadyNow).tokens + gain bucket.ratePerSecond steadyNow t₂ := by
  have hone : (grantedBy (limiter.event bucket (.acquire n, steadyNow)) : ℚ) +
      (bucket.acquire n steadyNow).1.tokens = _ := grantedBy_acquire bucket n steadyNow
  rw [granted_cons, Nat.cast_add]
  change _ + (granted (bucket.acquire n steadyNow).1 stretch : ℚ) ≤ _
  linarith

/-- Over calls of `acquire`, a bucket grants at most what it holds and what it gains. -/
theorem granted_le_tokens_add_gain {stretch : List (BucketCall × ℤ)} {t₂ : ℤ}
    (hbucket : bucket.InBounds) (hclock : ClockFrom bucket.lastRefillTime stretch)
    (hacquire : ∀ call ∈ stretch, ∃ n, call.1 = .acquire n)
    (hend : ∀ call ∈ stretch, call.2 ≤ t₂) (hlast : bucket.lastRefillTime ≤ t₂) :
    (granted bucket stretch : ℚ) ≤
      bucket.tokens + gain bucket.ratePerSecond bucket.lastRefillTime t₂ := by
  induction stretch generalizing bucket with
  | nil => simpa using add_nonneg hbucket.1 (gain_nonneg _ hlast)
  | cons call stretch ih =>
    simp only [List.forall_mem_cons] at hacquire hend
    obtain ⟨hnow, hlater⟩ := clockFrom_cons.mp hclock
    obtain ⟨call, steadyNow⟩ := call
    obtain ⟨⟨n, rfl⟩, hacquire⟩ := hacquire
    have hrest := ih (hbucket.acquire hnow n) (by rw [acquire_eq]; exact hlater) hacquire hend.2
      (by rw [acquire_eq]; exact hend.1)
    rw [acquire_eq bucket n steadyNow] at hrest
    have hone := granted_acquire_cons_le (by rw [acquire_eq]; exact hrest)
    have hrefill : (bucket.refill steadyNow).tokens ≤
        bucket.tokens + gain bucket.ratePerSecond bucket.lastRefillTime steadyNow := by
      rw [refill_tokens]
      exact min_le_right _ _
    have hsum := gain_add bucket.ratePerSecond bucket.lastRefillTime steadyNow t₂
    linarith

/-- **The rate bound.** In every run of calls under a clock that never runs backwards, the
bucket holds between none and `burstSize` tokens after each call; and for every stretch of
the run, between times `t₁` and `t₂`, that makes no `setRate`, the tokens it grants are at
most the burst size and what the rate yields from `t₁` to `t₂`. -/
theorem granted_le (ratePerSecond burstSize : UInt32) (t₀ : ℤ) (calls : List (BucketCall × ℤ))
    (hclock : ClockFrom t₀ calls) (before stretch after : List (BucketCall × ℤ))
    (hcalls : calls = before ++ stretch ++ after) :
    let bucket := limiter.run (ofRate ratePerSecond burstSize t₀) before
    (0 ≤ bucket.tokens ∧ bucket.tokens ≤ bucket.burstSize.toNat) ∧
      ∀ t₁ t₂, t₁ ≤ t₂ → (∀ call ∈ stretch, t₁ ≤ call.2 ∧ call.2 ≤ t₂) →
        (∀ call ∈ stretch, ∃ n, call.1 = .acquire n) →
          (granted bucket stretch : ℚ) ≤ bucket.burstSize.toNat +
            bucket.ratePerSecond.toNat * (((t₂ - t₁ : ℤ) : ℚ) / 1000000000) := by
  intro bucket
  rw [hcalls] at hclock
  have hbucket : bucket.InBounds :=
    (inBounds_ofRate ratePerSecond burstSize t₀).run hclock.left.left
  have hstart : ClockFrom (ofRate ratePerSecond burstSize t₀ : TokenBucket ℚ).lastRefillTime
      (before ++ stretch) := hclock.left
  have hclock' : ClockFrom bucket.lastRefillTime stretch := hstart.of_append
  refine ⟨hbucket, fun t₁ t₂ hle hwithin hacquire => ?_⟩
  rw [← gain]
  cases stretch with
  | nil => simpa using add_nonneg (Nat.cast_nonneg _) (gain_nonneg _ hle)
  | cons call stretch =>
    -- the first call refills the bucket to at most its burst size, at `t₁` or later
    simp only [List.forall_mem_cons] at hacquire hwithin
    obtain ⟨hnow, hlater⟩ := clockFrom_cons.mp hclock'
    obtain ⟨call, steadyNow⟩ := call
    obtain ⟨⟨n, rfl⟩, hacquire⟩ := hacquire
    obtain ⟨⟨hfrom, hto⟩, hwithin⟩ := hwithin
    have hrest := granted_le_tokens_add_gain (hbucket.acquire hnow n)
      (by rw [acquire_eq]; exact hlater) hacquire (fun c hc => (hwithin c hc).2)
      (by rw [acquire_eq]; exact hto)
    rw [acquire_eq bucket n steadyNow] at hrest
    have hone := granted_acquire_cons_le (by rw [acquire_eq]; exact hrest)
    have hfull : (bucket.refill steadyNow).tokens ≤ bucket.burstSize.toNat :=
      (hbucket.refill hnow).2
    have hearly := gain_nonneg bucket.ratePerSecond hfrom
    have hsum := gain_add bucket.ratePerSecond t₁ steadyNow t₂
    linarith

/-- A bucket whose rate is doubled after it was emptied: in the second from then on it
grants at most the burst size and one second of the new rate. -/
theorem granted_le_after_setRate :
    let bucket := limiter.run (ofRate 10 5 0)
      [(.acquire 5, 0), (.setRate 20 5, 1000000000)]
    (granted bucket [(.acquire 3, 1000000000), (.acquire 4, 1500000000)] : ℚ) ≤ 25 := by
  intro bucket
  have h := (granted_le 10 5 0 _
    (by simp [ClockFrom] : ClockFrom 0 ([(.acquire 5, 0), (.setRate 20 5, 1000000000)] ++
      [(.acquire 3, 1000000000), (.acquire 4, 1500000000)] ++ [(.acquire 9, 2000000000)]))
    _ _ _ rfl).2 1000000000 2000000000 (by norm_num) (by simp) (by simp)
  refine h.trans (le_of_eq ?_)
  change ((5 : ℕ) : ℚ) + ((20 : ℕ) : ℚ) * _ = 25
  norm_num

end TokenBucket

end ProtoMsgQueue
