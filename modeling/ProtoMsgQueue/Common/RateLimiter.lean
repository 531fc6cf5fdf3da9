import Mathlib.Algebra.Order.Field.Rat

/-!
# Token buckets

`TokenBucket` of `common/rate_limiter.h`. The source counts tokens in doubles. The model
takes the number type as a parameter, with just the operations the source applies, so that
what is proved for every number type holds of the doubles, and the exact rationals are
another instance.
-/

namespace ProtoMsgQueue

/-- Numbers in which tokens are counted. -/
class TokenCount (α : Type*) where
  add : α → α → α
  sub : α → α → α
  mul : α → α → α
  lt : α → α → Bool
  le : α → α → Bool
  ofUInt32 : UInt32 → α
  /-- A duration in nanoseconds, in seconds. -/
  seconds : ℤ → α

/-- Exact rationals. -/
instance : TokenCount ℚ where
  add x y := x + y
  sub x y := x - y
  mul x y := x * y
  lt x y := x < y
  le x y := x ≤ y
  ofUInt32 n := n.toNat
  seconds ns := ns / 1000000000

/-- Doubles, as in the source. -/
instance : TokenCount Float where
  add x y := x + y
  sub x y := x - y
  mul x y := x * y
  lt x y := x < y
  le x y := x ≤ y
  ofUInt32 n := n.toFloat
  seconds ns := Float.ofInt ns / 1000000000

/-- A token bucket. -/
structure TokenBucket (α : Type*) where
  /-- Tokens gained each second. -/
  ratePerSecond : UInt32
  /-- The most tokens it holds. -/
  burstSize : UInt32
  /-- The tokens it holds. -/
  tokens : α
  /-- When it was last refilled, in nanoseconds of the steady clock. -/
  lastRefillTime : ℤ

namespace TokenBucket

variable {α : Type*} [TokenCount α] (bucket : TokenBucket α)

/-- A full bucket. -/
def ofRate (ratePerSecond burstSize : UInt32) (steadyNow : ℤ) : TokenBucket α where
  ratePerSecond := ratePerSecond
  burstSize := burstSize
  tokens := TokenCount.ofUInt32 burstSize
  lastRefillTime := steadyNow

/-- The tokens, at most as many as the bucket holds. -/
def clamp (burstSize : UInt32) (tokens : α) : α :=
  if TokenCount.lt (TokenCount.ofUInt32 burstSize) tokens then TokenCount.ofUInt32 burstSize
  else tokens

/-- Add the tokens gained since the last time. -/
def refill (steadyNow : ℤ) : TokenBucket α :=
  let elapsedSeconds : α := TokenCount.seconds (steadyNow - bucket.lastRefillTime)
  let tokens := TokenCount.add bucket.tokens
    (TokenCount.mul elapsedSeconds (TokenCount.ofUInt32 bucket.ratePerSecond))
  { bucket with lastRefillTime := steadyNow, tokens := clamp bucket.burstSize tokens }

/-- Take tokens, if there are enough of them. -/
def acquire (tokens : UInt32) (steadyNow : ℤ) : TokenBucket α × Bool :=
  let bucket := bucket.refill steadyNow
  if TokenCount.le (TokenCount.ofUInt32 tokens) bucket.tokens then
    ({ bucket with tokens := TokenCount.sub bucket.tokens (TokenCount.ofUInt32 tokens) }, true)
  else (bucket, false)

/-- Set new parameters. What was gained until now is gained at the old rate. -/
def setRate (ratePerSecond burstSize : UInt32) (steadyNow : ℤ) : TokenBucket α :=
  let bucket := bucket.refill steadyNow
  { bucket with
    ratePerSecond := ratePerSecond
    burstSize := burstSize
    tokens := clamp burstSize bucket.tokens }

end TokenBucket

end ProtoMsgQueue
