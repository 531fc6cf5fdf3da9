import Mathlib.Data.Nat.Bitwise
import Mathlib.Tactic.Linarith
import Mathlib.Tactic.Positivity
import Mathlib.Tactic.Ring

/-!
# Big-endian byte strings

`beBytes k n` writes the low `k` bytes of `n`, most significant first: the loop
`for (i = k - 1; i >= 0; --i) push((n >> (8 * i)) & 0xFF)`. `beValue` reads a byte string
back with `acc = (acc << 8) | byte`. On `k` bytes the two are inverse to each other
(`beValue_beBytes`, `beBytes_beValue`), the first one modulo `256 ^ k`.
-/

namespace BigEndian

/-- The low `k` bytes of `n`, most significant first. -/
def beBytes : ℕ → ℕ → List UInt8
  | 0, _ => []
  | k + 1, n => UInt8.ofNat (n >>> (8 * k)) :: beBytes k n

/-- The number a byte string denotes, read with a shift and an or per byte. -/
def beValue (bs : List UInt8) : ℕ := bs.foldl (fun acc b => acc <<< 8 ||| b.toNat) 0

@[simp] theorem length_beBytes (k n : ℕ) : (beBytes k n).length = k := by
  induction k with
  | zero => rfl
  | succ k ih => simp [beBytes, ih]

/-- One reading step is a multiplication and an addition: the shifted accumulator has no
bit below the eighth. -/
theorem shiftLeft_or_byte (acc : ℕ) (b : UInt8) :
    acc <<< 8 ||| b.toNat = acc * 256 + b.toNat := by
  rw [← Nat.shiftLeft_add_eq_or_of_lt b.toNat_lt, Nat.shiftLeft_eq]

private theorem foldl_beValue (acc : ℕ) (bs : List UInt8) :
    bs.foldl (fun acc b => acc <<< 8 ||| b.toNat) acc = acc * 256 ^ bs.length + beValue bs := by
  induction bs generalizing acc with
  | nil => simp [beValue]
  | cons b bs ih =>
    have hread : beValue (b :: bs) = b.toNat * 256 ^ bs.length + beValue bs := by
      rw [beValue, List.foldl_cons, ih, shiftLeft_or_byte, Nat.zero_mul, Nat.zero_add]
    rw [List.foldl_cons, ih, hread, shiftLeft_or_byte, List.length_cons, pow_succ]
    ring

@[simp] theorem beValue_nil : beValue [] = 0 := rfl

@[simp] theorem beValue_cons (b : UInt8) (bs : List UInt8) :
    beValue (b :: bs) = b.toNat * 256 ^ bs.length + beValue bs := by
  rw [beValue, List.foldl_cons, foldl_beValue, shiftLeft_or_byte, Nat.zero_mul, Nat.zero_add]

theorem beValue_lt (bs : List UInt8) : beValue bs < 256 ^ bs.length := by
  induction bs with
  | nil => simp
  | cons b bs ih =>
    have hb : b.toNat + 1 ≤ 256 := b.toNat_lt
    have hmul : (b.toNat + 1) * 256 ^ bs.length ≤ 256 * 256 ^ bs.length :=
      Nat.mul_le_mul_right _ hb
    rw [beValue_cons, List.length_cons, pow_succ]
    linarith

/-- The byte written at distance `k` from the end. -/
theorem toNat_byte (n k : ℕ) : (UInt8.ofNat (n >>> (8 * k))).toNat = n / 256 ^ k % 256 := by
  rw [UInt8.toNat_ofNat', Nat.shiftRight_eq_div_pow, pow_mul]
  norm_num only

/-- Only the value modulo `256 ^ k` is written. -/
theorem beBytes_mod (k n : ℕ) : beBytes k (n % 256 ^ k) = beBytes k n := by
  suffices h : ∀ j k, j ≤ k → beBytes j (n % 256 ^ k) = beBytes j n from h k k le_rfl
  intro j k hjk
  induction j with
  | zero => rfl
  | succ j ih =>
    obtain ⟨d, rfl⟩ := Nat.exists_eq_add_of_le hjk
    simp only [beBytes]
    rw [ih (by omega)]
    congr 1
    apply UInt8.toNat_inj.mp
    have hpow : (256 : ℕ) ^ (j + 1 + d) = 256 ^ j * (256 * 256 ^ d) := by ring
    rw [toNat_byte, toNat_byte, hpow, Nat.mod_mul_right_div_self, Nat.mod_mul_right_mod]

/-- **Write, then read.** -/
theorem beValue_beBytes (k n : ℕ) : beValue (beBytes k n) = n % 256 ^ k := by
  induction k with
  | zero => simp [beBytes, Nat.mod_one]
  | succ k ih =>
    rw [beBytes, beValue_cons, length_beBytes, ih, toNat_byte, pow_succ, Nat.mod_mul]
    ring

theorem beValue_beBytes_of_lt {k n : ℕ} (h : n < 256 ^ k) : beValue (beBytes k n) = n := by
  rw [beValue_beBytes, Nat.mod_eq_of_lt h]

/-- **Read, then write.** -/
theorem beBytes_beValue (bs : List UInt8) : beBytes bs.length (beValue bs) = bs := by
  induction bs with
  | nil => rfl
  | cons b bs ih =>
    have hlt := beValue_lt bs
    have hpos : 0 < 256 ^ bs.length := by positivity
    rw [List.length_cons, beBytes, beValue_cons]
    congr 1
    · apply UInt8.toNat_inj.mp
      rw [toNat_byte, Nat.add_comm, Nat.add_mul_div_right _ _ hpos, Nat.div_eq_of_lt hlt,
        Nat.zero_add]
      exact Nat.mod_eq_of_lt b.toNat_lt
    · rw [← beBytes_mod, Nat.add_comm, Nat.add_mul_mod_self_right, Nat.mod_eq_of_lt hlt, ih]

end BigEndian
