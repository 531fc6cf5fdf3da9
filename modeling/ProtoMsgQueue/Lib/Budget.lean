import Mathlib.Algebra.Order.Ring.Rat
import Mathlib.Tactic.Linarith
import Mathlib.Tactic.Positivity
import Mathlib.Tactic.Ring
import ProtoMsgQueue.Lib.StepMachine

/-!
# Machines that spend a budget

Steps of a machine spend an amount and may read a clock. A `Budget` has a level that grows with
the time at most at a fixed rate, and from which every step that spends takes at least what it
spends and leaves something that is not negative. Then what a run spends between two times is
bounded by the level at the first one and what the rate yields (`sum_le`). Nothing is asked of the
clock outside of the run, and nothing of the level of a step that spends nothing, but that the
step does not raise it.
-/

variable {σ ι ο : Type*}

/-- What the steps of a machine spend comes out of a level that grows at a rate. -/
structure Budget (M : StepMachine σ ι ο) (A : ι → Prop) (I : σ → Prop)
    (amount : StepMachine.Event σ ι ο → ℕ) (reading : ι → Option ℤ) (level : σ → ℤ → ℚ)
    (rate : ℚ) : Prop where
  rate_nonneg : 0 ≤ rate
  inv_step : ∀ s i, I s → A i → I (M.step s i).1
  /-- Time raises the level at the rate at most. -/
  level_le : ∀ s t u, I s → t ≤ u → level s u ≤ level s t + rate * (u - t : ℤ)
  /-- A step that reads no clock spends nothing. -/
  idle : ∀ s i, I s → A i → reading i = none →
    amount (M.event s i) = 0 ∧ ∀ t, level (M.step s i).1 t ≤ level s t
  /-- A step that reads the clock spends nothing, or what it takes from the level. -/
  spend : ∀ s i t, I s → A i → reading i = some t →
    (amount (M.event s i) = 0 ∧ level (M.step s i).1 t ≤ level s t) ∨
    (0 ≤ level (M.step s i).1 t ∧ amount (M.event s i) + level (M.step s i).1 t ≤ level s t)

namespace Budget

variable {M : StepMachine σ ι ο} {A : ι → Prop} {I : σ → Prop}
  {amount : StepMachine.Event σ ι ο → ℕ} {reading : ι → Option ℤ} {level : σ → ℤ → ℚ} {rate : ℚ}

theorem inv_run (hB : Budget M A I amount reading level rate) {s : σ} {is : List ι} (hI : I s)
    (hA : ∀ i ∈ is, A i) : I (M.run s is) := by
  induction is generalizing s with
  | nil => exact hI
  | cons i is ih =>
    obtain ⟨hi, his⟩ := List.forall_mem_cons.mp hA
    exact ih (hB.inv_step s i hI hi) his

/-- **The budget.** A run spends at most the level at the first of two times between which it
reads the clock, and what the rate yields from then to the second one. -/
theorem sum_le (hB : Budget M A I amount reading level rate) {s : σ} {is : List ι} {t u : ℤ}
    (hI : I s) (hA : ∀ i ∈ is, A i)
    (hclock : (t :: (is.filterMap reading ++ [u])).Pairwise (· ≤ ·)) :
    ((((M.trace s is).map amount).sum : ℕ) : ℚ) ≤ max 0 (level s t + rate * (u - t : ℤ)) := by
  induction is generalizing s t with
  | nil => exact (Nat.cast_zero (R := ℚ)).le.trans (le_max_left _ _)
  | cons i is ih =>
    obtain ⟨hi, his⟩ := List.forall_mem_cons.mp hA
    have hnext := hB.inv_step s i hI hi
    rw [StepMachine.trace_cons, List.map_cons, List.sum_cons, Nat.cast_add]
    rw [List.filterMap_cons] at hclock
    cases hreading : reading i with
    | none =>
      rw [hreading] at hclock
      obtain ⟨hnone, hlevel⟩ := hB.idle s i hI hi hreading
      rw [hnone, Nat.cast_zero, zero_add]
      refine (ih hnext his hclock).trans (max_le_max le_rfl ?_)
      exact add_le_add_left (hlevel t) _
    | some now =>
      rw [hreading] at hclock
      obtain ⟨hfirst, hrest⟩ := List.pairwise_cons.mp hclock
      have htnow : t ≤ now := hfirst now List.mem_cons_self
      have hnowu : now ≤ u := (List.pairwise_cons.mp hrest).1 u (by simp)
      have hgrow := hB.level_le s t now hI htnow
      have hlater := ih hnext his hrest
      have hyield : 0 ≤ rate * (u - now : ℤ) :=
        mul_nonneg hB.rate_nonneg (Int.cast_nonneg (sub_nonneg.mpr hnowu))
      have hsum : rate * (now - t : ℤ) + rate * (u - now : ℤ) = rate * (u - t : ℤ) := by
        push_cast
        ring
      rcases hB.spend s i now hI hi hreading with ⟨hnone, hlevel⟩ | ⟨hleft, htaken⟩
      · rw [hnone, Nat.cast_zero, zero_add]
        refine hlater.trans (max_le_max le_rfl ?_)
        linarith
      · -- something is left, so what is spent later comes out of that
        rw [max_eq_right (by linarith)] at hlater
        refine le_trans ?_ (le_max_right _ _)
        linarith

end Budget
