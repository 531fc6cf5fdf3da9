import Mathlib.Data.Nat.Init
import Mathlib.Tactic.Common

/-!
# Loops that may read out of bounds

The body of a `while (true)` loop whose reads are checked: one turn fails (`none`, an index
outside of what it reads), goes round again in a new state, or returns. `turns body n`
takes at most `n` turns. `exists_turns_eq` is the rule for total correctness: a body that
never fails, decreases a measure whenever it goes round again, and agrees with the equations
of a function `f`, computes `f` within as many turns as the measure allows.
-/

namespace CheckedLoop

universe u v

variable {σ : Type u} {α : Type v}

/-- What one turn of a loop does. -/
inductive Turn (σ : Type u) (α : Type v) where
  /-- Go round again from a new state. -/
  | again (s : σ)
  /-- Return a result. -/
  | done (a : α)

/-- What a bounded number of turns has come to. -/
inductive Outcome (σ : Type u) (α : Type v) where
  /-- A turn read out of bounds. -/
  | failed
  /-- The loop has not returned yet. -/
  | running (s : σ)
  /-- The loop has returned. -/
  | returned (a : α)

/-- At most `n` turns of the loop. -/
def turns (body : σ → Option (Turn σ α)) : ℕ → σ → Outcome σ α
  | 0, s => .running s
  | n + 1, s =>
    match body s with
    | none => .failed
    | some (.again s') => turns body n s'
    | some (.done a) => .returned a

variable {body : σ → Option (Turn σ α)}

theorem turns_of_again {s s' : σ} (h : body s = some (.again s')) (n : ℕ) :
    turns body (n + 1) s = turns body n s' := by
  rw [turns, h]

theorem turns_of_done {s : σ} {a : α} (h : body s = some (.done a)) (n : ℕ) :
    turns body (n + 1) s = .returned a := by
  rw [turns, h]

/-- **Total correctness of a loop.** Let every turn either go round again from a state of
smaller measure in which `f` has the same value, or return the value of `f`. Then the loop
returns the value of `f` after at most `μ s + 1` turns, none of which fails. -/
theorem exists_turns_eq {f : σ → α} {μ : σ → ℕ}
    (hbody : ∀ s, (∃ s', body s = some (.again s') ∧ μ s' < μ s ∧ f s = f s') ∨
      body s = some (.done (f s))) (s : σ) :
    ∃ n ≤ μ s + 1, turns body n s = .returned (f s) := by
  induction hm : μ s using Nat.strong_induction_on generalizing s with
  | _ m ih =>
    subst hm
    rcases hbody s with ⟨s', hs', hlt, hf⟩ | hdone
    · obtain ⟨n, hn, hret⟩ := ih _ hlt s' rfl
      refine ⟨n + 1, by omega, ?_⟩
      rw [turns_of_again hs', hret, hf]
    · exact ⟨1, by omega, turns_of_done hdone 0⟩

end CheckedLoop
