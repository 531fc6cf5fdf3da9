import Mathlib.Data.List.Basic
import Mathlib.Tactic.Common

/-!
# Scanning a list for a window

`firstWindow p w b` is the least index at which the window of width `w` of the list `b`
satisfies `p`. Two facts make a scan incremental: a hit is not changed by input that
arrives later (`firstWindow_append`), and after a miss all but the last `w - 1` elements
can be forgotten (`firstWindow_retain`), because no window that starts in the forgotten
part reaches past the old end.
-/

namespace WindowScan

variable {β : Type*}

/-- The window of width `w` at index `i`. -/
def window (w : ℕ) (b : List β) (i : ℕ) : List β := (b.drop i).take w

/-- The least index of a window satisfying `p`. -/
def firstWindow (p : List β → Bool) (w : ℕ) (b : List β) : Option ℕ :=
  (List.range (b.length + 1 - w)).find? fun i => p (window w b i)

variable {p : List β → Bool} {w : ℕ}

theorem window_append {b x : List β} {i : ℕ} (h : i + w ≤ b.length) :
    window w (b ++ x) i = window w b i := by
  rw [window, window, List.drop_append_of_le_length (by omega),
    List.take_append_of_le_length (by simp; omega)]

theorem window_drop (b : List β) (k i : ℕ) :
    window w (b.drop k) i = window w b (k + i) := by
  rw [window, window, List.drop_drop]

theorem firstWindow_eq_some_iff {b : List β} {i : ℕ} :
    firstWindow p w b = some i ↔
      p (window w b i) = true ∧ i + w < b.length + 1 ∧
        ∀ j < i, p (window w b j) = false := by
  simp only [firstWindow, List.find?_range_eq_some, List.mem_range, Bool.not_eq_true']
  refine and_congr_right fun _ => and_congr_left fun _ => ?_
  omega

theorem firstWindow_eq_none_iff {b : List β} :
    firstWindow p w b = none ↔ ∀ i, i + w < b.length + 1 → p (window w b i) = false := by
  simp only [firstWindow, List.find?_range_eq_none, Bool.not_eq_true']
  exact forall_congr' fun i => by rw [show i < b.length + 1 - w ↔ i + w < b.length + 1 by omega]

/-- A hit is stable under more input. -/
theorem firstWindow_append {b : List β} {i : ℕ} (h : firstWindow p w b = some i)
    (x : List β) : firstWindow p w (b ++ x) = some i := by
  obtain ⟨hp, hi, hmin⟩ := firstWindow_eq_some_iff.mp h
  refine firstWindow_eq_some_iff.mpr ⟨?_, ?_, fun j hj => ?_⟩
  · rwa [window_append (by omega)]
  · rw [List.length_append]
    omega
  · rw [window_append (by omega)]
    exact hmin j hj

/-- Indices known not to match can be dropped from the front. -/
theorem firstWindow_drop {b : List β} {k : ℕ} (hk : k ≤ b.length)
    (hmiss : ∀ i < k, p (window w b i) = false) :
    firstWindow p w b = (firstWindow p w (b.drop k)).map (k + ·) := by
  cases h : firstWindow p w (b.drop k) with
  | none =>
    rw [firstWindow_eq_none_iff] at h
    refine firstWindow_eq_none_iff.mpr fun i hi => ?_
    rcases Nat.lt_or_ge i k with hik | hik
    · exact hmiss i hik
    · have hwin := h (i - k) (by rw [List.length_drop]; omega)
      rwa [window_drop, Nat.add_sub_cancel' hik] at hwin
  | some j =>
    obtain ⟨hp, hj, hmin⟩ := firstWindow_eq_some_iff.mp h
    rw [window_drop] at hp
    rw [List.length_drop] at hj
    rw [Option.map_some]
    refine firstWindow_eq_some_iff.mpr ⟨hp, by omega, fun i hi => ?_⟩
    rcases Nat.lt_or_ge i k with hik | hik
    · exact hmiss i hik
    · have hwin := hmin (i - k) (by omega)
      rwa [window_drop, Nat.add_sub_cancel' hik] at hwin

/-- **Retention.** After a miss the last `w - 1` elements are all a later scan needs. -/
theorem firstWindow_retain {b : List β} (hw : 0 < w) (h : firstWindow p w b = none)
    (x : List β) : firstWindow p w (b ++ x) =
      (firstWindow p w (b.drop (b.length + 1 - w) ++ x)).map (b.length + 1 - w + ·) := by
  rw [firstWindow_eq_none_iff] at h
  have hk : b.length + 1 - w ≤ (b ++ x).length := by
    rw [List.length_append]
    omega
  rw [firstWindow_drop hk fun i hi => ?_, List.drop_append_of_le_length (by omega)]
  rw [window_append (by omega)]
  exact h i (by omega)

end WindowScan
