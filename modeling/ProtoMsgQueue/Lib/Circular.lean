import Mathlib.Data.List.Basic
import Mathlib.Data.List.Induction
import Mathlib.Data.List.GetD
import Mathlib.Data.List.Rotate
import Mathlib.Data.Nat.ModEq
import Mathlib.Tactic.Common

/-!
# Circular memory

A list read and written at indices modulo its length. Positions are *virtual*: they only
grow, and `p` and `p + mem.length` name the same cell. A region of at most `mem.length`
cells has distinct cells, so what is written into it is read back (`read_write`), and a
write that starts behind a region and ends before the region comes round again leaves the
region alone (`read_write_of_le`). Reading on and on visits all cells equally often: each lap
has every cell once (`read_length_perm`), so the numbers of visits differ by at most one
(`div_le_count_read`).
-/

namespace Circular

variable {α : Type*} [Inhabited α]

/-- The cell at a virtual position. -/
def cell (mem : List α) (p : ℕ) : α := mem.getD (p % mem.length) default

/-- The `n` cells from `start` on. -/
def read (mem : List α) (start n : ℕ) : List α :=
  (List.range n).map fun i => cell mem (start + i)

/-- Write a list from `start` on. -/
def write (mem : List α) (start : ℕ) : List α → List α
  | [] => mem
  | a :: as => write (mem.set (start % mem.length) a) (start + 1) as

@[simp] theorem length_read (mem : List α) (start n : ℕ) : (read mem start n).length = n := by
  simp [read]

omit [Inhabited α] in
@[simp] theorem length_write (mem : List α) (start : ℕ) (as : List α) :
    (write mem start as).length = mem.length := by
  induction as generalizing mem start with
  | nil => rfl
  | cons a as ih => rw [write, ih, List.length_set]

theorem getElem?_read {mem : List α} {start n i : ℕ} (hi : i < n) :
    (read mem start n)[i]? = some (cell mem (start + i)) := by
  rw [read, List.getElem?_map, List.getElem?_range hi, Option.map_some]

theorem getElem?_mod {mem : List α} (hmem : mem ≠ []) (p : ℕ) :
    mem[p % mem.length]? = some (cell mem p) := by
  have hlt : p % mem.length < mem.length := Nat.mod_lt _ (List.length_pos_of_ne_nil hmem)
  rw [cell, List.getD_eq_getElem _ _ hlt, List.getElem?_eq_getElem hlt]

theorem read_mod (mem : List α) (start n : ℕ) :
    read mem (start % mem.length) n = read mem start n := by
  refine List.map_congr_left fun i _ => ?_
  rw [cell, cell, Nat.mod_add_mod]

omit [Inhabited α] in
theorem write_mod (mem : List α) (start : ℕ) (as : List α) :
    write mem (start % mem.length) as = write mem start as := by
  suffices h : ∀ (as : List α) (mem : List α) (s t : ℕ), s % mem.length = t % mem.length →
      write mem s as = write mem t as from h as mem _ _ (Nat.mod_mod _ _)
  intro as
  induction as with
  | nil => intros; rfl
  | cons a as ih =>
    intro mem s t hst
    rw [write, write, hst]
    refine ih _ _ _ ?_
    rw [List.length_set, Nat.add_mod s, Nat.add_mod t, hst]

theorem read_add (mem : List α) (start m n : ℕ) :
    read mem start (m + n) = read mem start m ++ read mem (start + m) n := by
  simp only [read, List.range_add, List.map_append, List.map_map]
  congr 1
  exact List.map_congr_left fun i _ => by simp [Nat.add_assoc]

omit [Inhabited α] in
theorem write_append (mem : List α) (start : ℕ) (as bs : List α) :
    write mem start (as ++ bs) = write (write mem start as) (start + as.length) bs := by
  induction as generalizing mem start with
  | nil => rfl
  | cons a as ih =>
    rw [List.cons_append, write, ih, write, List.length_cons, Nat.add_right_comm, Nat.add_assoc]

theorem read_succ (mem : List α) (start n : ℕ) :
    read mem start (n + 1) = cell mem start :: read mem (start + 1) n := by
  rw [Nat.add_comm, read_add]
  rfl

/-- A prefix of what is read. -/
theorem read_take (mem : List α) (start : ℕ) {m n : ℕ} (h : m ≤ n) :
    (read mem start n).take m = read mem start m := by
  obtain ⟨k, rfl⟩ := Nat.exists_eq_add_of_le h
  rw [read_add, List.take_left' (length_read _ _ _)]

/-- What is left of what is read. -/
theorem read_drop (mem : List α) (start : ℕ) {m n : ℕ} (h : m ≤ n) :
    (read mem start n).drop m = read mem (start + m) (n - m) := by
  obtain ⟨k, rfl⟩ := Nat.exists_eq_add_of_le h
  rw [read_add, List.drop_left' (length_read _ _ _), Nat.add_sub_cancel_left]

/-- Within one lap, different offsets name different cells. -/
theorem add_mod_ne {s i j len : ℕ} (hij : i < j) (hj : j < i + len) :
    (s + i) % len ≠ (s + j) % len := by
  intro h
  have hmod : i ≡ j [MOD len] := Nat.ModEq.add_left_cancel' s h
  have hdvd : len ∣ j - i := (Nat.modEq_iff_dvd' hij.le).mp hmod
  exact absurd (Nat.le_of_dvd (by omega) hdvd) (by omega)

/-- A cell that is not written keeps its value. -/
theorem cell_write_of_forall_ne {mem : List α} {start p : ℕ} {as : List α}
    (h : ∀ j < as.length, (start + j) % mem.length ≠ p % mem.length) :
    cell (write mem start as) p = cell mem p := by
  induction as generalizing mem start with
  | nil => rfl
  | cons a as ih =>
    have hstart : start % mem.length ≠ p % mem.length := h 0 (Nat.succ_pos _)
    have hset : cell (mem.set (start % mem.length) a) p = cell mem p := by
      simp only [cell, List.length_set, List.getD_eq_getElem?_getD]
      rw [List.getElem?_set_ne hstart]
    rw [write, ih, hset]
    intro j hj
    rw [List.length_set, show start + 1 + j = start + (j + 1) by omega]
    exact h (j + 1) (by simpa using hj)

/-- **Frame.** A write behind the first `n` cells of a region that ends within one lap
leaves those cells alone. -/
theorem read_write_of_le {mem : List α} {start n k : ℕ} {as : List α} (hnk : n ≤ k)
    (hlap : k + as.length ≤ mem.length) :
    read (write mem (start + k) as) start n = read mem start n := by
  refine List.map_congr_left fun i hi => ?_
  rw [List.mem_range] at hi
  refine cell_write_of_forall_ne fun j hj => ?_
  rw [Nat.add_assoc]
  exact (add_mod_ne (by omega) (by omega)).symm

/-- **Write, then read**, for at most one lap. -/
theorem read_write {mem : List α} {start : ℕ} {as : List α} (h : as.length ≤ mem.length) :
    read (write mem start as) start as.length = as := by
  induction as using List.reverseRecOn with
  | nil => rfl
  | append_singleton as a ih =>
    rw [List.length_append, List.length_singleton] at h
    have hpos : 0 < mem.length := by omega
    have hlast : cell (write mem start (as ++ [a])) (start + as.length) = a := by
      rw [write_append, write, write, cell, List.length_set, length_write,
        List.getD_eq_getElem?_getD, List.getElem?_set_self]
      · rfl
      · rw [length_write]
        exact Nat.mod_lt _ hpos
    have hfirst : read (write mem start (as ++ [a])) start as.length = as := by
      rw [write_append, read_write_of_le le_rfl, ih (by omega)]
      rw [length_write, List.length_singleton]
      exact h
    rw [List.length_append, List.length_singleton, read_add, hfirst]
    simp [read, hlast]

/-! ### Laps -/

/-- One lap reads the list, rotated. -/
theorem read_length_perm (mem : List α) (start : ℕ) : (read mem start mem.length).Perm mem := by
  have hrotate : read mem start mem.length = mem.rotate start := by
    refine List.ext_getElem (by rw [length_read, List.length_rotate]) fun i hi hi' => ?_
    rw [length_read] at hi
    have hlt : (i + start) % mem.length < mem.length := Nat.mod_lt _ (by omega)
    simp only [read, List.getElem_map, List.getElem_range, List.getElem_rotate, cell,
      Nat.add_comm start, List.getD_eq_getElem _ _ hlt]
  rw [hrotate]
  exact List.rotate_perm mem start

/-- A lap more adds every element once. -/
theorem count_read_add_length [DecidableEq α] {mem : List α} (hnodup : mem.Nodup) {a : α}
    (ha : a ∈ mem) (start k : ℕ) :
    (read mem start (mem.length + k)).count a = (read mem start k).count a + 1 := by
  have hlap : read mem (start + mem.length) k = read mem start k := by
    rw [← read_mod mem (start + mem.length), Nat.add_mod_right, read_mod]
  rw [read_add, List.count_append, (read_length_perm mem start).count_eq, hlap,
    List.count_eq_one_of_mem hnodup ha, Nat.add_comm]

/-- Less than a lap has no element twice. -/
theorem nodup_read {mem : List α} (hnodup : mem.Nodup) (start : ℕ) {k : ℕ}
    (hk : k ≤ mem.length) : (read mem start k).Nodup := by
  rw [← read_take mem start hk]
  exact ((read_length_perm mem start).nodup_iff.mpr hnodup).sublist (List.take_sublist _ _)

/-- Every element is read as often as there are laps, or once more. -/
theorem div_le_count_read [DecidableEq α] {mem : List α} (hnodup : mem.Nodup) {a : α}
    (ha : a ∈ mem) (start k : ℕ) :
    k / mem.length ≤ (read mem start k).count a ∧
      (read mem start k).count a ≤ k / mem.length + 1 := by
  have hpos : 0 < mem.length := List.length_pos_of_mem ha
  induction k using Nat.strong_induction_on with
  | _ k ih =>
    rcases Nat.lt_or_ge k mem.length with hlt | hge
    · rw [Nat.div_eq_of_lt hlt]
      exact ⟨Nat.zero_le _, List.nodup_iff_count_le_one.mp (nodup_read hnodup start hlt.le) a⟩
    · obtain ⟨d, rfl⟩ := Nat.exists_eq_add_of_le hge
      obtain ⟨hlow, hhigh⟩ := ih d (by omega)
      rw [count_read_add_length hnodup ha, Nat.add_div_left d hpos]
      omega

end Circular
