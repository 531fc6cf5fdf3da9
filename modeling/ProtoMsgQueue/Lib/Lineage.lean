import Mathlib.Algebra.BigOperators.Group.Finset.Basic
import Mathlib.Algebra.Order.BigOperators.Group.Finset
import Mathlib.Algebra.Group.Nat.Defs
import Mathlib.Algebra.Group.Action.Defs
import Mathlib.Data.Finset.Card

/-!
# Lineages

Nodes have levels; a node above level zero has a predecessor one level below, and different
nodes have different predecessors. So the predecessors of a node, down to level zero, form
a chain with one node of each level, and chains of different nodes of one level are
disjoint. Every level has at most as many nodes as level zero, which bounds the number of
nodes by the number of chains.
-/

variable {α : Type*}

/-- A predecessor function on the nodes `S` with their levels. -/
structure Lineage (S : Set α) (level : α → ℕ) (pred : α → α) : Prop where
  pred_mem : ∀ a ∈ S, 0 < level a → pred a ∈ S
  level_pred : ∀ a ∈ S, 0 < level a → level (pred a) + 1 = level a
  pred_inj : ∀ a ∈ S, ∀ b ∈ S, 0 < level a → 0 < level b → pred a = pred b → a = b

namespace Lineage

/-- The node `a` of level `k`, after its predecessors. -/
def chain (pred : α → α) : ℕ → α → List α
  | 0, a => [a]
  | k + 1, a => chain pred k (pred a) ++ [a]

@[simp] theorem length_chain (pred : α → α) (k : ℕ) (a : α) :
    (chain pred k a).length = k + 1 := by
  induction k generalizing a with
  | zero => rfl
  | succ k ih => rw [chain, List.length_append, ih, List.length_singleton]

variable {S : Set α} {level : α → ℕ} {pred : α → α}

/-- The predecessor of a node of level `k + 1` is a node of level `k`. -/
theorem pred_spec (h : Lineage S level pred) {a : α} {k : ℕ} (ha : a ∈ S)
    (hlevel : level a = k + 1) : pred a ∈ S ∧ level (pred a) = k := by
  have hpos : 0 < level a := hlevel ▸ Nat.succ_pos k
  have hpred := h.level_pred a ha hpos
  exact ⟨h.pred_mem a ha hpos, by omega⟩

/-- A chain has one node of each level, in order. -/
theorem chain_getElem? (h : Lineage S level pred) {k : ℕ} {a : α} (ha : a ∈ S)
    (hlevel : level a = k) {j : ℕ} {b : α} (hb : (chain pred k a)[j]? = some b) :
    b ∈ S ∧ level b = j := by
  induction k generalizing a with
  | zero =>
    obtain ⟨hj, rfl⟩ := List.getElem?_eq_some_iff.mp hb
    obtain rfl : j = 0 := Nat.lt_one_iff.mp hj
    exact ⟨ha, hlevel⟩
  | succ k ih =>
    obtain ⟨hmem, hpred⟩ := h.pred_spec ha hlevel
    rw [chain] at hb
    rcases lt_or_ge j (chain pred k (pred a)).length with hj | hj
    · rw [List.getElem?_append_left hj] at hb
      exact ih hmem hpred hb
    · rw [List.getElem?_append_right hj, List.getElem?_singleton] at hb
      split at hb
      · rename_i hzero
        rw [length_chain] at hj hzero
        rw [← Option.some_inj.mp hb]
        exact ⟨ha, by omega⟩
      · cases hb

theorem mem_of_mem_chain (h : Lineage S level pred) {k : ℕ} {a b : α} (ha : a ∈ S)
    (hlevel : level a = k) (hb : b ∈ chain pred k a) : b ∈ S ∧ level b ≤ k := by
  obtain ⟨j, hj⟩ := List.getElem?_of_mem hb
  obtain ⟨hmem, rfl⟩ := h.chain_getElem? ha hlevel hj
  obtain ⟨hlt, -⟩ := List.getElem?_eq_some_iff.mp hj
  rw [length_chain] at hlt
  exact ⟨hmem, Nat.le_of_lt_succ hlt⟩

/-- A property that predecessors inherit holds along the chain of a node that has it. -/
theorem forall_mem_chain (h : Lineage S level pred) {P : α → Prop}
    (hpred : ∀ a ∈ S, 0 < level a → P a → P (pred a)) {k : ℕ} {a : α} (ha : a ∈ S)
    (hlevel : level a = k) (hP : P a) : ∀ b ∈ chain pred k a, P b := by
  induction k generalizing a with
  | zero =>
    intro b hb
    rwa [List.mem_singleton.mp hb]
  | succ k ih =>
    obtain ⟨hmem, hk⟩ := h.pred_spec ha hlevel
    intro b hb
    rcases List.mem_append.mp hb with hb | hb
    · exact ih hmem hk (hpred a ha (hlevel ▸ Nat.succ_pos k) hP) b hb
    · rwa [List.mem_singleton.mp hb]

/-- A transitive relation between predecessors and nodes orders every chain. -/
theorem pairwise_chain (h : Lineage S level pred) {r : α → α → Prop}
    (htrans : ∀ a b c, r a b → r b c → r a c) (hr : ∀ a ∈ S, 0 < level a → r (pred a) a)
    {k : ℕ} {a : α} (ha : a ∈ S) (hlevel : level a = k) :
    (chain pred k a).Pairwise r ∧ ∀ b ∈ chain pred k a, b = a ∨ r b a := by
  induction k generalizing a with
  | zero => exact ⟨List.pairwise_singleton r a, fun b hb => .inl (List.mem_singleton.mp hb)⟩
  | succ k ih =>
    obtain ⟨hmem, hk⟩ := h.pred_spec ha hlevel
    obtain ⟨hpairwise, hlast⟩ := ih hmem hk
    have hra : r (pred a) a := hr a ha (hlevel ▸ Nat.succ_pos k)
    have hbelow : ∀ b ∈ chain pred k (pred a), r b a := by
      intro b hb
      rcases hlast b hb with rfl | hb
      · exact hra
      · exact htrans _ _ _ hb hra
    constructor
    · refine List.pairwise_append.mpr ⟨hpairwise, List.pairwise_singleton r a, fun b hb c hc => ?_⟩
      rw [List.mem_singleton.mp hc]
      exact hbelow b hb
    · intro b hb
      rcases List.mem_append.mp hb with hb | hb
      · exact .inr (hbelow b hb)
      · exact .inl (List.mem_singleton.mp hb)

/-- **Chains are disjoint.** Two nodes of one level share no predecessor. -/
theorem disjoint_chain (h : Lineage S level pred) {k : ℕ} {a b : α} (ha : a ∈ S) (hb : b ∈ S)
    (hka : level a = k) (hkb : level b = k) (hne : a ≠ b) :
    (chain pred k a).Disjoint (chain pred k b) := by
  induction k generalizing a b with
  | zero => simpa [chain] using hne.symm
  | succ k ih =>
    obtain ⟨hmem, hk⟩ := h.pred_spec ha hka
    obtain ⟨hmem', hk'⟩ := h.pred_spec hb hkb
    have hpred : pred a ≠ pred b := fun heq =>
      hne (h.pred_inj a ha b hb (hka ▸ Nat.succ_pos k) (hkb ▸ Nat.succ_pos k) heq)
    intro c hc hc'
    rcases List.mem_append.mp hc with hc | hc <;> rcases List.mem_append.mp hc' with hc' | hc'
    · exact ih hmem hmem' hk hk' hpred hc hc'
    · -- the levels below differ from the level of the last node
      have hle := (h.mem_of_mem_chain hmem hk hc).2
      rw [List.mem_singleton.mp hc', hkb] at hle
      omega
    · have hle := (h.mem_of_mem_chain hmem' hk' hc').2
      rw [List.mem_singleton.mp hc, hka] at hle
      omega
    · exact hne ((List.mem_singleton.mp hc).symm.trans (List.mem_singleton.mp hc'))

/-! ### Counting -/

section Finite

variable {S : Finset α}

/-- No level has more nodes than level zero. -/
theorem card_level_le (h : Lineage (S : Set α) level pred) (k : ℕ) :
    (S.filter fun a => level a = k).card ≤ (S.filter fun a => level a = 0).card := by
  induction k with
  | zero => exact le_rfl
  | succ k ih =>
    refine le_trans ?_ ih
    refine Finset.card_le_card_of_injOn pred ?_ ?_
    · intro a ha
      obtain ⟨ha, hlevel⟩ := Finset.mem_filter.mp ha
      obtain ⟨hmem, hk⟩ := h.pred_spec ha hlevel
      exact Finset.mem_filter.mpr ⟨hmem, hk⟩
    · intro a ha b hb heq
      obtain ⟨ha, hka⟩ := Finset.mem_filter.mp ha
      obtain ⟨hb, hkb⟩ := Finset.mem_filter.mp hb
      exact h.pred_inj a ha b hb (hka ▸ Nat.succ_pos k) (hkb ▸ Nat.succ_pos k) heq

/-- **Counting chains.** With levels up to `n` there are at most `n + 1` nodes for each node
of level zero. -/
theorem card_le (h : Lineage (S : Set α) level pred) {n : ℕ} (hn : ∀ a ∈ S, level a ≤ n) :
    S.card ≤ (n + 1) * (S.filter fun a => level a = 0).card := by
  have hmaps : ∀ a ∈ S, level a ∈ Finset.range (n + 1) := fun a ha =>
    Finset.mem_range.mpr (Nat.lt_succ_of_le (hn a ha))
  calc S.card = ∑ k ∈ Finset.range (n + 1), (S.filter fun a => level a = k).card :=
        Finset.card_eq_sum_card_fiberwise hmaps
    _ ≤ ∑ _k ∈ Finset.range (n + 1), (S.filter fun a => level a = 0).card :=
        Finset.sum_le_sum fun k _ => h.card_level_le k
    _ = (n + 1) * (S.filter fun a => level a = 0).card := by
        rw [Finset.sum_const, Finset.card_range, smul_eq_mul]

end Finite

end Lineage
