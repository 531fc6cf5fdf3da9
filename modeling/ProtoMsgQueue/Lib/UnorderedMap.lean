import Mathlib.Data.List.AList
import Mathlib.Data.List.Sort

/-!
# Unordered maps

Association lists as `std::unordered_map`. `touch` is what evaluating `m[k]` does to the
map: a missing key appears with the default value. A loop over a map visits its keys in an
order the implementation chooses; a `VisitOrder` is one such choice, for every map, and
results that hold for every `VisitOrder` do not depend on it.
-/

/-- A map with keys in `κ` and values in `β`. -/
abbrev UnorderedMap (κ β : Type*) := AList fun _ : κ => β

namespace UnorderedMap

variable {κ β : Type*} [DecidableEq κ]

/-- The value of `m[k]`, with default `d`. -/
def valueAt (m : UnorderedMap κ β) (k : κ) (d : β) : β := (m.lookup k).getD d

/-- The map after `m[k]` was evaluated. -/
def touch (m : UnorderedMap κ β) (k : κ) (d : β) : UnorderedMap κ β :=
  if k ∈ m then m else m.insert k d

/-- Erase several keys. -/
def eraseAll (m : UnorderedMap κ β) (ks : List κ) : UnorderedMap κ β :=
  ks.foldl (fun m k => m.erase k) m

/-- A key is in a map exactly if it has a value there. -/
theorem mem_iff_exists_lookup {m : UnorderedMap κ β} {k : κ} :
    k ∈ m ↔ ∃ b, m.lookup k = some b := by
  rw [← AList.lookup_isSome, Option.isSome_iff_exists]

theorem valueAt_insert (m : UnorderedMap κ β) (k : κ) (b d : β) : valueAt (m.insert k b) k d = b := by
  rw [valueAt, AList.lookup_insert, Option.getD_some]

theorem valueAt_insert_ne (m : UnorderedMap κ β) {k k' : κ} (b d : β) (h : k' ≠ k) :
    valueAt (m.insert k b) k' d = valueAt m k' d := by
  rw [valueAt, AList.lookup_insert_ne h, valueAt]

/-- Evaluating `m[k]` changes no value. -/
@[simp] theorem valueAt_touch (m : UnorderedMap κ β) (k k' : κ) (d : β) :
    valueAt (touch m k d) k' d = valueAt m k' d := by
  rw [touch]
  split
  · rfl
  · rename_i hk
    rcases eq_or_ne k' k with rfl | hne
    · rw [valueAt_insert, valueAt, AList.lookup_eq_none.mpr hk, Option.getD_none]
    · rw [valueAt_insert_ne _ _ _ hne]

theorem mem_touch {m : UnorderedMap κ β} {k k' : κ} {d : β} :
    k' ∈ touch m k d ↔ k' = k ∨ k' ∈ m := by
  rw [touch]
  split
  · rename_i hk
    exact ⟨Or.inr, fun h => h.elim (fun heq => heq ▸ hk) id⟩
  · exact AList.mem_insert m

theorem lookup_eraseAll (m : UnorderedMap κ β) (ks : List κ) (k : κ) :
    (eraseAll m ks).lookup k = if k ∈ ks then none else m.lookup k := by
  induction ks generalizing m with
  | nil => rfl
  | cons k' ks ih =>
    rw [eraseAll, List.foldl_cons, ← eraseAll, ih]
    rcases eq_or_ne k k' with rfl | hne
    · simp
    · simp [AList.lookup_erase_ne hne, hne]

theorem mem_eraseAll {m : UnorderedMap κ β} {ks : List κ} {k : κ} :
    k ∈ eraseAll m ks ↔ k ∈ m ∧ k ∉ ks := by
  rw [← AList.lookup_isSome, lookup_eraseAll, ← AList.lookup_isSome]
  split <;> simp_all

/-- Erasing different keys of a map leaves that many keys fewer. -/
theorem length_keys_eraseAll {m : UnorderedMap κ β} {ks : List κ} (hnodup : ks.Nodup)
    (hmem : ∀ k ∈ ks, k ∈ m) : (eraseAll m ks).keys.length = m.keys.length - ks.length := by
  induction ks generalizing m with
  | nil => rfl
  | cons k ks ih =>
    obtain ⟨hk, hks⟩ := List.nodup_cons.mp hnodup
    have hstep : (m.erase k).keys.length = m.keys.length - 1 := by
      rw [AList.keys_erase, List.length_erase_of_mem (hmem k List.mem_cons_self)]
    have hrest : ∀ k' ∈ ks, k' ∈ m.erase k := fun k' hk' =>
      (AList.mem_erase).mpr ⟨fun heq => hk (heq ▸ hk'), hmem k' (List.mem_cons_of_mem _ hk')⟩
    rw [eraseAll, List.foldl_cons, ← eraseAll, ih hks hrest, hstep, List.length_cons]
    omega

/-- Erasing keys whose value is the default changes no value. -/
theorem valueAt_eraseAll {m : UnorderedMap κ β} {ks : List κ} {d : β}
    (h : ∀ k ∈ ks, valueAt m k d = d) (k : κ) : valueAt (eraseAll m ks) k d = valueAt m k d := by
  rw [valueAt, lookup_eraseAll]
  split
  · rename_i hk
    exact (h k hk).symm
  · rfl

omit [DecidableEq κ] in
/-- A map without keys is the empty map. -/
theorem eq_empty_of_keys_eq_nil {m : UnorderedMap κ β} (h : m.keys = []) : m = ∅ := by
  apply AList.ext
  exact List.map_eq_nil_iff.mp h

/-! ### Changing and removing values -/

omit [DecidableEq κ] in
private theorem nodupKeys_filterMap (l : List (Sigma fun _ : κ => β)) (f : β → Option β)
    (h : l.NodupKeys) :
    (l.filterMap fun e => (f e.2).map (Sigma.mk (β := fun _ : κ => β) e.1)).NodupKeys := by
  refine List.Nodup.sublist ?_ h
  clear h
  induction l with
  | nil => exact List.Sublist.slnil
  | cons e l ih =>
    rw [List.filterMap_cons]
    rcases f e.2 with - | b
    · exact ih.cons _
    · exact ih.cons_cons _

/-- Apply `f` to every value, removing the keys for which it gives none. -/
def filterMapValues (f : β → Option β) (m : UnorderedMap κ β) : UnorderedMap κ β :=
  ⟨m.entries.filterMap fun e => (f e.2).map (Sigma.mk e.1), nodupKeys_filterMap _ f m.nodupKeys⟩

@[simp] theorem lookup_filterMapValues (f : β → Option β) (m : UnorderedMap κ β) (k : κ) :
    (filterMapValues f m).lookup k = (m.lookup k).bind f := by
  ext b
  rw [← Option.mem_def, AList.mem_lookup_iff, ← Option.mem_def, Option.mem_bind_iff]
  simp only [filterMapValues, List.mem_filterMap, Option.map_eq_some_iff, Sigma.mk.injEq, heq_eq_eq,
    AList.mem_lookup_iff]
  constructor
  · rintro ⟨⟨k', b₀⟩, hmem, b', hf, rfl, rfl⟩
    exact ⟨b₀, hmem, hf⟩
  · rintro ⟨b₀, hmem, hf⟩
    exact ⟨⟨k, b₀⟩, hmem, b, hf, rfl, rfl⟩

/-- Some entry of a map satisfies a predicate on values iff some key has such a value. -/
theorem any_entries_iff (m : UnorderedMap κ β) (p : β → Bool) :
    (m.entries.any fun e => p e.2) = true ↔ ∃ k b, m.lookup k = some b ∧ p b = true := by
  rw [List.any_eq_true]
  constructor
  · rintro ⟨⟨k, b⟩, hmem, hp⟩
    exact ⟨k, b, AList.mem_lookup_iff.mpr hmem, hp⟩
  · rintro ⟨k, b, hlookup, hp⟩
    exact ⟨⟨k, b⟩, AList.mem_lookup_iff.mp hlookup, hp⟩

/-- Inserting a key makes the list of keys longer by one at most. -/
theorem length_keys_insert_le (m : UnorderedMap κ β) (k : κ) (b : β) :
    (m.insert k b).keys.length ≤ m.keys.length + 1 := by
  rw [AList.keys_insert, List.length_cons]
  exact Nat.succ_le_succ List.length_erase_le

theorem length_keys_insert_of_mem {m : UnorderedMap κ β} {k : κ} (h : k ∈ m) (b : β) :
    (m.insert k b).keys.length = m.keys.length := by
  rw [AList.keys_insert, List.length_cons, List.length_erase_add_one (AList.mem_keys.mp h)]

theorem length_keys_erase_le (m : UnorderedMap κ β) (k : κ) :
    (m.erase k).keys.length ≤ m.keys.length := by
  rw [AList.keys_erase]
  exact List.length_erase_le

/-! ### Loops over a map -/

/-- An order in which an implementation visits the keys of maps. -/
structure VisitOrder (κ β : Type*) [DecidableEq κ] where
  /-- The keys in visiting order. -/
  visit : UnorderedMap κ β → List κ
  nodup_visit : ∀ m, (visit m).Nodup
  mem_visit : ∀ m k, k ∈ visit m ↔ k ∈ m

/-- Every key is visited once. -/
theorem length_visit (order : VisitOrder κ β) (m : UnorderedMap κ β) :
    (order.visit m).length = m.keys.length := by
  have hperm : (order.visit m).Perm m.keys :=
    (List.perm_ext_iff_of_nodup (order.nodup_visit m) m.keys_nodup).mpr
      fun k => (order.mem_visit m k).trans AList.mem_keys
  exact hperm.length_eq

/-- The order of the association list. -/
def VisitOrder.entries (κ β : Type*) [DecidableEq κ] : VisitOrder κ β where
  visit m := m.keys
  nodup_visit m := m.keys_nodup
  mem_visit _ _ := Iff.rfl

/-- Visit one key after all others. -/
def VisitOrder.keyLast (κ β : Type*) [DecidableEq κ] (k : κ) : VisitOrder κ β where
  visit m := m.keys.filter (fun k' => k' ≠ k) ++ m.keys.filter fun k' => k' = k
  nodup_visit m := by
    rw [List.nodup_append']
    refine ⟨m.keys_nodup.filter _, m.keys_nodup.filter _, fun k' hne heq => ?_⟩
    exact of_decide_eq_true (List.mem_filter.mp hne).2 (of_decide_eq_true (List.mem_filter.mp heq).2)
  mem_visit m k' := by
    rw [List.mem_append, List.mem_filter, List.mem_filter, ← and_or_left, decide_eq_true_iff,
      decide_eq_true_iff, AList.mem_keys]
    exact and_iff_left (ne_or_eq k' k)

theorem VisitOrder.visit_keyLast {m : UnorderedMap κ β} {k : κ} (h : k ∈ m) :
    (VisitOrder.keyLast κ β k).visit m = m.keys.filter (fun k' => k' ≠ k) ++ [k] := by
  have hlast : m.keys.filter (fun k' => k' = k) = [k] := by
    rw [List.filter_eq, List.count_eq_one_of_mem m.keys_nodup (AList.mem_keys.mpr h),
      List.replicate_one]
  exact congrArg (m.keys.filter (fun k' => k' ≠ k) ++ ·) hlast

/-- The order is fixed: one relation says for every map which key is visited first. -/
def VisitOrder.Fixed (order : VisitOrder κ β) : Prop :=
  ∃ r : κ → κ → Prop, (∀ k k', r k k' → ¬ r k' k) ∧ ∀ m, (order.visit m).Pairwise r

/-- Visit the keys in increasing order. -/
def VisitOrder.sorted (κ β : Type*) [DecidableEq κ] [LinearOrder κ] : VisitOrder κ β where
  visit m := m.keys.insertionSort (· ≤ ·)
  nodup_visit m := (List.perm_insertionSort _ _).nodup_iff.mpr m.keys_nodup
  mem_visit _ _ := List.mem_insertionSort _

theorem VisitOrder.fixed_sorted (κ β : Type*) [DecidableEq κ] [LinearOrder κ] :
    (VisitOrder.sorted κ β).Fixed := by
  refine ⟨fun k k' => k < k', fun k k' hlt => not_lt_of_gt hlt, fun m => ?_⟩
  have hle := List.pairwise_insertionSort (r := fun k k' : κ => k ≤ k') m.keys
  have hne : ((VisitOrder.sorted κ β).visit m).Pairwise (· ≠ ·) :=
    (VisitOrder.sorted κ β).nodup_visit m
  exact (hle.and hne).imp fun h => lt_of_le_of_ne h.1 h.2

end UnorderedMap
