import Mathlib.Algebra.BigOperators.Group.Finset.Basic
import Mathlib.Algebra.Order.BigOperators.Group.Finset
import Mathlib.Data.Set.Finite.Lemmas
import ProtoMsgQueue.Lib.StepMachine

/-!
# Threads that take locks in an order

Threads of type `ι` run scripts that acquire and release locks of type `L`; `lockMachine` lets
one thread take one action at a time, and a thread waits where its lock is not free.

A `LockOrder` ranks the locks and names those that only one thread uses. A script is
`Disciplined` if it takes shared locks in the order of their ranks, never takes a lock twice, and
ends without locks; it `Relocks` if it comes to a lock that it holds. Whatever the interleaving,
threads with disciplined scripts can all be run to their ends (`exists_allIdle`), and a thread
that relocks never ends (`ne_nil_of_relocks`). Scripts are built from guards; the rules for
`Keeps` and `Returns` follow them.
-/

variable {L ι : Type}

/-- What a thread does with a lock. -/
inductive LockAction (L : Type) where
  /-- Take the lock, when it is free. -/
  | acquire (l : L)
  /-- Give the lock back. -/
  | release (l : L)
deriving DecidableEq, Repr

/-- A scoped lock: the lock is held while the body runs. -/
def lockGuard (l : L) (body : List (LockAction L)) : List (LockAction L) :=
  .acquire l :: (body ++ [.release l])

variable [DecidableEq L]

/-! ### Scripts that keep to an order -/

/-- An order on locks. -/
structure LockOrder (L ι : Type) where
  /-- The thread that alone uses a lock; none for a shared lock. -/
  owner : L → Option ι
  /-- Where a shared lock stands in the order. -/
  rank : L → ℕ

namespace LockOrder

variable (O : LockOrder L ι)

/-- A thread that holds `held` may take the lock `l`. -/
def Permits (i : ι) (held : Finset L) (l : L) : Prop :=
  l ∉ held ∧ (O.owner l = some i ∨
    O.owner l = none ∧ ∀ l' ∈ held, O.owner l' = none → O.rank l' < O.rank l)

/-- A thread that holds `held` keeps to the order with its script, and ends without locks. -/
def Disciplined (i : ι) : Finset L → List (LockAction L) → Prop
  | held, [] => held = ∅
  | held, .acquire l :: rest => O.Permits i held l ∧ Disciplined i (insert l held) rest
  | held, .release l :: rest => l ∈ held ∧ Disciplined i (held.erase l) rest

/-- A part of a script that keeps to the order and gives back what it takes. -/
def Keeps (i : ι) (held : Finset L) (script : List (LockAction L)) : Prop :=
  ∀ rest, O.Disciplined i held rest → O.Disciplined i held (script ++ rest)

variable {O} {i : ι} {held : Finset L} {l : L} {script body : List (LockAction L)}

omit [DecidableEq L] in
/-- A shared lock may be taken if it ranks above the shared locks that are held. -/
theorem permits_shared (hl : O.owner l = none)
    (hrank : ∀ l' ∈ held, O.owner l' = none → O.rank l' < O.rank l) : O.Permits i held l :=
  ⟨fun hmem => lt_irrefl _ (hrank l hmem hl), Or.inr ⟨hl, hrank⟩⟩

theorem keeps_nil : O.Keeps i held [] := fun _ h => h

theorem Keeps.append {script' : List (LockAction L)} (h : O.Keeps i held script)
    (h' : O.Keeps i held script') : O.Keeps i held (script ++ script') := by
  intro rest hrest
  rw [List.append_assoc]
  exact h _ (h' _ hrest)

/-- A guard keeps to the order if its lock may be taken and its body does. -/
theorem Keeps.guarded (hl : O.Permits i held l) (h : O.Keeps i (insert l held) body) :
    O.Keeps i held (lockGuard l body) := by
  intro rest hrest
  have hback : O.Disciplined i (insert l held) (.release l :: rest) :=
    ⟨Finset.mem_insert_self l held, by rwa [Finset.erase_insert hl.1]⟩
  rw [lockGuard, List.cons_append, List.append_assoc, List.singleton_append]
  exact ⟨hl, h _ hback⟩

theorem keeps_flatMap {α : Type} {as : List α} {f : α → List (LockAction L)}
    (h : ∀ a ∈ as, O.Keeps i held (f a)) : O.Keeps i held (as.flatMap f) := by
  induction as with
  | nil => exact keeps_nil
  | cons a as ih =>
    rw [List.flatMap_cons]
    exact (h a List.mem_cons_self).append (ih fun b hb => h b (List.mem_cons_of_mem a hb))

theorem Keeps.disciplined (h : O.Keeps i ∅ script) : O.Disciplined i ∅ script := by
  have hall := h [] rfl
  rwa [List.append_nil] at hall

end LockOrder

/-! ### Scripts that take a lock twice -/

/-- A thread that holds `held` comes to a lock that it holds. -/
def Relocks : Finset L → List (LockAction L) → Prop
  | _, [] => False
  | held, .acquire l :: rest => l ∈ held ∨ Relocks (insert l held) rest
  | held, .release l :: rest => Relocks (held.erase l) rest

/-- A part of a script that does not keep a thread from a lock it will take twice. -/
def Returns (held : Finset L) (script : List (LockAction L)) : Prop :=
  ∀ rest, Relocks held rest → Relocks held (script ++ rest)

/-- A script that keeps to an order takes no lock twice. -/
theorem LockOrder.Disciplined.not_relocks {O : LockOrder L ι} {i : ι} {held : Finset L}
    {script : List (LockAction L)} (h : O.Disciplined i held script) : ¬ Relocks held script := by
  induction script generalizing held with
  | nil => exact id
  | cons a rest ih =>
    cases a with
    | acquire l => exact not_or.mpr ⟨h.1.1, ih h.2⟩
    | release l => exact ih h.2

section Scripts

variable {held : Finset L} {l : L} {script body : List (LockAction L)}

theorem returns_nil : Returns held [] := fun _ h => h

theorem Returns.append {script' : List (LockAction L)} (h : Returns held script)
    (h' : Returns held script') : Returns held (script ++ script') := by
  intro rest hrest
  rw [List.append_assoc]
  exact h _ (h' _ hrest)

/-- A guard gives its lock back. -/
theorem Returns.guarded (h : Returns (insert l held) body) : Returns held (lockGuard l body) := by
  intro rest hrest
  rw [lockGuard, List.cons_append, List.append_assoc, List.singleton_append]
  by_cases hl : l ∈ held
  · exact Or.inl hl
  · have hback : Relocks (insert l held) (.release l :: rest) := by
      rwa [Relocks, Finset.erase_insert hl]
    exact Or.inr (h _ hback)

theorem returns_flatMap {α : Type} {as : List α} {f : α → List (LockAction L)}
    (h : ∀ a ∈ as, Returns held (f a)) : Returns held (as.flatMap f) := by
  induction as with
  | nil => exact returns_nil
  | cons a as ih =>
    rw [List.flatMap_cons]
    exact (h a List.mem_cons_self).append (ih fun b hb => h b (List.mem_cons_of_mem a hb))

/-- What follows does not matter to a thread that comes to a lock it holds. -/
theorem Relocks.append_right (h : Relocks held script) (rest : List (LockAction L)) :
    Relocks held (script ++ rest) := by
  induction script generalizing held with
  | nil => exact h.elim
  | cons a script ih =>
    cases a with
    | acquire l => exact h.imp_right ih
    | release l => exact ih h

/-- A thread that comes to a lock it holds inside a guard. -/
theorem Relocks.guarded (h : Relocks (insert l held) body) : Relocks held (lockGuard l body) :=
  Or.inr (h.append_right _)

/-- A thread that comes to a lock it holds in one of several parts. -/
theorem relocks_flatMap {α : Type} {as : List α} {f : α → List (LockAction L)} {a : α}
    (ha : a ∈ as) (hrelocks : Relocks held (f a)) (hreturns : ∀ b ∈ as, Returns held (f b)) :
    Relocks held (as.flatMap f) := by
  obtain ⟨before, after, rfl⟩ := List.append_of_mem ha
  rw [List.flatMap_append, List.flatMap_cons]
  exact returns_flatMap (fun b hb => hreturns b (List.mem_append_left _ hb)) _
    (hrelocks.append_right _)

end Scripts

/-! ### The threads -/

/-- The locks, each with the thread that holds it, and what the threads have left to do. -/
structure LockState (L ι : Type) where
  /-- Who holds a lock. -/
  holder : L → Option ι := fun _ => none
  /-- What is left of a thread's script. -/
  script : ι → List (LockAction L) := fun _ => []

namespace LockState

/-- No thread has anything left to do. -/
def AllIdle (st : LockState L ι) : Prop := ∀ i, st.script i = []

/-- The locks `held` are those that the thread `i` holds. -/
def Holds (st : LockState L ι) (i : ι) (held : Finset L) : Prop :=
  ∀ l, l ∈ held ↔ st.holder l = some i

end LockState

/-- All threads keep to an order. -/
structure Orderly (O : LockOrder L ι) (st : LockState L ι) : Prop where
  finite_busy : {i | st.script i ≠ []}.Finite
  disciplined : ∀ i, ∃ held, st.Holds i held ∧ O.Disciplined i held (st.script i)
  owned : ∀ l i, st.holder l = some i → O.owner l = none ∨ O.owner l = some i

namespace Orderly

variable {O : LockOrder L ι} {st : LockState L ι} {i : ι}

/-- Threads with nothing to do keep to every order. -/
theorem idle (O : LockOrder L ι) : Orderly O {} where
  finite_busy := by
    simp only [ne_eq, not_true_eq_false, Set.ofPred_false, Set.finite_empty]
  disciplined _ := ⟨∅, fun _ => iff_of_false (Finset.notMem_empty _) nofun, rfl⟩
  owned := nofun

/-- A thread waits for a shared lock, which ranks above the shared locks that it holds. -/
theorem shared_of_wait (h : Orderly O st) {l : L} {rest : List (LockAction L)}
    (hscript : st.script i = .acquire l :: rest) (hheld : st.holder l ≠ none) :
    O.owner l = none ∧
      ∀ l', st.holder l' = some i → O.owner l' = none → O.rank l' < O.rank l := by
  obtain ⟨held, hholds, hkeeps⟩ := h.disciplined i
  rw [hscript] at hkeeps
  obtain ⟨⟨hnot, howner | ⟨hshared, hrank⟩⟩, -⟩ := hkeeps
  · -- nobody else holds a lock that only this thread uses
    obtain ⟨j, hj⟩ := Option.ne_none_iff_exists'.mp hheld
    rcases h.owned l j hj with hnone | hown
    · rw [hnone] at howner
      cases howner
    · rw [howner] at hown
      rw [← Option.some_inj.mp hown] at hj
      exact absurd ((hholds l).mpr hj) hnot
  · exact ⟨hshared, fun l' hl' => hrank l' ((hholds l').mpr hl')⟩

/-- A thread without a script holds no lock. -/
theorem ne_nil_of_holder (h : Orderly O st) {l : L} (hl : st.holder l = some i) :
    st.script i ≠ [] := by
  obtain ⟨held, hholds, hkeeps⟩ := h.disciplined i
  intro hidle
  rw [hidle] at hkeeps
  have hmem := (hholds l).mpr hl
  rw [show held = ∅ from hkeeps] at hmem
  exact Finset.notMem_empty l hmem

/-- The rank of the lock that a script begins with. -/
def nextRank (O : LockOrder L ι) : List (LockAction L) → ℕ
  | .acquire l :: _ => O.rank l
  | _ => 0

end Orderly

/-- The thread `i` will come to a lock that it holds. -/
def Doomed (i : ι) (st : LockState L ι) : Prop :=
  ∃ held, st.Holds i held ∧ Relocks held (st.script i)

theorem Doomed.ne_nil {st : LockState L ι} {i : ι} (h : Doomed i st) : st.script i ≠ [] := by
  obtain ⟨held, -, hrelocks⟩ := h
  intro hidle
  rw [hidle] at hrelocks
  exact hrelocks

/-! ### The machine -/

variable [DecidableEq ι]

/-- What can happen to the threads. -/
inductive LockInput (L ι : Type) where
  /-- A thread that has nothing to do gets a script. -/
  | start (i : ι) (script : List (LockAction L))
  /-- A thread takes its next action, if it need not wait. -/
  | go (i : ι)

namespace LockState

/-- The thread `i` takes the lock `l` and goes on with `rest`. -/
def take (st : LockState L ι) (i : ι) (l : L) (rest : List (LockAction L)) : LockState L ι where
  holder := Function.update st.holder l (some i)
  script := Function.update st.script i rest

/-- The thread `i` gives the lock `l` back, if it holds it, and goes on with `rest`. -/
def give (st : LockState L ι) (i : ι) (l : L) (rest : List (LockAction L)) : LockState L ι where
  holder l' := if l' = l ∧ st.holder l = some i then none else st.holder l'
  script := Function.update st.script i rest

end LockState

/-- The threads as a machine. The output tells whether the input had an effect. -/
def lockMachine : StepMachine (LockState L ι) (LockInput L ι) Bool where
  step st
    | .start i script =>
      match st.script i with
      | [] => ({ st with script := Function.update st.script i script }, true)
      | _ :: _ => (st, false)
    | .go i =>
      match st.script i with
      | [] => (st, false)
      | .acquire l :: rest =>
        if st.holder l = none then (st.take i l rest, true) else (st, false)
      | .release l :: rest => (st.give i l rest, true)

/-! ### Steps -/

namespace LockState

variable {st : LockState L ι} {i j : ι} {l l' : L} {rest : List (LockAction L)} {held : Finset L}

theorem holder_take :
    (st.take i l rest).holder l' = if l' = l then some i else st.holder l' :=
  Function.update_apply _ _ _ _

theorem script_take : (st.take i l rest).script j = if j = i then rest else st.script j :=
  Function.update_apply _ _ _ _

theorem script_give : (st.give i l rest).script j = if j = i then rest else st.script j :=
  Function.update_apply _ _ _ _

theorem Holds.take (h : st.Holds i held) : (st.take i l rest).Holds i (insert l held) := by
  intro l'
  rw [Finset.mem_insert, holder_take]
  split
  · next heq => exact iff_of_true (Or.inl heq) rfl
  · next hne => exact (or_iff_right hne).trans (h l')

theorem Holds.take_ne (h : st.Holds j held) (hfree : st.holder l = none) (hne : j ≠ i) :
    (st.take i l rest).Holds j held := by
  intro l'
  rw [holder_take]
  split
  · next heq =>
    rw [heq, h l, hfree]
    exact iff_of_false nofun fun heq => hne (Option.some_inj.mp heq).symm
  · exact h l'

theorem Holds.give (h : st.Holds i held) : (st.give i l rest).Holds i (held.erase l) := by
  intro l'
  rw [Finset.mem_erase, LockState.give]
  dsimp only
  split
  · next hgiven => exact iff_of_false (fun hmem => hmem.1 hgiven.1) nofun
  · next hkept =>
    refine Iff.trans (and_iff_right_of_imp fun hmem heq => hkept ⟨heq, ?_⟩) (h l')
    exact heq ▸ (h l').mp hmem

theorem Holds.give_ne (h : st.Holds j held) (hne : j ≠ i) :
    (st.give i l rest).Holds j held := by
  intro l'
  rw [LockState.give]
  dsimp only
  split
  · next hgiven =>
    rw [hgiven.1, h l, hgiven.2]
    exact iff_of_false (fun heq => hne (Option.some_inj.mp heq).symm) nofun
  · exact h l'

end LockState

section Steps

variable {st : LockState L ι} {i : ι} {l : L} {script rest : List (LockAction L)}

theorem step_start_idle (h : st.script i = []) : lockMachine.step st (.start i script) =
    ({ st with script := Function.update st.script i script }, true) := by
  simp only [lockMachine, h]

theorem step_start_busy (h : st.script i ≠ []) :
    lockMachine.step st (.start i script) = (st, false) := by
  obtain ⟨a, rest, hscript⟩ := List.exists_cons_of_ne_nil h
  simp only [lockMachine, hscript]

theorem step_go_idle (h : st.script i = []) : lockMachine.step st (.go i) = (st, false) := by
  simp only [lockMachine, h]

theorem step_go_acquire (h : st.script i = .acquire l :: rest) (hfree : st.holder l = none) :
    lockMachine.step st (.go i) = (st.take i l rest, true) := by
  simp only [lockMachine, h, if_pos hfree]

theorem step_go_wait (h : st.script i = .acquire l :: rest) (hheld : st.holder l ≠ none) :
    lockMachine.step st (.go i) = (st, false) := by
  simp only [lockMachine, h, if_neg hheld]

theorem step_go_release (h : st.script i = .release l :: rest) :
    lockMachine.step st (.go i) = (st.give i l rest, true) := by
  simp only [lockMachine, h]

/-- A thread that goes on has one action less to do, and the others do what they did. -/
theorem script_step_go (h : (lockMachine.step st (.go i)).2 = true) :
    st.script i ≠ [] ∧
      (lockMachine.step st (.go i)).1.script =
        Function.update st.script i (st.script i).tail := by
  cases hscript : st.script i with
  | nil =>
    rw [step_go_idle hscript] at h
    cases h
  | cons a rest =>
    refine ⟨List.cons_ne_nil _ _, ?_⟩
    cases a with
    | acquire l =>
      by_cases hfree : st.holder l = none
      · rw [step_go_acquire hscript hfree]
        rfl
      · rw [step_go_wait hscript hfree] at h
        cases h
    | release l =>
      rw [step_go_release hscript]
      rfl

end Steps

/-! ### Threads that keep to an order -/

namespace Orderly

variable {O : LockOrder L ι} {st : LockState L ι} {i : ι}

/-- A thread starts a script that keeps to the order. -/
theorem start (h : Orderly O st) {script : List (LockAction L)}
    (hscript : O.Disciplined i ∅ script) :
    Orderly O (lockMachine.step st (.start i script)).1 := by
  by_cases hidle : st.script i = []
  · rw [step_start_idle hidle]
    refine ⟨(h.finite_busy.insert i).subset fun j hj => ?_, fun j => ?_, h.owned⟩
    · by_cases hji : j = i
      · exact Or.inl hji
      · exact Or.inr (by simpa only [Set.mem_ofPred_eq, Function.update_of_ne hji] using hj)
    · obtain ⟨held, hheld, hdone⟩ := h.disciplined j
      refine ⟨held, hheld, ?_⟩
      dsimp only
      by_cases hji : j = i
      · subst hji
        rw [hidle] at hdone
        rw [Function.update_self, show held = ∅ from hdone]
        exact hscript
      · rwa [Function.update_of_ne hji]
  · rw [step_start_busy hidle]
    exact h

/-- A thread goes on. -/
theorem go (h : Orderly O st) (i : ι) : Orderly O (lockMachine.step st (.go i)).1 := by
  cases hscript : st.script i with
  | nil =>
    rw [step_go_idle hscript]
    exact h
  | cons a rest =>
    obtain ⟨held, hheld, hkeeps⟩ := h.disciplined i
    rw [hscript] at hkeeps
    have hbusy : ∀ (f : ι → List (LockAction L)),
        f = Function.update st.script i rest → {j | f j ≠ []}.Finite := by
      rintro _ rfl
      refine (h.finite_busy.insert i).subset fun j hj => ?_
      by_cases hji : j = i
      · exact Or.inl hji
      · exact Or.inr (by simpa only [Set.mem_ofPred_eq, Function.update_of_ne hji] using hj)
    cases a with
    | acquire l =>
      by_cases hfree : st.holder l = none
      · rw [step_go_acquire hscript hfree]
        obtain ⟨hpermits, hrest⟩ := hkeeps
        refine ⟨hbusy _ rfl, fun j => ?_, fun l' j hl' => ?_⟩
        · rw [LockState.script_take]
          split
          · next heq =>
            rw [heq]
            exact ⟨_, hheld.take, hrest⟩
          · next hne =>
            obtain ⟨heldj, hheldj, hkeepsj⟩ := h.disciplined j
            exact ⟨heldj, hheldj.take_ne hfree hne, hkeepsj⟩
        · rw [LockState.holder_take] at hl'
          split at hl'
          · next heq =>
            rw [← Option.some_inj.mp hl', heq]
            exact hpermits.2.symm.imp_left And.left
          · exact h.owned l' j hl'
      · rw [step_go_wait hscript hfree]
        exact h
    | release l =>
      rw [step_go_release hscript]
      obtain ⟨-, hrest⟩ := hkeeps
      refine ⟨hbusy _ rfl, fun j => ?_, fun l' j hl' => ?_⟩
      · rw [LockState.script_give]
        split
        · next heq =>
          rw [heq]
          exact ⟨_, hheld.give, hrest⟩
        · next hne =>
          obtain ⟨heldj, hheldj, hkeepsj⟩ := h.disciplined j
          exact ⟨heldj, hheldj.give_ne hne, hkeepsj⟩
      · rw [LockState.give] at hl'
        dsimp only at hl'
        split at hl'
        · cases hl'
        · exact h.owned l' j hl'

/-- A thread that waits, waits for one that can go on or waits for a lock of a higher rank. -/
theorem exists_higher (h : Orderly O st) (hbusy : st.script i ≠ [])
    (hwaits : (lockMachine.step st (.go i)).2 = false) :
    ∃ j, st.script j ≠ [] ∧ ((lockMachine.step st (.go j)).2 = true ∨
      nextRank O (st.script i) < nextRank O (st.script j)) := by
  obtain ⟨a, rest, hscript⟩ := List.exists_cons_of_ne_nil hbusy
  cases a with
  | release l =>
    rw [step_go_release hscript] at hwaits
    cases hwaits
  | acquire l =>
    have hheld : st.holder l ≠ none := by
      intro hfree
      rw [step_go_acquire hscript hfree] at hwaits
      cases hwaits
    obtain ⟨j, hj⟩ := Option.ne_none_iff_exists'.mp hheld
    have hbusyj := h.ne_nil_of_holder hj
    refine ⟨j, hbusyj, ?_⟩
    obtain ⟨b, restj, hscriptj⟩ := List.exists_cons_of_ne_nil hbusyj
    cases b with
    | release l' =>
      rw [step_go_release hscriptj]
      exact Or.inl rfl
    | acquire l' =>
      by_cases hfree : st.holder l' = none
      · rw [step_go_acquire hscriptj hfree]
        exact Or.inl rfl
      · rw [hscript, hscriptj]
        exact Or.inr ((h.shared_of_wait hscriptj hfree).2 l hj (h.shared_of_wait hscript hheld).1)

/-- **No deadlock.** While some thread has something to do, some thread can go on: the one that
waits for the lock of the highest rank would wait for a thread that waits for a higher one. -/
theorem exists_go (h : Orderly O st) (hbusy : st.script i ≠ []) :
    ∃ j, (lockMachine.step st (.go j)).2 = true := by
  obtain ⟨top, htop, hmax⟩ :=
    Set.exists_max_image _ (fun j => nextRank O (st.script j)) h.finite_busy ⟨i, hbusy⟩
  cases hgo : (lockMachine.step st (.go top)).2 with
  | true => exact ⟨top, hgo⟩
  | false =>
    obtain ⟨j, hbusyj, hgoj | hlt⟩ := h.exists_higher htop hgo
    · exact ⟨j, hgoj⟩
    · exact absurd (hmax j hbusyj) (not_le.mpr hlt)

/-- Threads that keep to an order can all be run to their ends. -/
theorem exists_allIdle (h : Orderly O st) :
    ∃ schedule : List ι, (lockMachine.run st (schedule.map .go)).AllIdle := by
  obtain ⟨busy, hsubset⟩ : ∃ busy : Finset ι, ∀ j, st.script j ≠ [] → j ∈ busy :=
    ⟨h.finite_busy.toFinset, fun j hj => h.finite_busy.mem_toFinset.mpr hj⟩
  induction hn : ∑ j ∈ busy, (st.script j).length using Nat.strong_induction_on
    generalizing st with
  | _ n ih =>
    by_cases hidle : st.AllIdle
    · exact ⟨[], hidle⟩
    · obtain ⟨i, hi⟩ := not_forall.mp hidle
      obtain ⟨j, hj⟩ := h.exists_go hi
      obtain ⟨hbusyj, hafter⟩ := script_step_go hj
      -- the thread that goes on has one action less to do
      have hlt : ∑ k ∈ busy, ((lockMachine.step st (.go j)).1.script k).length < n := by
        rw [← hn, hafter]
        refine Finset.sum_lt_sum (fun k _ => ?_) ⟨j, hsubset j hbusyj, ?_⟩
        · rw [Function.update_apply]
          split
          · next heq => rw [heq, List.length_tail]; exact Nat.sub_le _ _
          · exact le_rfl
        · rw [Function.update_self, List.length_tail]
          exact Nat.sub_lt (List.length_pos_of_ne_nil hbusyj) one_pos
      have hsubset' : ∀ k, (lockMachine.step st (.go j)).1.script k ≠ [] → k ∈ busy := by
        intro k hk
        by_cases hkj : k = j
        · exact hkj ▸ hsubset j hbusyj
        · rw [hafter, Function.update_of_ne hkj] at hk
          exact hsubset k hk
      obtain ⟨schedule, hschedule⟩ := ih _ hlt (h.go j) hsubset' rfl
      exact ⟨j :: schedule, hschedule⟩

end Orderly

/-! ### Threads that never end -/

namespace Doomed

variable {st : LockState L ι} {i : ι}

/-- Nothing that any thread does saves the thread. -/
theorem step (h : Doomed i st) (input : LockInput L ι) :
    Doomed i (lockMachine.step st input).1 := by
  have hbusy := h.ne_nil
  cases input with
  | start j script =>
    by_cases hidle : st.script j = []
    · have hne : i ≠ j := by
        rintro rfl
        exact hbusy hidle
      rw [step_start_idle hidle]
      obtain ⟨held, hholds, hrelocks⟩ := h
      refine ⟨held, hholds, ?_⟩
      dsimp only
      rwa [Function.update_of_ne hne]
    · rw [step_start_busy hidle]
      exact h
  | go j =>
    cases hscript : st.script j with
    | nil =>
      rw [step_go_idle hscript]
      exact h
    | cons a rest =>
      obtain ⟨held, hholds, hrelocks⟩ := h
      cases a with
      | acquire l =>
        by_cases hfree : st.holder l = none
        · rw [step_go_acquire hscript hfree]
          by_cases hij : i = j
          · subst hij
            rw [hscript] at hrelocks
            refine ⟨_, hholds.take, ?_⟩
            rw [LockState.script_take, if_pos rfl]
            refine hrelocks.resolve_left fun hmem => ?_
            rw [(hholds l).mp hmem] at hfree
            cases hfree
          · refine ⟨held, hholds.take_ne hfree hij, ?_⟩
            rwa [LockState.script_take, if_neg hij]
        · rw [step_go_wait hscript hfree]
          exact ⟨held, hholds, hrelocks⟩
      | release l =>
        rw [step_go_release hscript]
        by_cases hij : i = j
        · subst hij
          rw [hscript] at hrelocks
          refine ⟨_, hholds.give, ?_⟩
          rw [LockState.script_give, if_pos rfl]
          exact hrelocks
        · refine ⟨held, hholds.give_ne hij, ?_⟩
          rwa [LockState.script_give, if_neg hij]

end Doomed

/-! ### Runs -/

/-- The thread `i` starts a script in which it takes a lock twice. -/
def StartsRelock (e : StepMachine.Event (LockState L ι) (LockInput L ι) Bool) : Prop :=
  ∃ i script, e.input = .start i script ∧ e.output = true ∧ Relocks ∅ script

/-- The threads after a history: they keep to the order, or one is doomed that was started so. -/
def OrderlyOrDoomed (O : LockOrder L ι)
    (h : List (StepMachine.Event (LockState L ι) (LockInput L ι) Bool)) (st : LockState L ι) :
    Prop :=
  (Orderly O st ∧ ∀ e ∈ h, ¬ StartsRelock e) ∨ ((∃ i, Doomed i st) ∧ ∃ e ∈ h, StartsRelock e)

namespace OrderlyOrDoomed

variable {O : LockOrder L ι} {h : List (StepMachine.Event (LockState L ι) (LockInput L ι) Bool)}
  {st : LockState L ι}

/-- A step after which the threads keep to the order. -/
theorem orderly_concat (hh : ∀ e ∈ h, ¬ StartsRelock e) {input : LockInput L ι}
    (hafter : Orderly O (lockMachine.step st input).1)
    (he : ¬ StartsRelock (lockMachine.event st input)) :
    OrderlyOrDoomed O (h ++ [lockMachine.event st input]) (lockMachine.step st input).1 := by
  refine Or.inl ⟨hafter, fun e hmem => ?_⟩
  rcases List.mem_append.mp hmem with hmem | hmem
  · exact hh e hmem
  · rw [List.mem_singleton.mp hmem]
    exact he

theorem step (hs : OrderlyOrDoomed O h st) {input : LockInput L ι}
    (hinput : ∀ i script, input = .start i script →
      O.Disciplined i ∅ script ∨ Relocks ∅ script) :
    OrderlyOrDoomed O (h ++ [lockMachine.event st input]) (lockMachine.step st input).1 := by
  rcases hs with ⟨horderly, hh⟩ | ⟨⟨i, hdoomed⟩, e, he, hstarts⟩
  · cases input with
    | go i => exact orderly_concat hh (horderly.go i) fun ⟨_, _, hstart, _⟩ => by cases hstart
    | start i script =>
      rcases hinput i script rfl with hscript | hscript
      · refine orderly_concat hh (horderly.start hscript) ?_
        rintro ⟨i', script', hstart, -, hrelocks⟩
        cases hstart
        exact hscript.not_relocks hrelocks
      · by_cases hidle : st.script i = []
        · obtain ⟨held, hholds, hdone⟩ := horderly.disciplined i
          rw [hidle] at hdone
          have hnone : held = ∅ := hdone
          have hstep : lockMachine.step st (.start i script) = _ := step_start_idle hidle
          refine Or.inr ⟨⟨i, ?_⟩, _, List.mem_append_right _ (List.mem_singleton_self _),
            i, script, rfl, ?_, hscript⟩
          · rw [hstep]
            refine ⟨∅, hnone ▸ hholds, ?_⟩
            dsimp only
            rwa [Function.update_self]
          · rw [StepMachine.event_output, hstep]
        · have hstep : lockMachine.step st (.start i script) = _ := step_start_busy hidle
          refine orderly_concat hh (by rwa [hstep]) ?_
          rintro ⟨-, -, -, haccepted, -⟩
          rw [StepMachine.event_output, hstep] at haccepted
          cases haccepted
  · exact Or.inr ⟨⟨i, hdoomed.step input⟩, e, List.mem_append_left _ he, hstarts⟩

end OrderlyOrDoomed

/-- **Threads that can end.** Let every script that is started keep to the order or take a lock
twice. Whatever the threads have done so far, all of them can be run to their ends exactly if no
thread started a script in which it takes a lock twice. -/
theorem exists_allIdle_iff (O : LockOrder L ι) {inputs : List (LockInput L ι)}
    (hinputs : ∀ i script, .start i script ∈ inputs →
      O.Disciplined i ∅ script ∨ Relocks ∅ script) :
    (∃ schedule : List ι,
      (lockMachine.run (lockMachine.run {} inputs) (schedule.map .go)).AllIdle) ↔
    ∀ e ∈ lockMachine.trace {} inputs, ¬ StartsRelock e := by
  have hC : lockMachine.Along (fun _ e => ∀ i script, e.input = .start i script →
      O.Disciplined i ∅ script ∨ Relocks ∅ script) {} inputs := by
    refine lockMachine.along_of_forall_mem fun e he i script hstart => hinputs i script ?_
    rw [← hstart, ← lockMachine.trace_map_input {} inputs]
    exact List.mem_map_of_mem he
  have hrun := lockMachine.history_induction_along (P := OrderlyOrDoomed O)
    (Or.inl ⟨Orderly.idle O, nofun⟩) (fun _ _ _ hs hinput => hs.step hinput) hC
  rcases hrun with ⟨horderly, hh⟩ | ⟨⟨i, hdoomed⟩, e, he, hstarts⟩
  · exact iff_of_true horderly.exists_allIdle hh
  · refine iff_of_false ?_ fun hh => hh e he hstarts
    rintro ⟨schedule, hidle⟩
    have hstill := lockMachine.run_induction (P := Doomed i) hdoomed
      (fun _ input hd => hd.step input) (schedule.map .go)
    exact hstill.ne_nil (hidle i)
