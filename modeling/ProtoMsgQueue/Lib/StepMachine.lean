import Mathlib.Data.List.Induction
import Mathlib.Data.List.Basic
import Mathlib.Tactic.Common

/-!
# Deterministic machines with outputs, and their runs

A `StepMachine σ ι ο` reads one input per step, moves to a new state and returns an
output. A *run* is a list of inputs; its `trace` records, for each step, the state
before it, the input and the output. Environment choices (clock readings, scheduling,
answers of an operating system) are part of the inputs, so "for every run" is "for every
input list".

Two induction rules carry everything that follows. `history_induction` proves a property
of the trace so far together with the current state; `history_induction_along` does the
same for runs all of whose steps meet a condition on the history and the step.
`run_of_variant` and, where several parties take turns, `run_of_rounds` are the rules for what a
run reaches. `run_component` finds the run of a machine that is a part of another one. The two-run
rules compare: `simulation` the runs of two machines, `filter_simulation` a run with the run in
which some inputs were deleted.
-/

/-- A deterministic machine with outputs. -/
structure StepMachine (σ ι ο : Type*) where
  /-- One step: the next state and the output. -/
  step : σ → ι → σ × ο

namespace StepMachine

universe u v w

variable {σ : Type u} {ι : Type v} {ο : Type w}

/-- One recorded step: the state before it, the input read and the output returned. -/
structure Event (σ : Type u) (ι : Type v) (ο : Type w) where
  /-- The state before the step. -/
  pre : σ
  /-- The input of the step. -/
  input : ι
  /-- The output of the step. -/
  output : ο

variable (M : StepMachine σ ι ο)

/-- The state after a run. -/
def run (s : σ) : List ι → σ
  | [] => s
  | i :: is => run (M.step s i).1 is

/-- The event of taking input `i` in state `s`. -/
def event (s : σ) (i : ι) : Event σ ι ο := ⟨s, i, (M.step s i).2⟩

/-- The recorded steps of a run, oldest first. -/
def trace (s : σ) : List ι → List (Event σ ι ο)
  | [] => []
  | i :: is => M.event s i :: trace (M.step s i).1 is

@[simp] theorem run_nil (s : σ) : M.run s [] = s := rfl

@[simp] theorem run_cons (s : σ) (i : ι) (is : List ι) :
    M.run s (i :: is) = M.run (M.step s i).1 is := rfl

@[simp] theorem trace_nil (s : σ) : M.trace s [] = [] := rfl

@[simp] theorem trace_cons (s : σ) (i : ι) (is : List ι) :
    M.trace s (i :: is) = M.event s i :: M.trace (M.step s i).1 is := rfl

@[simp] theorem event_pre (s : σ) (i : ι) : (M.event s i).pre = s := rfl

@[simp] theorem event_input (s : σ) (i : ι) : (M.event s i).input = i := rfl

@[simp] theorem event_output (s : σ) (i : ι) : (M.event s i).output = (M.step s i).2 := rfl

theorem run_append (s : σ) (is js : List ι) :
    M.run s (is ++ js) = M.run (M.run s is) js := by
  induction is generalizing s with
  | nil => rfl
  | cons i is ih => exact ih _

theorem trace_append (s : σ) (is js : List ι) :
    M.trace s (is ++ js) = M.trace s is ++ M.trace (M.run s is) js := by
  induction is generalizing s with
  | nil => rfl
  | cons i is ih => simp [ih]

@[simp] theorem run_concat (s : σ) (is : List ι) (i : ι) :
    M.run s (is ++ [i]) = (M.step (M.run s is) i).1 := by
  simp [run_append]

@[simp] theorem trace_concat (s : σ) (is : List ι) (i : ι) :
    M.trace s (is ++ [i]) = M.trace s is ++ [M.event (M.run s is) i] := by
  simp [trace_append]

/-- The inputs of a trace are the inputs of the run. -/
@[simp] theorem trace_map_input (s : σ) (is : List ι) :
    (M.trace s is).map Event.input = is := by
  induction is generalizing s with
  | nil => rfl
  | cons i is ih => simp [ih]

/-- What the inputs of a trace tell is what the inputs of the run tell. -/
theorem filterMap_input_trace {β : Type*} (g : ι → Option β) (s : σ) (is : List ι) :
    (M.trace s is).filterMap (fun e => g e.input) = is.filterMap g := by
  conv_rhs => rw [← M.trace_map_input s is, List.filterMap_map]
  rfl

/-- The events of a run are its one-step extensions: each splits the input list. -/
theorem mem_trace {s : σ} {is : List ι} {e : Event σ ι ο} (h : e ∈ M.trace s is) :
    ∃ before after, is = before ++ e.input :: after ∧ e = M.event (M.run s before) e.input := by
  induction is generalizing s with
  | nil => simp at h
  | cons i is ih =>
    rcases List.mem_cons.mp h with rfl | h
    · exact ⟨[], is, rfl, rfl⟩
    · obtain ⟨before, after, his, he⟩ := ih h
      exact ⟨i :: before, after, by rw [his]; rfl, he⟩

/-- Each step at its position in the run. -/
theorem getElem?_trace (s : σ) (is : List ι) (n : ℕ) :
    (M.trace s is)[n]? = is[n]?.map (M.event (M.run s (is.take n))) := by
  induction is generalizing s n with
  | nil => rfl
  | cons i is ih =>
    cases n with
    | zero => rfl
    | succ n => exact ih _ n

/-- A recorded output is the output of the step. -/
theorem output_of_mem_trace {s : σ} {is : List ι} {e : Event σ ι ο} (h : e ∈ M.trace s is) :
    e.output = (M.step e.pre e.input).2 := by
  obtain ⟨before, -, -, he⟩ := M.mem_trace h
  rw [he]
  rfl

/-! ### Induction over runs -/

/-- **Invariant rule.** What holds at the start and is kept by every step holds after
every run. -/
theorem run_induction {P : σ → Prop} {s : σ} (h0 : P s)
    (hstep : ∀ s i, P s → P (M.step s i).1) (is : List ι) : P (M.run s is) := by
  induction is generalizing s with
  | nil => exact h0
  | cons i is ih => exact ih (hstep s i h0)

/-- The same for runs of inputs that satisfy a condition. -/
theorem run_induction_of {P : σ → Prop} {A : ι → Prop} {s : σ} (h0 : P s)
    (hstep : ∀ s i, P s → A i → P (M.step s i).1) {is : List ι} (hA : ∀ i ∈ is, A i) :
    P (M.run s is) := by
  induction is generalizing s with
  | nil => exact h0
  | cons i is ih =>
    obtain ⟨hi, hA⟩ := List.forall_mem_cons.mp hA
    exact ih (hstep s i h0 hi) hA

/-- **History rule.** A property of the trace so far and the current state that holds at
the start and is kept when one event is appended holds after every run. -/
theorem history_induction {P : List (Event σ ι ο) → σ → Prop} {s : σ} (h0 : P [] s)
    (hstep : ∀ h s i, P h s → P (h ++ [M.event s i]) (M.step s i).1) (is : List ι) :
    P (M.trace s is) (M.run s is) := by
  induction is using List.reverseRecOn with
  | nil => exact h0
  | append_singleton is i ih =>
    rw [trace_concat, run_concat]
    exact hstep _ _ _ ih

/-- Every step of the run meets `C`, a condition on the events before the step and on the
event itself. -/
def Along (C : List (Event σ ι ο) → Event σ ι ο → Prop) (s : σ) (is : List ι) : Prop :=
  ∀ before e after, M.trace s is = before ++ e :: after → C before e

theorem along_nil (C : List (Event σ ι ο) → Event σ ι ο → Prop) (s : σ) :
    M.Along C s [] := by
  intro before e after h
  simp at h

/-- A condition on events alone is met by a run whose events satisfy it. -/
theorem along_of_forall_mem {C : Event σ ι ο → Prop} {s : σ} {is : List ι}
    (h : ∀ e ∈ M.trace s is, C e) : M.Along (fun _ e => C e) s is := by
  intro before e after hsplit
  exact h e (hsplit ▸ List.mem_append_right _ List.mem_cons_self)

/-- A run meets a condition iff its prefix does and its last step does. -/
theorem along_concat {C : List (Event σ ι ο) → Event σ ι ο → Prop} {s : σ} {is : List ι}
    {i : ι} : M.Along C s (is ++ [i]) ↔
      M.Along C s is ∧ C (M.trace s is) (M.event (M.run s is) i) := by
  constructor
  · intro h
    refine ⟨fun before e after hb => ?_, h _ _ [] (M.trace_concat s is i)⟩
    refine h before e (after ++ [M.event (M.run s is) i]) ?_
    rw [trace_concat, hb, List.append_assoc, List.cons_append]
  · rintro ⟨hpre, hlast⟩ before e after hb
    rw [trace_concat] at hb
    rcases List.eq_nil_or_concat after with rfl | ⟨after', e', rfl⟩
    · obtain ⟨rfl, he⟩ := List.append_inj' hb rfl
      obtain rfl : M.event (M.run s is) i = e := by simpa using he
      exact hlast
    · refine hpre before e after' ?_
      have hb' : M.trace s is ++ [M.event (M.run s is) i]
          = (before ++ e :: after') ++ [e'] := by simpa using hb
      exact (List.append_inj' hb' rfl).1

/-- The steps before some moment meet the condition if all do. -/
theorem Along.of_append {C : List (Event σ ι ο) → Event σ ι ο → Prop} {s : σ} {is js : List ι}
    (h : M.Along C s (is ++ js)) : M.Along C s is := by
  intro before e after hb
  refine h before e (after ++ M.trace (M.run s is) js) ?_
  rw [trace_append, hb, List.append_assoc, List.cons_append]

/-- The condition at the position of each step. -/
theorem along_iff_getElem {C : List (Event σ ι ο) → Event σ ι ο → Prop} {s : σ} {is : List ι} :
    M.Along C s is ↔
      ∀ i (hi : i < (M.trace s is).length), C ((M.trace s is).take i) (M.trace s is)[i] := by
  constructor
  · intro h i hi
    refine h _ _ ((M.trace s is).drop (i + 1)) ?_
    rw [← List.drop_eq_getElem_cons hi, List.take_append_drop]
  · intro h before e after hb
    have hi : before.length < (M.trace s is).length := by
      rw [hb, List.length_append, List.length_cons]
      omega
    have hC := h before.length hi
    simpa [hb] using hC

/-- The history rule for runs all of whose steps meet a condition. -/
theorem history_induction_along {C : List (Event σ ι ο) → Event σ ι ο → Prop}
    {P : List (Event σ ι ο) → σ → Prop} {s : σ} (h0 : P [] s)
    (hstep : ∀ h s i, P h s → C h (M.event s i) → P (h ++ [M.event s i]) (M.step s i).1)
    {is : List ι} (hC : M.Along C s is) : P (M.trace s is) (M.run s is) := by
  induction is using List.reverseRecOn with
  | nil => exact h0
  | append_singleton is i ih =>
    rw [along_concat] at hC
    rw [trace_concat, run_concat]
    exact hstep _ _ _ (ih hC.1) hC.2

/-- **Step properties.** What an invariant of the history implies about each next event
holds at every step of every run that meets the condition under which it is an invariant. -/
theorem Along.of_history {A C : List (Event σ ι ο) → Event σ ι ο → Prop}
    {P : List (Event σ ι ο) → σ → Prop} {s : σ} (h0 : P [] s)
    (hstep : ∀ h s i, P h s → A h (M.event s i) → P (h ++ [M.event s i]) (M.step s i).1)
    (hC : ∀ h s i, P h s → A h (M.event s i) → C h (M.event s i)) {is : List ι}
    (hA : M.Along A s is) : M.Along C s is := by
  induction is using List.reverseRecOn with
  | nil => exact M.along_nil C s
  | append_singleton is i ih =>
    rw [along_concat] at hA ⊢
    exact ⟨ih hA.1, hC _ _ i (M.history_induction_along h0 hstep hA.1) hA.2⟩

/-- The same for an invariant of all runs. -/
theorem along_of_history {C : List (Event σ ι ο) → Event σ ι ο → Prop}
    {P : List (Event σ ι ο) → σ → Prop} {s : σ} (h0 : P [] s)
    (hstep : ∀ h s i, P h s → P (h ++ [M.event s i]) (M.step s i).1)
    (hC : ∀ h s i, P h s → C h (M.event s i)) (is : List ι) : M.Along C s is :=
  Along.of_history M (A := fun _ _ => True) h0 (fun h s i hP _ => hstep h s i hP)
    (fun h s i hP _ => hC h s i hP) fun _ _ _ _ => trivial

/-- A property of history and state holds initially and after every step of the run. -/
def Always (P : List (Event σ ι ο) → σ → Prop) (s : σ) (is : List ι) : Prop :=
  ∀ before, before <+: is → P (M.trace s before) (M.run s before)

theorem always_nil {P : List (Event σ ι ο) → σ → Prop} {s : σ} :
    M.Always P s [] ↔ P [] s := by
  constructor
  · exact fun h => h [] (List.prefix_refl _)
  · intro h before hbefore
    rw [List.prefix_nil.mp hbefore]
    exact h

theorem always_concat {P : List (Event σ ι ο) → σ → Prop} {s : σ} {is : List ι} {i : ι} :
    M.Always P s (is ++ [i]) ↔
      M.Always P s is ∧ P (M.trace s (is ++ [i])) (M.run s (is ++ [i])) := by
  constructor
  · exact fun h => ⟨fun before hb => h before (hb.trans (List.prefix_append _ _)),
      h _ (List.prefix_refl _)⟩
  · rintro ⟨hpre, hlast⟩ before hbefore
    rcases List.prefix_concat_iff.mp hbefore with rfl | hbefore
    · exact hlast
    · exact hpre before hbefore

/-- What holds always holds at the end. -/
theorem Always.run {P : List (Event σ ι ο) → σ → Prop} {s : σ} {is : List ι}
    (h : M.Always P s is) : P (M.trace s is) (M.run s is) :=
  h is (List.prefix_refl _)

/-- **Exactness rule.** Let `J` be an invariant of the runs all of whose steps meet `A`. If
from a state in which `P` holds a step keeps `P` exactly when it meets `C`, then `P` holds
throughout a run exactly when every step of the run meets `C`. -/
theorem always_iff_along {J P : List (Event σ ι ο) → σ → Prop}
    {A C : List (Event σ ι ο) → Event σ ι ο → Prop} {s : σ} (hJ0 : J [] s) (hP0 : P [] s)
    (hJ : ∀ h s i, J h s → A h (M.event s i) → J (h ++ [M.event s i]) (M.step s i).1)
    (hP : ∀ h s i, J h s → A h (M.event s i) → P h s →
      (P (h ++ [M.event s i]) (M.step s i).1 ↔ C h (M.event s i)))
    {is : List ι} (hA : M.Along A s is) : M.Always P s is ↔ M.Along C s is := by
  induction is using List.reverseRecOn with
  | nil => exact iff_of_true (M.always_nil.mpr hP0) (M.along_nil C s)
  | append_singleton is i ih =>
    rw [along_concat] at hA
    rw [always_concat, along_concat, ih hA.1, trace_concat, run_concat]
    refine and_congr_right fun hC => ?_
    have hnow : P (M.trace s is) (M.run s is) := ((ih hA.1).mpr hC).run
    exact hP _ _ _ (M.history_induction_along hJ0 hJ hA.1) hA.2 hnow

/-! ### Progress -/

/-- **Variant rule.** Let `I` be an invariant of the steps that read inputs satisfying `A`. If they
keep the goal `G` where it is reached and make the variant `f` smaller where it is not, then a run
of them has reached the goal when it has as many steps as the variant counted at its start. -/
theorem run_of_variant {I G : σ → Prop} {A : ι → Prop} {f : σ → ℕ}
    (hI : ∀ s i, I s → A i → I (M.step s i).1) (hG : ∀ s i, I s → A i → G s → G (M.step s i).1)
    (hzero : ∀ s, I s → f s = 0 → G s)
    (hlt : ∀ s i, I s → A i → ¬ G s → f (M.step s i).1 < f s) {s : σ} {is : List ι} (hs : I s)
    (his : ∀ i ∈ is, A i) (hlen : f s ≤ is.length) : G (M.run s is) := by
  -- a state of the run has reached the goal, or its variant is at most the steps that are left
  replace hlen : G s ∨ f s ≤ is.length := Or.inr hlen
  induction is generalizing s with
  | nil => exact hlen.elim id fun hlen => hzero s hs (Nat.le_zero.mp hlen)
  | cons i is ih =>
    obtain ⟨hi, his⟩ := List.forall_mem_cons.mp his
    refine ih (hI s i hs hi) his ?_
    by_cases hgoal : G s
    · exact Or.inl (hG s i hs hi hgoal)
    · have hless := hlt s i hs hi hgoal
      have hlen : f s ≤ (i :: is).length := hlen.resolve_left hgoal
      rw [List.length_cons] at hlen
      exact Or.inr (by omega)

/-- Let the steps that read inputs satisfying `A` leave the state as it is or make the variant
smaller. Then so does a run of them. -/
theorem run_eq_or_lt {I : σ → Prop} {A : ι → Prop} {f : σ → ℕ}
    (hI : ∀ s i, I s → A i → I (M.step s i).1)
    (hlt : ∀ s i, I s → A i → (M.step s i).1 = s ∨ f (M.step s i).1 < f s) {s : σ} {is : List ι}
    (hs : I s) (his : ∀ i ∈ is, A i) :
    (M.run s is = s ∧ ∀ i ∈ is, (M.step s i).1 = s) ∨ f (M.run s is) < f s := by
  induction is generalizing s with
  | nil => exact Or.inl ⟨rfl, List.forall_mem_nil _⟩
  | cons i is ih =>
    obtain ⟨hi, his⟩ := List.forall_mem_cons.mp his
    have hrest := ih (hI s i hs hi) his
    rw [run_cons]
    rcases hlt s i hs hi with hsame | hless
    · rw [hsame] at hrest ⊢
      exact hrest.imp_left fun h => ⟨h.1, List.forall_mem_cons.mpr ⟨hsame, h.2⟩⟩
    · refine Or.inr ?_
      rcases hrest with ⟨hsame, -⟩ | hmore
      · rwa [hsame]
      · exact Nat.lt_trans hmore hless

/-- **Round rule.** Let the steps that read inputs satisfying `A` keep the invariant `I` and the
goal `G`, and leave the state as it is or make the variant `f` smaller. If each round holds, for
every state short of the goal, an input that changes it, then more rounds than the variant counts
reach the goal. -/
theorem run_of_rounds {I G : σ → Prop} {A : ι → Prop} {f : σ → ℕ}
    (hI : ∀ s i, I s → A i → I (M.step s i).1)
    (hG : ∀ s i, I s → A i → G s → G (M.step s i).1)
    (hlt : ∀ s i, I s → A i → (M.step s i).1 = s ∨ f (M.step s i).1 < f s)
    {rounds : List (List ι)} (hA : ∀ round ∈ rounds, ∀ i ∈ round, A i)
    (hmoves : ∀ round ∈ rounds, ∀ s, I s → ¬ G s → ∃ i ∈ round, (M.step s i).1 ≠ s) {s : σ}
    (hs : I s) (hlen : f s < rounds.length) : G (M.run s rounds.flatten) := by
  induction rounds generalizing s with
  | nil => cases hlen
  | cons round rounds ih =>
    obtain ⟨hround, hA⟩ := List.forall_mem_cons.mp hA
    obtain ⟨hmove, hmoves⟩ := List.forall_mem_cons.mp hmoves
    have hI' : I (M.run s round) := M.run_induction_of hs hI hround
    rw [List.flatten_cons, run_append]
    by_cases hgoal : G s
    · have hkeep : ∀ s i, I s ∧ G s → A i → I (M.step s i).1 ∧ G (M.step s i).1 :=
        fun s i hs hi => ⟨hI s i hs.1 hi, hG s i hs.1 hi hs.2⟩
      have hall : ∀ i ∈ rounds.flatten, A i := fun i hi => by
        obtain ⟨round', hround', hi⟩ := List.mem_flatten.mp hi
        exact hA round' hround' i hi
      exact (M.run_induction_of (M.run_induction_of ⟨hs, hgoal⟩ hkeep hround) hkeep hall).2
    · rcases M.run_eq_or_lt hI hlt hs hround with ⟨-, hsame⟩ | hless
      · obtain ⟨i, hi, hne⟩ := hmove s hs hgoal
        exact absurd (hsame i hi) hne
      · rw [List.length_cons] at hlen
        exact ih hA hmoves hI' (by omega)

/-! ### A machine inside another one -/

section Component

variable {τ κ ο' : Type*} {N : StepMachine τ κ ο'} {π : σ → τ} {f : σ → ι → List κ}

/-- **Component rule.** Let `π` be a part of the state, and `I` an invariant of the steps that
read inputs satisfying `A`. If these steps move the part by runs of the machine `N`, then every
run of theirs moves it by the run of `N` on the inputs of its steps together, and the recorded
steps of the part are those made in the steps of the run. -/
theorem component_of_inv {I : σ → Prop} {A : ι → Prop}
    (hI : ∀ s i, I s → A i → I (M.step s i).1)
    (h : ∀ s i, I s → A i → π (M.step s i).1 = N.run (π s) (f s i)) {s : σ} {is : List ι}
    (hs : I s) (his : ∀ i ∈ is, A i) :
    π (M.run s is) = N.run (π s) ((M.trace s is).flatMap fun e => f e.pre e.input) ∧
      N.trace (π s) ((M.trace s is).flatMap fun e => f e.pre e.input) =
        (M.trace s is).flatMap fun e => N.trace (π e.pre) (f e.pre e.input) := by
  induction is generalizing s with
  | nil => exact ⟨rfl, rfl⟩
  | cons i is ih =>
    obtain ⟨hi, his⟩ := List.forall_mem_cons.mp his
    obtain ⟨hrun, htrace⟩ := ih (hI s i hs hi) his
    rw [run_cons, trace_cons, List.flatMap_cons, List.flatMap_cons, run_append, trace_append, hrun,
      ← htrace, h s i hs hi]
    exact ⟨rfl, rfl⟩

/-- Where every step moves the part by a run of `N`, so does every run. -/
theorem run_component (h : ∀ s i, π (M.step s i).1 = N.run (π s) (f s i)) (s : σ) (is : List ι) :
    π (M.run s is) = N.run (π s) ((M.trace s is).flatMap fun e => f e.pre e.input) :=
  (M.component_of_inv (I := fun _ => True) (A := fun _ => True) (fun _ _ _ _ => trivial)
    (fun s i _ _ => h s i) trivial fun _ _ => trivial).1

/-- The recorded steps of the component are those made in the steps of the run. -/
theorem trace_component (h : ∀ s i, π (M.step s i).1 = N.run (π s) (f s i)) (s : σ)
    (is : List ι) :
    N.trace (π s) ((M.trace s is).flatMap fun e => f e.pre e.input) =
      (M.trace s is).flatMap fun e => N.trace (π e.pre) (f e.pre e.input) :=
  (M.component_of_inv (I := fun _ => True) (A := fun _ => True) (fun _ _ _ _ => trivial)
    (fun s i _ _ => h s i) trivial fun _ _ => trivial).2

end Component

/-! ### Comparing two machines -/

/-- **Simulation rule.** Let `R` relate the states of two machines with the same inputs. If a
step preserves `R` and shows the same on both sides, then so do all runs. -/
theorem simulation {τ ο' ρ : Type*} {N : StepMachine τ ι ο'} {R : σ → τ → Prop} {obs : ο → ρ}
    {obs' : ο' → ρ} {s : σ} {t : τ} (h0 : R s t)
    (hstep : ∀ s t i, R s t →
      R (M.step s i).1 (N.step t i).1 ∧ obs (M.step s i).2 = obs' (N.step t i).2)
    (is : List ι) :
    R (M.run s is) (N.run t is) ∧
      (M.trace s is).map (fun e => obs e.output) = (N.trace t is).map fun e => obs' e.output := by
  induction is generalizing s t with
  | nil => exact ⟨h0, rfl⟩
  | cons i is ih =>
    obtain ⟨hR, hobs⟩ := hstep s t i h0
    obtain ⟨hrun, htrace⟩ := ih hR
    exact ⟨hrun, congrArg₂ List.cons hobs htrace⟩

/-! ### Comparing a run with a thinned run -/

/-- **Deletion rule.** Let `R` relate the history and state of a run with those of the run
in which only the inputs satisfying `keep` remain. If a kept input preserves `R` and yields
the same observation on both sides, and a deleted input preserves `R` and yields none, then
both runs show the same observations. The condition `C` is assumed of every step of the
full run and `D` of every step of the thinned one. -/
theorem filter_simulation {C D : List (Event σ ι ο) → Event σ ι ο → Prop}
    {R : List (Event σ ι ο) → σ → List (Event σ ι ο) → σ → Prop} {keep : ι → Bool}
    {ρ : Type*} {obs : Event σ ι ο → Option ρ} {s : σ} (h0 : R [] s [] s)
    (hkeep : ∀ h s h' t i, R h s h' t → C h (M.event s i) → D h' (M.event t i) →
      keep i = true → R (h ++ [M.event s i]) (M.step s i).1 (h' ++ [M.event t i]) (M.step t i).1 ∧
        obs (M.event s i) = obs (M.event t i))
    (hdrop : ∀ h s h' t i, R h s h' t → C h (M.event s i) → keep i = false →
      R (h ++ [M.event s i]) (M.step s i).1 h' t ∧ obs (M.event s i) = none)
    {is : List ι} (hC : M.Along C s is) (hD : M.Along D s (is.filter keep)) :
    R (M.trace s is) (M.run s is) (M.trace s (is.filter keep)) (M.run s (is.filter keep)) ∧
      (M.trace s is).filterMap obs = (M.trace s (is.filter keep)).filterMap obs := by
  induction is using List.reverseRecOn with
  | nil => exact ⟨h0, rfl⟩
  | append_singleton is i ih =>
    rw [along_concat] at hC
    cases hk : keep i with
    | true =>
      have hfilter : (is ++ [i]).filter keep = is.filter keep ++ [i] := by simp [hk]
      rw [hfilter, along_concat] at hD
      obtain ⟨hR, hobs⟩ := ih hC.1 hD.1
      obtain ⟨hR', hobs'⟩ := hkeep _ _ _ _ i hR hC.2 hD.2 hk
      rw [hfilter, trace_concat, run_concat, trace_concat, run_concat,
        List.filterMap_append, List.filterMap_append, hobs]
      exact ⟨hR', by simp [List.filterMap_cons, hobs']⟩
    | false =>
      have hfilter : (is ++ [i]).filter keep = is.filter keep := by simp [hk]
      rw [hfilter] at hD
      obtain ⟨hR, hobs⟩ := ih hC.1 hD
      obtain ⟨hR', hobs'⟩ := hdrop _ _ _ _ i hR hC.2 hk
      rw [hfilter, trace_concat, run_concat, List.filterMap_append, hobs]
      exact ⟨hR', by simp [hobs']⟩

end StepMachine
