import ProtoMsgQueue.Lib.StepMachine
import Mathlib.Data.List.Infix

/-!
# Incremental parsers

An `IncrementalParser σ β α` holds a state of type `σ`, is *fed* lists of symbols and is
*polled* for items. The laws say that polling early is harmless: an item found stays found
when more input arrives (`poll_some_feed`), and a poll that found nothing only tidies the
state (`poll_none_feed`). They give **chunking invariance** for every interleaving of feeds
and polls (`drain_run`): what has been returned, followed by what draining the current
state yields, is what draining the whole input yields.
-/

/-- A parser that is fed input in pieces and polled for items. `size` bounds how often a
state can still be polled with success. -/
structure IncrementalParser (σ β α : Type*) where
  /-- Append input. -/
  feed : σ → List β → σ
  /-- Ask for the next item. -/
  poll : σ → Option α × σ
  /-- A measure that every found item decreases. -/
  size : σ → ℕ
  feed_nil : ∀ s, feed s [] = s
  feed_feed : ∀ s x y, feed (feed s x) y = feed s (x ++ y)
  size_poll : ∀ {s a s'}, poll s = (some a, s') → size s' < size s
  poll_some_feed : ∀ {s a s'}, poll s = (some a, s') → ∀ x, poll (feed s x) = (some a, feed s' x)
  poll_none_feed : ∀ {s s'}, poll s = (none, s') → ∀ x, poll (feed s x) = poll (feed s' x)

namespace IncrementalParser

universe u v w

variable {σ : Type u} {β : Type v} {α : Type w} (P : IncrementalParser σ β α)

/-- Poll until nothing is found: the items in order, and the final state. -/
def drain (s : σ) : List α × σ :=
  match _h : P.poll s with
  | (none, s') => ([], s')
  | (some a, s') => (a :: (drain s').1, (drain s').2)
termination_by P.size s
decreasing_by all_goals exact P.size_poll _h

theorem drain_of_none {s s' : σ} (h : P.poll s = (none, s')) : P.drain s = ([], s') := by
  rw [drain]
  split
  · next h' => rw [h] at h'; cases h'; rfl
  · next h' => rw [h] at h'; cases h'

theorem drain_of_some {s s' : σ} {a : α} (h : P.poll s = (some a, s')) :
    P.drain s = (a :: (P.drain s').1, (P.drain s').2) := by
  rw [drain]
  split
  · next h' => rw [h] at h'; cases h'
  · next h' => rw [h] at h'; cases h'; rfl

/-- Draining depends on the next poll only. -/
theorem drain_congr {s t : σ} (h : P.poll s = P.poll t) : P.drain s = P.drain t := by
  rcases ht : P.poll t with ⟨_ | a, t'⟩
  · rw [P.drain_of_none ht, P.drain_of_none (h.trans ht)]
  · rw [P.drain_of_some ht, P.drain_of_some (h.trans ht)]

/-- A poll that found nothing may be forgotten. -/
theorem drain_feed_of_none {s s' : σ} (h : P.poll s = (none, s')) (x : List β) :
    P.drain (P.feed s x) = P.drain (P.feed s' x) :=
  P.drain_congr (P.poll_none_feed h x)

/-- A poll that found an item found the first item of the whole input. -/
theorem drain_feed_of_some {s s' : σ} {a : α} (h : P.poll s = (some a, s')) (x : List β) :
    P.drain (P.feed s x) =
      (a :: (P.drain (P.feed s' x)).1, (P.drain (P.feed s' x)).2) :=
  P.drain_of_some (P.poll_some_feed h x)

/-- Draining finds nothing iff the next poll does. -/
theorem drain_fst_eq_nil_iff (s : σ) : (P.drain s).1 = [] ↔ (P.poll s).1 = none := by
  rcases h : P.poll s with ⟨_ | a, s'⟩
  · rw [P.drain_of_none h]
    exact iff_of_true rfl rfl
  · rw [P.drain_of_some h]
    exact iff_of_false (List.cons_ne_nil _ _) nofun

/-- A drained parser finds nothing more. -/
theorem poll_drain (s : σ) : (P.poll (P.drain s).2).1 = none := by
  induction hn : P.size s using Nat.strong_induction_on generalizing s with
  | _ n ih =>
    subst hn
    rcases h : P.poll s with ⟨_ | a, s'⟩
    · have hagain := P.poll_none_feed h []
      rw [P.feed_nil, P.feed_nil, h] at hagain
      rw [P.drain_of_none h, ← hagain]
    · rw [P.drain_of_some h]
      exact ih _ (P.size_poll h) s' rfl

/-- **Draining in between.** Draining before more input arrives makes no difference. -/
theorem drain_feed (s : σ) (x : List β) : P.drain (P.feed s x) =
    ((P.drain s).1 ++ (P.drain (P.feed (P.drain s).2 x)).1,
      (P.drain (P.feed (P.drain s).2 x)).2) := by
  induction hn : P.size s using Nat.strong_induction_on generalizing s with
  | _ n ih =>
    subst hn
    rcases h : P.poll s with ⟨_ | a, s'⟩
    · rw [P.drain_feed_of_none h, P.drain_of_none h]
      rfl
    · rw [P.drain_feed_of_some h, P.drain_of_some h, ih _ (P.size_poll h) s' rfl]
      rfl

/-! ### Interleaved feeds and polls -/

/-- A call on the parser. -/
inductive Call (β : Type v) where
  /-- Append a piece of input, possibly empty. -/
  | feed (x : List β)
  /-- Ask for an item. -/
  | poll

/-- The parser as a machine: a feed returns nothing, a poll what was found. -/
def machine : StepMachine σ (Call β) (Option α) where
  step s
    | .feed x => (P.feed s x, none)
    | .poll => ((P.poll s).2, (P.poll s).1)

/-- The input fed by a list of calls. -/
def fed : List (Call β) → List β
  | [] => []
  | .feed x :: calls => x ++ fed calls
  | .poll :: calls => fed calls

/-- The items a list of calls returns. -/
def returned (s : σ) (calls : List (Call β)) : List α :=
  (P.machine.trace s calls).filterMap StepMachine.Event.output

@[simp] theorem returned_nil (s : σ) : P.returned s [] = [] := rfl

@[simp] theorem returned_feed (s : σ) (x : List β) (calls : List (Call β)) :
    P.returned s (.feed x :: calls) = P.returned (P.feed s x) calls := rfl

theorem returned_poll_none {s s' : σ} (h : P.poll s = (none, s')) (calls : List (Call β)) :
    P.returned s (.poll :: calls) = P.returned s' calls := by
  simp [returned, machine, h]

theorem returned_poll_some {s s' : σ} {a : α} (h : P.poll s = (some a, s'))
    (calls : List (Call β)) : P.returned s (.poll :: calls) = a :: P.returned s' calls := by
  simp [returned, machine, h]

/-- **Chunking invariance.** Draining the whole input yields what the calls returned so
far, followed by what draining the state they reached yields on the rest. -/
theorem drain_run (s : σ) (calls : List (Call β)) (rest : List β) :
    P.drain (P.feed s (fed calls ++ rest)) =
      (P.returned s calls ++ (P.drain (P.feed (P.machine.run s calls) rest)).1,
        (P.drain (P.feed (P.machine.run s calls) rest)).2) := by
  induction calls generalizing s with
  | nil => rfl
  | cons call calls ih =>
    cases call with
    | feed x =>
      rw [fed, List.append_assoc, ← P.feed_feed, ih, returned_feed]
      rfl
    | poll =>
      rcases h : P.poll s with ⟨_ | a, s'⟩
      · have hrun : P.machine.run s (.poll :: calls) = P.machine.run s' calls := by
          simp [machine, h]
        rw [fed, P.drain_feed_of_none h, ih, P.returned_poll_none h, hrun]
      · have hrun : P.machine.run s (.poll :: calls) = P.machine.run s' calls := by
          simp [machine, h]
        rw [fed, P.drain_feed_of_some h, ih, P.returned_poll_some h, hrun, List.cons_append]

/-- What the calls returned so far is a prefix of what the whole input yields. -/
theorem returned_prefix (s : σ) (calls : List (Call β)) (rest : List β) :
    P.returned s calls <+: (P.drain (P.feed s (fed calls ++ rest))).1 := by
  rw [drain_run]
  exact List.prefix_append _ _

/-- Once a poll has found nothing, items and state are those of the whole input. -/
theorem drain_of_run_poll_none {s s' : σ} {calls : List (Call β)}
    (h : P.poll (P.machine.run s calls) = (none, s')) :
    P.drain (P.feed s (fed calls)) = (P.returned s calls, s') := by
  have hrun := P.drain_run s calls []
  rw [List.append_nil, P.feed_nil, P.drain_of_none h, List.append_nil] at hrun
  exact hrun

end IncrementalParser
