import Mathlib.Data.List.Basic
import Mathlib.Tactic.Common

/-!
# Computations under scoped locks

A thread runs a computation on a state of type `σ` and holds a list of locks of type `L`.
`withLock l body` holds `l` while `body` runs, as a lock guard does; taking a lock that the
thread holds already is an error. `Ends` says that a computation ends without an error and
leaves the thread with the locks it had, `Fails` that it stops at a lock. The rules follow
the computation: sequence, lock, read and update.
-/

/-- A computation of a thread. The error is the lock that was taken twice. -/
abbrev LockM (L σ : Type) := StateT (List L × σ) (Except L)

namespace LockM

variable {L σ α β : Type}

/-- Read the state. -/
def look (f : σ → α) : LockM L σ α := fun s => .ok (f s.2, s)

/-- Change the state. -/
def update (f : σ → σ) : LockM L σ Unit := fun s => .ok ((), s.1, f s.2)

/-- Hold a lock during a computation. -/
def withLock [DecidableEq L] (l : L) (body : LockM L σ α) : LockM L σ α := fun s =>
  if l ∈ s.1 then .error l
  else
    match body (l :: s.1, s.2) with
    | .error e => .error e
    | .ok (a, held, s') => .ok (a, held.erase l, s')

/-- The computation ends with a result, in another state, holding the locks it held. -/
def Ends (m : LockM L σ α) (held : List L) (s : σ) (a : α) (s' : σ) : Prop :=
  m (held, s) = .ok (a, held, s')

/-- The computation stops at a lock that is held already. -/
def Fails (m : LockM L σ α) (held : List L) (s : σ) (l : L) : Prop := m (held, s) = .error l

variable {m body : LockM L σ α} {f : α → LockM L σ β} {held : List L} {s s' s'' : σ} {a : α}
  {b : β} {l l' : L}

theorem Ends.not_fails (h : Ends m held s a s') : ¬ Fails m held s l := by
  intro hf
  rw [Ends, hf] at h
  cases h

theorem ends_pure (a : α) (held : List L) (s : σ) : Ends (pure a) held s a s := rfl

theorem ends_look (f : σ → α) (held : List L) (s : σ) : Ends (look f) held s (f s) s := rfl

theorem ends_update (f : σ → σ) (held : List L) (s : σ) : Ends (update f) held s () (f s) := rfl

private theorem run_bind (m : LockM L σ α) (f : α → LockM L σ β) (s : List L × σ) :
    (m >>= f) s =
      match m s with
      | .error e => Except.error e
      | .ok r => f r.1 r.2 := by
  change (m s >>= fun r => f r.1 r.2) = _
  cases m s <;> rfl

theorem Ends.bind (h : Ends m held s a s') (h' : Ends (f a) held s' b s'') :
    Ends (m >>= f) held s b s'' := by
  rw [Ends, run_bind, h]
  exact h'

theorem Ends.bind_fails (h : Ends m held s a s') (h' : Fails (f a) held s' l) :
    Fails (m >>= f) held s l := by
  rw [Fails, run_bind, h]
  exact h'

/-- There is one result and one state at the end. -/
theorem Ends.unique {a' : α} (h : Ends m held s a s') (h' : Ends m held s a' s'') :
    a = a' ∧ s' = s'' := by
  rw [Ends, h] at h'
  have heq := Except.ok.inj h'
  exact ⟨congrArg Prod.fst heq, congrArg (fun r => r.2.2) heq⟩

theorem Fails.bind (h : Fails m held s l) : Fails (m >>= f) held s l := by
  rw [Fails, run_bind, h]

variable [DecidableEq L]

private theorem run_withLock (hl : l ∉ held) (body : LockM L σ α) (s : σ) :
    withLock l body (held, s) =
      match body (l :: held, s) with
      | .error e => .error e
      | .ok (a, held, s') => .ok (a, held.erase l, s') :=
  if_neg hl

/-- A free lock is held for the body. -/
theorem Ends.withLock (hl : l ∉ held) (h : Ends body (l :: held) s a s') :
    Ends (withLock l body) held s a s' := by
  rw [Ends, run_withLock hl, h]
  simp only [List.erase_cons_head]

/-- An error of the body is an error. -/
theorem Fails.withLock (hl : l ∉ held) (h : Fails body (l :: held) s l') :
    Fails (withLock l body) held s l' := by
  rw [Fails, run_withLock hl, h]

/-- Taking a lock twice is an error. -/
theorem fails_withLock (hl : l ∈ held) : Fails (LockM.withLock l body) held s l := if_pos hl

end LockM
