import Mathlib.Data.List.Sort
import ProtoMsgQueue.Lib.UnorderedMap

/-!
# The deduplication window

`DedupWindow` of `common/dedup_window.cpp`. For each producer the window keeps the largest
sequence number that was processed; a message is a duplicate when its number is not larger.
Times are readings of the steady clock.
-/

namespace ProtoMsgQueue

open UnorderedMap

/-- What the window knows of a producer. -/
structure ProducerState where
  /-- The largest processed sequence number, 64 bits. -/
  maxSequence : ℕ := 0
  /-- When the producer was last marked. -/
  lastActive : ℤ := 0
deriving DecidableEq, Repr

/-- The window. -/
structure DedupWindow where
  /-- The known producers. -/
  producers : UnorderedMap String ProducerState := ∅
  /-- The configured size, which no operation reads. -/
  maxProducers : ℕ := 100000

namespace DedupWindow

variable (window : DedupWindow)

/-- Was the message processed? Nothing is a duplicate without a producer name. -/
def isDuplicate (producerId : String) (sequenceId : ℕ) : Bool :=
  if producerId = "" then false
  else
    match window.producers.lookup producerId with
    | none => false
    | some state => sequenceId ≤ state.maxSequence

/-- Note that a message was processed. -/
def markProcessed (producerId : String) (sequenceId : ℕ) (steadyNow : ℤ) : DedupWindow :=
  if producerId = "" then window
  else
    let state := valueAt window.producers producerId {}
    let maxSequence :=
      if state.maxSequence < sequenceId then sequenceId else state.maxSequence
    { window with producers := window.producers.insert producerId ⟨maxSequence, steadyNow⟩ }

/-- Forget a producer. -/
def removeProducer (producerId : String) : DedupWindow :=
  { window with producers := window.producers.erase producerId }

/-- The producers, least recently active first. Producers of one age come in an order the
sort of the source leaves open; here it is the order of the map. -/
def sortedProducers : List String :=
  (window.producers.entries.mergeSort fun a b => a.2.lastActive ≤ b.2.lastActive).map Sigma.fst

/-- Forget the least recently active producers until at most `maxInactive` are left. -/
def cleanupInactive (maxInactive : ℕ) : DedupWindow :=
  if window.producers.keys.length ≤ maxInactive then window
  else
    let toRemove := window.producers.keys.length - maxInactive
    { window with producers := eraseAll window.producers (window.sortedProducers.take toRemove) }

/-- How many producers are known. -/
def producerCount : ℕ := window.producers.keys.length

/-! ### Duplicates -/

/-- A new window knows no duplicate. -/
@[simp] theorem isDuplicate_empty (maxProducers : ℕ) (p : String) (s : ℕ) :
    isDuplicate ⟨∅, maxProducers⟩ p s = false := by
  simp [isDuplicate]

/-- **Marking.** After a message is marked, duplicates are those from before and, of its
producer, those with a number not larger. -/
theorem isDuplicate_markProcessed (p : String) (s : ℕ) (steadyNow : ℤ) (q : String) (r : ℕ) :
    (window.markProcessed p s steadyNow).isDuplicate q r = true ↔
      window.isDuplicate q r = true ∨ (q ≠ "" ∧ q = p ∧ r ≤ s) := by
  rw [markProcessed]
  by_cases hp : p = ""
  · rw [if_pos hp]
    constructor
    · exact Or.inl
    · rintro (h | ⟨hq, rfl, -⟩)
      · exact h
      · exact absurd hp hq
  rw [if_neg hp, isDuplicate, isDuplicate]
  by_cases hq : q = ""
  · simp [hq]
  rw [if_neg hq, if_neg hq]
  rcases eq_or_ne q p with rfl | hne
  · rw [AList.lookup_insert, valueAt]
    rcases window.producers.lookup q with - | state
    · simp only [Option.getD_none, decide_eq_true_eq, Bool.false_eq_true, false_or]
      split <;> grind
    · simp only [Option.getD_some, decide_eq_true_eq]
      split <;> grind
  · simp [AList.lookup_insert_ne hne, hne]

/-- A marked message is a duplicate from then on. -/
theorem isDuplicate_markProcessed_self {p : String} (hp : p ≠ "") (s : ℕ) (steadyNow : ℤ) :
    (window.markProcessed p s steadyNow).isDuplicate p s = true :=
  (window.isDuplicate_markProcessed p s steadyNow p s).mpr (Or.inr ⟨hp, rfl, le_refl s⟩)

end DedupWindow

end ProtoMsgQueue
