import ProtoMsgQueue.Common.DedupWindow
import ProtoMsgQueue.Lib.StepMachine

/-!
# What the deduplication window remembers

The window keeps one number and one time for each producer. This module relates them to the
calls made so far: the number is the largest sequence number marked for the producer since
it was last removed, the time is that of its last mark (`Remembers`). `cleanupInactive` sorts
the producers by age with an unstable sort, so the order among producers of one age is left
to an `AgeOrder`, which may be another one in each call.
-/

namespace ProtoMsgQueue

open UnorderedMap

namespace DedupWindow

/-! ### Cleaning up in any order of age -/

/-- When a producer was last active. -/
def lastActive (producers : UnorderedMap String ProducerState) (p : String) : ℤ :=
  (valueAt producers p {}).lastActive

/-- A way of sorting the producers of a window by age, least recently active first. -/
structure AgeOrder where
  /-- The producers in order. -/
  sort : UnorderedMap String ProducerState → List String
  sort_perm : ∀ producers, (sort producers).Perm producers.keys
  pairwise_sort : ∀ producers,
    (sort producers).Pairwise fun p q => lastActive producers p ≤ lastActive producers q

variable (window : DedupWindow)

/-- `cleanupInactive`, with the producers sorted by `order`. -/
def cleanupInactiveBy (order : AgeOrder) (maxInactive : ℕ) : DedupWindow :=
  if window.producers.keys.length ≤ maxInactive then window
  else
    let toRemove := window.producers.keys.length - maxInactive
    { window with
      producers := eraseAll window.producers ((order.sort window.producers).take toRemove) }

theorem sortedProducers_perm : window.sortedProducers.Perm window.producers.keys :=
  (List.mergeSort_perm _ _).map _

theorem pairwise_sortedProducers : window.sortedProducers.Pairwise fun p q =>
    lastActive window.producers p ≤ lastActive window.producers q := by
  rw [sortedProducers, List.pairwise_map]
  have hsorted : (window.producers.entries.mergeSort fun a b =>
      a.2.lastActive ≤ b.2.lastActive).Pairwise fun a b =>
        decide (a.2.lastActive ≤ b.2.lastActive) = true := by
    refine List.pairwise_mergeSort (fun a b c hab hbc => ?_) (fun a b => ?_) _
    · rw [decide_eq_true_eq] at hab hbc ⊢
      omega
    · rw [Bool.or_eq_true, decide_eq_true_eq, decide_eq_true_eq]
      omega
  have hvalue {e : Sigma fun _ : String => ProducerState} (he : e ∈ window.producers.entries) :
      lastActive window.producers e.1 = e.2.lastActive := by
    rw [lastActive, valueAt, AList.mem_lookup_iff.mpr he]
    rfl
  refine hsorted.imp_of_mem fun {a b} ha hb hle => ?_
  rw [hvalue (List.mem_mergeSort.mp ha), hvalue (List.mem_mergeSort.mp hb)]
  exact of_decide_eq_true hle

/-- Producers of one age in the order of the map. -/
def AgeOrder.entries : AgeOrder where
  sort producers := sortedProducers ⟨producers, 0⟩
  sort_perm producers := sortedProducers_perm ⟨producers, 0⟩
  pairwise_sort producers := pairwise_sortedProducers ⟨producers, 0⟩

theorem cleanupInactive_eq (maxInactive : ℕ) :
    window.cleanupInactive maxInactive = window.cleanupInactiveBy .entries maxInactive := rfl

/-! ### What a cleanup leaves -/

variable {window} {order : AgeOrder} {maxInactive : ℕ}

theorem nodup_take_sort (producers : UnorderedMap String ProducerState) (n : ℕ) :
    ((order.sort producers).take n).Nodup :=
  ((order.sort_perm producers).nodup_iff.mpr producers.keys_nodup).sublist (List.take_sublist n _)

theorem mem_of_mem_take_sort {producers : UnorderedMap String ProducerState} {n : ℕ} {p : String}
    (h : p ∈ (order.sort producers).take n) : p ∈ producers :=
  (order.sort_perm producers).mem_iff.mp (List.mem_of_mem_take h)

/-- A cleanup leaves `maxInactive` producers, or all if there are not so many. -/
theorem producerCount_cleanupInactiveBy :
    (window.cleanupInactiveBy order maxInactive).producerCount =
      min maxInactive window.producerCount := by
  unfold cleanupInactiveBy producerCount
  split
  · next h => exact (min_eq_right h).symm
  · next h =>
    have hlen : (order.sort window.producers).length = window.producers.keys.length :=
      (order.sort_perm _).length_eq
    dsimp only
    rw [length_keys_eraseAll (nodup_take_sort _ _) fun p => mem_of_mem_take_sort,
      List.length_take, hlen]
    omega

/-- A producer keeps its state in a cleanup, or loses it. -/
theorem lookup_cleanupInactiveBy (p : String) :
    (window.cleanupInactiveBy order maxInactive).producers.lookup p =
      if p ∈ (window.cleanupInactiveBy order maxInactive).producers
        then window.producers.lookup p else none := by
  split
  · next h =>
    unfold cleanupInactiveBy at h ⊢
    split
    · rfl
    · next hle =>
      rw [if_neg hle] at h
      dsimp only at h ⊢
      rw [lookup_eraseAll, if_neg (mem_eraseAll.mp h).2]
  · next h => exact AList.lookup_eq_none.mpr h

/-- A cleanup makes no producer known. -/
theorem mem_of_mem_cleanupInactiveBy {p : String}
    (h : p ∈ (window.cleanupInactiveBy order maxInactive).producers) : p ∈ window.producers := by
  have hlookup : (window.cleanupInactiveBy order maxInactive).producers.lookup p = _ :=
    lookup_cleanupInactiveBy p
  rw [if_pos h] at hlookup
  rw [← AList.lookup_isSome] at h ⊢
  rwa [← hlookup]

/-- **Eviction.** A producer that is kept is not less recently active than one removed. -/
theorem lastActive_le_of_cleanupInactiveBy {p q : String}
    (hp : p ∈ (window.cleanupInactiveBy order maxInactive).producers)
    (hq : q ∈ window.producers)
    (hq' : q ∉ (window.cleanupInactiveBy order maxInactive).producers) :
    lastActive window.producers q ≤ lastActive window.producers p := by
  unfold cleanupInactiveBy at hp hq'
  split at hp
  · next hle =>
    rw [if_pos hle] at hq'
    exact absurd hq hq'
  · next hle =>
    rw [if_neg hle] at hq'
    obtain ⟨hpmem, hplater⟩ := mem_eraseAll.mp hp
    have hqearly : q ∈
        (order.sort window.producers).take (window.producers.keys.length - maxInactive) := by
      by_contra hlater
      exact hq' (mem_eraseAll.mpr ⟨hq, hlater⟩)
    -- the removed ones come first in the order of age
    have hsplit := List.take_append_drop (window.producers.keys.length - maxInactive)
      (order.sort window.producers)
    have hsorted := order.pairwise_sort window.producers
    rw [← hsplit] at hsorted
    have hpsort := (order.sort_perm window.producers).mem_iff.mpr hpmem
    rw [← hsplit] at hpsort
    rcases List.mem_append.mp hpsort with h | h
    · exact absurd h hplater
    · exact (List.pairwise_append.mp hsorted).2.2 q hqearly p h

/-! ### The calls so far -/

/-- A call that changes the window. -/
inductive WindowCall where
  /-- `markProcessed` at a reading of the steady clock. -/
  | markProcessed (producerId : String) (sequenceId : ℕ) (steadyNow : ℤ)
  /-- `removeProducer`. -/
  | removeProducer (producerId : String)
  /-- `cleanupInactive`, whose sort gives the order `order`. -/
  | cleanupInactive (maxInactive : ℕ) (order : AgeOrder)

/-- The window after a call. -/
def call (window : DedupWindow) : WindowCall → DedupWindow
  | .markProcessed producerId sequenceId steadyNow =>
    window.markProcessed producerId sequenceId steadyNow
  | .removeProducer producerId => window.removeProducer producerId
  | .cleanupInactive maxInactive order => window.cleanupInactiveBy order maxInactive

/-- The window as a machine. -/
def calls : StepMachine DedupWindow WindowCall Unit where
  step window c := (window.call c, ())

/-- Does a step remove producer `p`? A cleanup removes those that it makes unknown. -/
def removes (p : String) (e : StepMachine.Event DedupWindow WindowCall Unit) : Bool :=
  match e.input with
  | .markProcessed _ _ _ => false
  | .removeProducer producerId => producerId = p
  | .cleanupInactive _ _ => p ∈ e.pre.producers ∧ p ∉ (e.pre.call e.input).producers

/-- The numbers marked for producer `p` since it was last removed, with the times of the
marks, oldest first. -/
def marksSince (p : String) (h : List (StepMachine.Event DedupWindow WindowCall Unit)) :
    List (ℕ × ℤ) :=
  h.foldl
    (fun marks e =>
      if removes p e then []
      else
        match e.input with
        | .markProcessed producerId sequenceId steadyNow =>
          if producerId = p then marks ++ [(sequenceId, steadyNow)] else marks
        | _ => marks)
    []

/-- The largest number marked for producer `p` since it was last removed, if any. -/
def largestMarked (p : String) (h : List (StepMachine.Event DedupWindow WindowCall Unit)) :
    Option ℕ := ((marksSince p h).map Prod.fst).max?

/-- When producer `p` was last marked, if it was since it was last removed. -/
def lastMarked (p : String) (h : List (StepMachine.Event DedupWindow WindowCall Unit)) :
    Option ℤ := (marksSince p h).getLast?.map Prod.snd

/-- The state of a producer that sums up `marks`: nothing before the first. -/
def summary (marks : List (ℕ × ℤ)) : Option ProducerState :=
  marks.foldl
    (fun state mark => some ⟨max mark.1 ((state.map ProducerState.maxSequence).getD 0), mark.2⟩)
    none

/-- The window knows of every producer the summary of its marks. -/
structure Remembers (h : List (StepMachine.Event DedupWindow WindowCall Unit))
    (window : DedupWindow) : Prop where
  lookup_eq : ∀ p ≠ "", window.producers.lookup p = summary (marksSince p h)
  unnamed_notMem : "" ∉ window.producers

theorem summary_concat (marks : List (ℕ × ℤ)) (mark : ℕ × ℤ) :
    summary (marks ++ [mark]) =
      some ⟨max mark.1 (((summary marks).map ProducerState.maxSequence).getD 0), mark.2⟩ := by
  rw [summary, List.foldl_append]
  rfl

private theorem max?_concat (xs : List ℕ) (x : ℕ) :
    (xs ++ [x]).max? = some (max x (xs.max?.getD 0)) := by
  cases xs with
  | nil => simp
  | cons y ys =>
    rw [List.cons_append, List.max?_cons', List.max?_cons', List.foldl_append, Option.getD_some,
      max_comm]
    rfl

/-- The summary holds the largest number and the last time. -/
theorem summary_eq (marks : List (ℕ × ℤ)) :
    (summary marks).map ProducerState.maxSequence = (marks.map Prod.fst).max? ∧
      (summary marks).map ProducerState.lastActive = marks.getLast?.map Prod.snd := by
  induction marks using List.reverseRecOn with
  | nil => exact ⟨rfl, rfl⟩
  | append_singleton marks mark ih =>
    rw [summary_concat, ih.1, List.getLast?_concat, List.map_append, List.map_singleton,
      max?_concat]
    exact ⟨rfl, rfl⟩

theorem marksSince_concat (p : String) (h : List (StepMachine.Event DedupWindow WindowCall Unit))
    (e : StepMachine.Event DedupWindow WindowCall Unit) :
    marksSince p (h ++ [e]) =
      if removes p e then []
      else
        match e.input with
        | .markProcessed producerId sequenceId steadyNow =>
          if producerId = p then marksSince p h ++ [(sequenceId, steadyNow)]
          else marksSince p h
        | _ => marksSince p h := by
  rw [marksSince, List.foldl_append]
  rfl

/-- A mark extends the summary of its producer and no other. -/
theorem lookup_markProcessed {window : DedupWindow} {q : String} (hq : q ≠ "") (s : ℕ) (t : ℤ)
    (p : String) : (window.markProcessed q s t).producers.lookup p =
      if q = p then
        some ⟨max s (((window.producers.lookup q).map ProducerState.maxSequence).getD 0), t⟩
      else window.producers.lookup p := by
  rw [markProcessed, if_neg hq]
  split
  · next heq =>
    subst heq
    rw [AList.lookup_insert, valueAt]
    rcases window.producers.lookup q with - | state
    · simp only [Option.getD_none, Option.map_none]
      split <;> grind
    · simp only [Option.getD_some, Option.map_some]
      split <;> grind
  · next hne => rw [AList.lookup_insert_ne (Ne.symm hne)]

/-- Every call keeps the memory exact. -/
theorem Remembers.step {h : List (StepMachine.Event DedupWindow WindowCall Unit)}
    {window : DedupWindow} (hw : Remembers h window) (c : WindowCall) :
    Remembers (h ++ [calls.event window c]) (calls.step window c).1 := by
  cases c with
  | markProcessed q s t =>
    by_cases hq : q = ""
    · -- a message without a producer is not marked
      have hsame : (calls.step window (.markProcessed q s t)).1 = window := if_pos hq
      rw [hsame]
      refine ⟨fun p hp => ?_, hw.unnamed_notMem⟩
      have hne : q ≠ p := fun heq => hp (heq ▸ hq)
      rw [hw.lookup_eq p hp, marksSince_concat]
      simp [removes, hne]
    · refine ⟨fun p hp => ?_, ?_⟩
      · change (window.markProcessed q s t).producers.lookup p = _
        rw [lookup_markProcessed hq, marksSince_concat]
        simp only [removes, StepMachine.event_input, Bool.false_eq_true, if_false]
        split
        · next heq => rw [summary_concat, ← heq, hw.lookup_eq q hq]
        · exact hw.lookup_eq p hp
      · change "" ∉ (window.markProcessed q s t).producers
        rw [← AList.lookup_isSome, lookup_markProcessed hq, if_neg hq, AList.lookup_isSome]
        exact hw.unnamed_notMem
  | removeProducer q =>
    refine ⟨fun p hp => ?_, fun hmem => hw.unnamed_notMem (AList.mem_erase.mp hmem).2⟩
    change (window.producers.erase q).lookup p = _
    rw [marksSince_concat]
    simp only [removes, StepMachine.event_input, decide_eq_true_eq]
    split
    · next heq => rw [heq, AList.lookup_erase]; rfl
    · next hne => rw [AList.lookup_erase_ne (Ne.symm hne), hw.lookup_eq p hp]
  | cleanupInactive k order =>
    refine ⟨fun p hp => ?_, fun hmem => ?_⟩
    · change (window.cleanupInactiveBy order k).producers.lookup p = _
      rw [marksSince_concat, lookup_cleanupInactiveBy, hw.lookup_eq p hp]
      simp only [removes, call, StepMachine.event_input, StepMachine.event_pre]
      by_cases hkept : p ∈ (window.cleanupInactiveBy order k).producers
      · simp [hkept]
      · by_cases hknown : p ∈ window.producers
        · simp [hkept, hknown, summary]
        · have hnone := AList.lookup_eq_none.mpr hknown
          rw [hw.lookup_eq p hp] at hnone
          simp [hkept, hknown, hnone]
    · exact hw.unnamed_notMem (mem_of_mem_cleanupInactiveBy hmem)

theorem remembers_run (maxProducers : ℕ) (cs : List WindowCall) :
    Remembers (calls.trace ⟨∅, maxProducers⟩ cs) (calls.run ⟨∅, maxProducers⟩ cs) := by
  refine calls.history_induction ⟨fun p _ => ?_, AList.notMem_empty _⟩
    (fun h window c hw => hw.step c) cs
  exact AList.lookup_empty p

/-! ### Answers from history -/

/-- A message is a duplicate exactly if its number is at most the largest one marked for its
producer. -/
theorem Remembers.isDuplicate_iff {h : List (StepMachine.Event DedupWindow WindowCall Unit)}
    {window : DedupWindow} (hw : Remembers h window) {p : String} (hp : p ≠ "") (s : ℕ) :
    window.isDuplicate p s = true ↔ ∃ largest, largestMarked p h = some largest ∧ s ≤ largest := by
  rw [isDuplicate, if_neg hp, hw.lookup_eq p hp, largestMarked, ← (summary_eq _).1]
  cases summary (marksSince p h) with
  | none => simp
  | some state => simp

/-- The known producers are those with a mark; the window has the time of the last one. -/
theorem Remembers.lastMarked_eq {h : List (StepMachine.Event DedupWindow WindowCall Unit)}
    {window : DedupWindow} (hw : Remembers h window) {p : String} (hp : p ∈ window.producers) :
    lastMarked p h = some (lastActive window.producers p) := by
  have hne : p ≠ "" := fun heq => hw.unnamed_notMem (heq ▸ hp)
  obtain ⟨state, hstate⟩ := mem_iff_exists_lookup.mp hp
  rw [lastMarked, ← (summary_eq _).2, ← hw.lookup_eq p hne, lastActive, valueAt, hstate]
  rfl

/-- **The window answers from history.** After any calls on a new window, a message with a
producer is a duplicate exactly if its producer was marked since it was last removed and the
message's number is at most the largest one marked since then. And a cleanup at this point,
in whatever order it sorts producers of one age, leaves `maxInactive` producers or all of
them if there are fewer, none of which was last marked before one that it removes, and the
answers for those that remain are as before. -/
theorem answers_from_history (maxProducers : ℕ) (cs : List WindowCall) :
    let window := calls.run ⟨∅, maxProducers⟩ cs
    let h := calls.trace ⟨∅, maxProducers⟩ cs
    (∀ p ≠ "", ∀ s, window.isDuplicate p s = true ↔
      ∃ largest, largestMarked p h = some largest ∧ s ≤ largest) ∧
    ∀ (order : AgeOrder) (maxInactive : ℕ),
      let window' := window.cleanupInactiveBy order maxInactive
      window'.producerCount = min maxInactive window.producerCount ∧
      (∀ p ∈ window'.producers, p ∈ window.producers ∧
        ∀ s, window'.isDuplicate p s = window.isDuplicate p s) ∧
      ∀ p ∈ window'.producers, ∀ q ∈ window.producers, q ∉ window'.producers →
        ∃ tp tq, lastMarked p h = some tp ∧ lastMarked q h = some tq ∧ tq ≤ tp := by
  intro window h
  have hw : Remembers h window := remembers_run maxProducers cs
  refine ⟨fun p hp s => hw.isDuplicate_iff hp s, fun order maxInactive => ?_⟩
  refine ⟨producerCount_cleanupInactiveBy, fun p hp => ?_, fun p hp q hq hq' => ?_⟩
  · refine ⟨mem_of_mem_cleanupInactiveBy hp, fun s => ?_⟩
    rw [isDuplicate, isDuplicate, lookup_cleanupInactiveBy, if_pos hp]
  · exact ⟨_, _, hw.lastMarked_eq (mem_of_mem_cleanupInactiveBy hp), hw.lastMarked_eq hq,
      lastActive_le_of_cleanupInactiveBy hp hq hq'⟩

end DedupWindow

end ProtoMsgQueue
