import ProtoMsgQueue.Lib.StepMachine
import ProtoMsgQueue.RingBuffer.SpscRingBuffer

/-!
# Producer and consumer interleaved

One producer and one consumer run on a ring buffer in any order. `Push` is three steps
(load the indices, write the bytes, store the tail) and so is `Pop` (load the indices,
read the bytes, store the head); each party remembers in its phase what it loaded, so the
free space is judged by a stale head and the availability by a stale tail. A run is a list
of turns.

The invariant `Consistent` ties the buffer to the history: it holds exactly the accepted
records that were not returned, a half-done push owns cells behind them, and a half-done
pop works on the oldest of them.
-/

namespace ProtoMsgQueue

namespace SpscRingBuffer

/-- Where the producer stands in `Push`. -/
inductive ProducerPhase where
  /-- Between two calls. -/
  | idle
  /-- The indices are loaded and the record fits. -/
  | loaded (data : List UInt8) (tail : ℕ)
  /-- The bytes are written, the tail is not stored. -/
  | written (data : List UInt8) (tail : ℕ)

/-- Where the consumer stands in `Pop`. -/
inductive ConsumerPhase where
  /-- Between two calls. -/
  | idle
  /-- The indices are loaded and differ. -/
  | loaded (head : ℕ)
  /-- The bytes are read, the head is not stored. -/
  | read (head : ℕ) (data : List UInt8)

/-- The shared buffer and the two parties. -/
structure System where
  /-- The buffer. -/
  ring : SpscRingBuffer
  /-- The producer. -/
  producer : ProducerPhase
  /-- The consumer. -/
  consumer : ConsumerPhase

/-- Whose turn it is. The record of a producer turn is the argument of the next `Push`,
looked at only when the producer starts one. -/
inductive Turn where
  /-- The producer takes a step. -/
  | producer (data : List UInt8)
  /-- The consumer takes a step. -/
  | consumer

/-- What a turn makes visible. -/
inductive Outcome where
  /-- A call is under way. -/
  | running
  /-- `Push` returned. -/
  | pushed (data : List UInt8) (ok : Bool)
  /-- `Pop` returned. -/
  | popped (result : Option (List UInt8))

/-- One step of `Push`. -/
def producerStep (st : System) (data : List UInt8) : System × Outcome :=
  match st.producer with
  | .idle =>
    match st.ring.pushLoad data with
    | none => (st, .pushed data false)
    | some tail => ({ st with producer := .loaded data tail }, .running)
  | .loaded data tail =>
    ({ st with ring := st.ring.pushWrite data tail, producer := .written data tail }, .running)
  | .written data tail =>
    ({ st with ring := st.ring.pushStore data tail, producer := .idle }, .pushed data true)

/-- One step of `Pop`. -/
def consumerStep (st : System) : System × Outcome :=
  match st.consumer with
  | .idle =>
    match st.ring.popLoad with
    | none => (st, .popped none)
    | some head => ({ st with consumer := .loaded head }, .running)
  | .loaded head =>
    match st.ring.popRead head with
    | none => ({ st with consumer := .idle }, .popped none)
    | some data => ({ st with consumer := .read head data }, .running)
  | .read head data =>
    ({ st with ring := st.ring.popStore head data, consumer := .idle }, .popped (some data))

/-- The interleaving semantics. -/
def system : StepMachine System Turn Outcome where
  step st
    | .producer data => producerStep st data
    | .consumer => consumerStep st

/-- A fresh buffer with both parties between calls. -/
def System.init (capacity : ℕ) : System := ⟨ofCapacity capacity, .idle, .idle⟩

/-- A recorded turn. -/
abbrev Event := StepMachine.Event System Turn Outcome

/-- The record accepted by a turn. -/
def Outcome.accepted? : Outcome → Option (List UInt8)
  | .pushed data true => some data
  | _ => none

/-- The record returned by a turn. -/
def Outcome.returned? : Outcome → Option (List UInt8)
  | .popped result => result
  | _ => none

/-- The records whose `Push` returned true, in order. -/
def accepted (h : List Event) : List (List UInt8) := h.filterMap fun e => e.output.accepted?

/-- The records `Pop` returned, in order. -/
def returned (h : List Event) : List (List UInt8) := h.filterMap fun e => e.output.returned?

/-- The accepted records that were not returned. -/
def unread (h : List Event) : List (List UInt8) := (accepted h).drop (returned h).length

/-- The indices a turn writes to. -/
def written (st : System) : Turn → List ℕ
  | .producer _ =>
    match st.producer with
    | .loaded data tail =>
      (List.range (4 + data.length)).map fun j => (tail + j) % st.ring.capacity
    | _ => []
  | .consumer => []

@[simp] theorem accepted_concat (h : List Event) (e : Event) :
    accepted (h ++ [e]) = accepted h ++ e.output.accepted?.toList := by
  cases ho : e.output.accepted? <;> simp [accepted, ho]

@[simp] theorem returned_concat (h : List Event) (e : Event) :
    returned (h ++ [e]) = returned h ++ e.output.returned?.toList := by
  cases ho : e.output.returned? <;> simp [returned, ho]

/-- A turn changes no cell it does not write to. -/
theorem cell_of_notMem_written (st : System) (turn : Turn) {p : ℕ}
    (hp : p % st.ring.capacity ∉ written st turn) :
    Circular.cell (system.step st turn).1.ring.buffer p = Circular.cell st.ring.buffer p := by
  cases turn with
  | consumer =>
    simp only [system, consumerStep]
    split
    · split <;> rfl
    · split <;> rfl
    · rfl
  | producer next =>
    simp only [system, producerStep]
    split
    · split <;> rfl
    · rename_i data tail hphase
      change Circular.cell (st.ring.pushWrite data tail).buffer p = _
      rw [pushWrite_buffer]
      refine Circular.cell_write_of_forall_ne fun j hj heq => hp ?_
      rw [length_record] at hj
      rw [st.ring.length_buffer] at heq
      simp only [written, hphase, List.mem_map, List.mem_range]
      exact ⟨j, hj, heq⟩
    · rfl

/-! ### The invariant -/

/-- What a half-done push knows: its record is not empty, fits behind the unread records,
and once written lies there. -/
def ProducerPhase.Ok (ring : SpscRingBuffer) (H : ℕ) (unread : List (List UInt8)) :
    ProducerPhase → Prop
  | .idle => True
  | .loaded data tail =>
    data ≠ [] ∧ (records unread).length + (record data).length < ring.capacity ∧ tail = ring.tail
  | .written data tail =>
    data ≠ [] ∧ (records unread).length + (record data).length < ring.capacity ∧ tail = ring.tail ∧
      Staged ring H unread data

/-- What a half-done pop knows: the head is its own, and the record it works on is the
oldest unread one. -/
def ConsumerPhase.Ok (ring : SpscRingBuffer) (unread : List (List UInt8)) : ConsumerPhase → Prop
  | .idle => True
  | .loaded head => head = ring.head ∧ unread ≠ []
  | .read head data => head = ring.head ∧ ∃ rest, unread = data :: rest

/-- The invariant of the interleaving. -/
structure Consistent (capacity : ℕ) (h : List Event) (st : System) : Prop where
  capacity_eq : st.ring.capacity = capacity + 1
  accepted_eq : accepted h = returned h ++ unread h
  holds : st.ring.Holds (records (returned h)).length (unread h)
  producer : st.producer.Ok st.ring (records (returned h)).length (unread h)
  consumer : st.consumer.Ok st.ring (unread h)

theorem consistent_init (capacity : ℕ) : Consistent capacity [] (System.init capacity) where
  capacity_eq := rfl
  accepted_eq := rfl
  holds := holds_ofCapacity capacity
  producer := trivial
  consumer := trivial

/-- Appending an event that neither accepts nor returns a record. -/
private theorem unread_concat_silent {h : List Event} {e : Event}
    (ha : e.output.accepted? = none) (hr : e.output.returned? = none) :
    accepted (h ++ [e]) = accepted h ∧ returned (h ++ [e]) = returned h ∧
      unread (h ++ [e]) = unread h := by
  simp [unread, ha, hr]

/-- An invariant that survives a silent step with the history unchanged survives it. -/
private theorem Consistent.concat_silent {capacity : ℕ} {h : List Event} {st : System} {e : Event}
    (hc : Consistent capacity h st) (ha : e.output.accepted? = none)
    (hr : e.output.returned? = none) : Consistent capacity (h ++ [e]) st := by
  obtain ⟨hacc, hret, hun⟩ := unread_concat_silent (h := h) ha hr
  refine ⟨hc.capacity_eq, ?_, ?_, ?_, ?_⟩
  · rw [hacc, hret, hun]
    exact hc.accepted_eq
  · rw [hret, hun]
    exact hc.holds
  · rw [hret, hun]
    exact hc.producer
  · rw [hun]
    exact hc.consumer

/-- A producer turn keeps the invariant. -/
theorem Consistent.producerStep {capacity : ℕ} {h : List Event} {st : System}
    (hc : Consistent capacity h st) (next : List UInt8) :
    Consistent capacity (h ++ [system.event st (.producer next)])
      (system.step st (.producer next)).1 := by
  obtain ⟨ring, producer, consumer⟩ := st
  obtain ⟨hcap, hacc, hholds, hprod, hcons⟩ := hc
  dsimp only at hcap hholds hprod hcons
  cases producer with
  | idle =>
    cases hload : ring.pushLoad next with
    | none =>
      -- rejected at the load: the producer stays idle and nothing is written
      have hstep : system.step ⟨ring, .idle, consumer⟩ (.producer next)
          = (⟨ring, .idle, consumer⟩, .pushed next false) := by
        simp [system, SpscRingBuffer.producerStep, hload]
      rw [hstep]
      refine Consistent.concat_silent ⟨hcap, hacc, hholds, hprod, hcons⟩ ?_ ?_ <;>
        simp [hstep, Outcome.accepted?, Outcome.returned?]
    | some tail =>
      have hstep : system.step ⟨ring, .idle, consumer⟩ (.producer next)
          = (⟨ring, .loaded next tail, consumer⟩, .running) := by
        simp [system, SpscRingBuffer.producerStep, hload]
      have hok := hholds.pushLoad_eq_some_iff.mp hload
      rw [hstep]
      refine Consistent.concat_silent ⟨hcap, hacc, hholds, hok, hcons⟩ ?_ ?_ <;>
        simp [hstep, Outcome.accepted?, Outcome.returned?]
  | loaded data tail =>
    obtain ⟨hdata, hfit, rfl⟩ := hprod
    -- the bytes go behind the unread records, where the head has not reached yet
    obtain ⟨hholds', hstaged⟩ := hholds.pushWrite hfit
    have hstep : system.step ⟨ring, .loaded data ring.tail, consumer⟩ (.producer next)
        = (⟨ring.pushWrite data ring.tail, .written data ring.tail, consumer⟩, .running) := rfl
    rw [hstep]
    refine Consistent.concat_silent ⟨hcap, hacc, hholds', ⟨hdata, hfit, rfl, hstaged⟩, ?_⟩ ?_ ?_
    · -- the consumer only looks at the head, which a write does not move
      cases consumer <;> exact hcons
    · rfl
    · rfl
  | written data tail =>
    obtain ⟨hdata, hfit, rfl, hstaged⟩ := hprod
    -- the store of the tail publishes the staged record: it is accepted here
    have hstep : system.step ⟨ring, .written data ring.tail, consumer⟩ (.producer next)
        = (⟨ring.pushStore data ring.tail, .idle, consumer⟩, .pushed data true) := rfl
    have hret : returned (h ++ [system.event ⟨ring, .written data ring.tail, consumer⟩
        (.producer next)]) = returned h := by
      rw [returned_concat, StepMachine.event_output, hstep]
      simp [Outcome.returned?]
    have hacc' : accepted (h ++ [system.event ⟨ring, .written data ring.tail, consumer⟩
        (.producer next)]) = returned h ++ (unread h ++ [data]) := by
      rw [accepted_concat, StepMachine.event_output, hstep, hacc, List.append_assoc]
      rfl
    have hun : unread (h ++ [system.event ⟨ring, .written data ring.tail, consumer⟩
        (.producer next)]) = unread h ++ [data] := by
      rw [unread, hret, hacc', List.drop_left]
    rw [hstep]
    refine ⟨hcap, ?_, ?_, trivial, ?_⟩
    · rw [hret, hun, hacc']
    · rw [hret, hun]
      exact hholds.pushStore hdata hfit hstaged
    · rw [hun]
      cases consumer with
      | idle => trivial
      | loaded head => exact ⟨hcons.1, by simp⟩
      | read head oldest =>
        obtain ⟨hhead, rest, hrest⟩ := hcons
        exact ⟨hhead, rest ++ [data], by rw [hrest]; rfl⟩

/-- `Pop` loads the head, if there is a record. -/
theorem Consistent.consumerLoad {capacity : ℕ} {h : List Event} {ring : SpscRingBuffer}
    {producer : ProducerPhase} (hc : Consistent capacity h ⟨ring, producer, .idle⟩) :
    Consistent capacity (h ++ [system.event ⟨ring, producer, .idle⟩ .consumer])
        (system.step ⟨ring, producer, .idle⟩ .consumer).1 ∧
      ((system.step ⟨ring, producer, .idle⟩ .consumer).2 = .popped none → unread h = []) := by
  obtain ⟨hcap, hacc, hholds, hprod, hcons⟩ := hc
  dsimp only at hcap hholds hprod hcons
  have hload := hholds.popLoad_eq
  by_cases hempty : unread h = []
  · rw [if_pos hempty] at hload
    have hstep : system.step ⟨ring, producer, .idle⟩ .consumer
        = (⟨ring, producer, .idle⟩, .popped none) := by
      simp [system, SpscRingBuffer.consumerStep, hload]
    rw [hstep]
    refine ⟨?_, fun _ => hempty⟩
    refine Consistent.concat_silent ⟨hcap, hacc, hholds, hprod, hcons⟩ ?_ ?_ <;>
      simp [hstep, Outcome.accepted?, Outcome.returned?]
  · rw [if_neg hempty] at hload
    have hstep : system.step ⟨ring, producer, .idle⟩ .consumer
        = (⟨ring, producer, .loaded ring.head⟩, .running) := by
      simp [system, SpscRingBuffer.consumerStep, hload]
    rw [hstep]
    refine ⟨?_, fun hnone => by cases hnone⟩
    refine Consistent.concat_silent ⟨hcap, hacc, hholds, hprod, rfl, hempty⟩ ?_ ?_ <;>
      simp [hstep, Outcome.accepted?, Outcome.returned?]

/-- `Pop` reads the oldest record. -/
theorem Consistent.consumerRead {capacity : ℕ} (hcapacity : capacity ≤ kMaxPayloadSize)
    {h : List Event} {ring : SpscRingBuffer} {producer : ProducerPhase} {head : ℕ}
    (hc : Consistent capacity h ⟨ring, producer, .loaded head⟩) :
    Consistent capacity (h ++ [system.event ⟨ring, producer, .loaded head⟩ .consumer])
        (system.step ⟨ring, producer, .loaded head⟩ .consumer).1 ∧
      (system.step ⟨ring, producer, .loaded head⟩ .consumer).2 = .running := by
  obtain ⟨hcap, hacc, hholds, hprod, hcons⟩ := hc
  dsimp only at hcap hholds hprod hcons
  obtain ⟨rfl, hne⟩ := hcons
  obtain ⟨data, rest, hrest⟩ := List.exists_cons_of_ne_nil hne
  -- an accepted record fits the buffer, so the length check of the read passes
  have hfits : ¬ kMaxPayloadSize < data.length := by
    have hlt := hholds.length_lt
    rw [hrest, records_cons, List.length_append, length_record] at hlt
    omega
  have hread : ring.popRead ring.head = some data := by
    have hlimit : kMaxPayloadSize + 1 ≤ 2 ^ 32 := by decide
    rw [hrest] at hholds
    rw [hholds.popRead_eq (by omega), if_neg hfits]
  have hstep : system.step ⟨ring, producer, .loaded ring.head⟩ .consumer
      = (⟨ring, producer, .read ring.head data⟩, .running) := by
    simp [system, SpscRingBuffer.consumerStep, hread]
  rw [hstep]
  refine ⟨?_, rfl⟩
  refine Consistent.concat_silent ⟨hcap, hacc, hholds, hprod, rfl, rest, hrest⟩ ?_ ?_ <;>
    simp [hstep, Outcome.accepted?, Outcome.returned?]

/-- Fewer unread records leave the producer more room, and its staged bytes where they are. -/
theorem ProducerPhase.Ok.popStore {producer : ProducerPhase} {ring : SpscRingBuffer} {H : ℕ}
    {data : List UInt8} {rest : List (List UInt8)} {head : ℕ}
    (hprod : producer.Ok ring H (data :: rest)) :
    producer.Ok (ring.popStore head data) (H + (record data).length) rest := by
  cases producer with
  | idle => trivial
  | loaded next tail =>
    obtain ⟨hnext, hfit, htail⟩ := hprod
    rw [records_cons, List.length_append] at hfit
    exact ⟨hnext, lt_of_le_of_lt (by omega) hfit, htail⟩
  | written next tail =>
    obtain ⟨hnext, hfit, htail, hstaged⟩ := hprod
    rw [Staged, records_cons, List.length_append, ← Nat.add_assoc] at hstaged
    rw [records_cons, List.length_append] at hfit
    exact ⟨hnext, lt_of_le_of_lt (by omega) hfit, htail, hstaged⟩

/-- The store of the head frees the oldest record, which `Pop` returns. -/
theorem Consistent.consumerStore {capacity : ℕ} {h : List Event} {ring : SpscRingBuffer}
    {producer : ProducerPhase} {head : ℕ} {data : List UInt8}
    (hc : Consistent capacity h ⟨ring, producer, .read head data⟩) :
    Consistent capacity (h ++ [system.event ⟨ring, producer, .read head data⟩ .consumer])
      (system.step ⟨ring, producer, .read head data⟩ .consumer).1 := by
  obtain ⟨hcap, hacc, hholds, hprod, hcons⟩ := hc
  dsimp only at hcap hholds hprod hcons
  obtain ⟨rfl, rest, hrest⟩ := hcons
  have hstep : system.step ⟨ring, producer, .read ring.head data⟩ .consumer
      = (⟨ring.popStore ring.head data, producer, .idle⟩, .popped (some data)) := rfl
  have hret : returned (h ++ [system.event ⟨ring, producer, .read ring.head data⟩ .consumer])
      = returned h ++ [data] := by
    rw [returned_concat, StepMachine.event_output, hstep]
    rfl
  have hacc' : accepted (h ++ [system.event ⟨ring, producer, .read ring.head data⟩ .consumer])
      = (returned h ++ [data]) ++ rest := by
    rw [accepted_concat, StepMachine.event_output, hstep, hacc, hrest]
    simp [Outcome.accepted?]
  have hun : unread (h ++ [system.event ⟨ring, producer, .read ring.head data⟩ .consumer])
      = rest := by
    rw [unread, hret, hacc', List.drop_left]
  have hH : (records (returned h ++ [data])).length
      = (records (returned h)).length + (record data).length := by simp
  rw [hstep]
  refine ⟨hcap, ?_, ?_, ?_, trivial⟩
  · rw [hret, hun, hacc']
  · rw [hret, hun, hH]
    exact (hrest ▸ hholds : ring.Holds _ (data :: rest)).popStore
  · rw [hret, hun, hH]
    exact (hrest ▸ hprod : producer.Ok ring _ (data :: rest)).popStore

/-- A consumer turn keeps the invariant, with a buffer no larger than the payload limit. -/
theorem Consistent.consumerStep {capacity : ℕ} (hcapacity : capacity ≤ kMaxPayloadSize)
    {h : List Event} {st : System} (hc : Consistent capacity h st) :
    Consistent capacity (h ++ [system.event st .consumer]) (system.step st .consumer).1 ∧
      ((system.step st .consumer).2 = .popped none → st.consumer = .idle ∧ unread h = []) := by
  obtain ⟨ring, producer, consumer⟩ := st
  cases consumer with
  | idle => exact hc.consumerLoad.imp_right fun hempty hnone => ⟨rfl, hempty hnone⟩
  | loaded head =>
    refine (hc.consumerRead hcapacity).imp_right fun hrunning hnone => ?_
    rw [hrunning] at hnone
    cases hnone
  | read head data => exact ⟨hc.consumerStore, fun hnone => by cases hnone⟩

/-- Every turn keeps the invariant. -/
theorem Consistent.step {capacity : ℕ} (hcapacity : capacity ≤ kMaxPayloadSize)
    {h : List Event} {st : System} (hc : Consistent capacity h st) (turn : Turn) :
    Consistent capacity (h ++ [system.event st turn]) (system.step st turn).1 := by
  cases turn with
  | producer data => exact hc.producerStep data
  | consumer => exact (hc.consumerStep hcapacity).1

/-- The invariant holds after every run. -/
theorem consistent_run {capacity : ℕ} (hcapacity : capacity ≤ kMaxPayloadSize)
    (turns : List Turn) :
    Consistent capacity (system.trace (System.init capacity) turns)
      (system.run (System.init capacity) turns) :=
  system.history_induction (consistent_init capacity)
    (fun _ _ turn hc => hc.step hcapacity turn) turns

/-- A pop that returns nothing found no unread record at its load. -/
theorem Consistent.popped_none {capacity : ℕ} (hcapacity : capacity ≤ kMaxPayloadSize)
    {h : List Event} {st : System} {turn : Turn} (hc : Consistent capacity h st)
    (hout : (system.step st turn).2 = .popped none) :
    st.consumer = .idle ∧ accepted h = returned h := by
  cases turn with
  | consumer =>
    obtain ⟨hidle, hempty⟩ := (hc.consumerStep hcapacity).2 hout
    exact ⟨hidle, by rw [hc.accepted_eq, hempty, List.append_nil]⟩
  | producer data =>
    simp only [system, SpscRingBuffer.producerStep] at hout
    split at hout
    · split at hout <;> cases hout
    · cases hout
    · cases hout

/-- The cells of the unread records are never written to. -/
theorem Consistent.notMem_written {capacity : ℕ} {h : List Event} {st : System}
    (hc : Consistent capacity h st) (turn : Turn) {i : ℕ} (hi : i < st.ring.getReadableSize) :
    (st.ring.head + i) % st.ring.capacity ∉ written st turn := by
  obtain ⟨ring, producer, consumer⟩ := st
  obtain ⟨-, -, hholds, hprod, -⟩ := hc
  dsimp only at hholds hprod hi ⊢
  rw [hholds.getReadableSize_eq] at hi
  cases turn with
  | consumer => exact List.not_mem_nil
  | producer next =>
    cases producer with
    | idle => exact List.not_mem_nil
    | written data tail => exact List.not_mem_nil
    | loaded data tail =>
      obtain ⟨-, hfit, rfl⟩ := hprod
      rw [length_record] at hfit
      intro hmem
      obtain ⟨j, hj, heq⟩ := List.mem_map.mp hmem
      rw [List.mem_range] at hj
      change (ring.tail + j) % ring.capacity = (ring.head + i) % ring.capacity at heq
      rw [hholds.tail_eq, hholds.head_eq, Nat.mod_add_mod, Nat.mod_add_mod, Nat.add_assoc] at heq
      exact Circular.add_mod_ne (by omega) (by omega) heq.symm

/-! ### Every interleaving -/

/-- **FIFO under every interleaving.** After every run: the returned records are a prefix
of the accepted ones; the occupied bytes are those of the unread records and fit the
capacity; and at every step of the run, a pop that returned nothing was at its load with
nothing unread, and neither the step's writes nor its effect touch the bytes of an unread
record. -/
theorem fifo_of_interleaving (capacity : ℕ) (hcapacity : capacity ≤ kMaxPayloadSize)
    (turns : List Turn) :
    let h := system.trace (System.init capacity) turns
    let st := system.run (System.init capacity) turns
    returned h <+: accepted h ∧
    st.ring.getReadableSize = ((unread h).map fun data => 4 + data.length).sum ∧
    st.ring.getReadableSize ≤ capacity ∧
    system.Along (fun before e =>
      (e.output = .popped none → e.pre.consumer = .idle ∧ accepted before = returned before) ∧
      ∀ i < e.pre.ring.getReadableSize,
        (e.pre.ring.head + i) % e.pre.ring.capacity ∉ written e.pre e.input ∧
        Circular.cell (system.step e.pre e.input).1.ring.buffer (e.pre.ring.head + i) =
          Circular.cell e.pre.ring.buffer (e.pre.ring.head + i)) (System.init capacity) turns := by
  intro h st
  have hc : Consistent capacity h st := consistent_run hcapacity turns
  have hsize := hc.holds.getReadableSize_eq
  refine ⟨⟨unread h, hc.accepted_eq.symm⟩, ?_, ?_, ?_⟩
  · rw [hsize, length_records]
  · rw [hsize]
    have hlt := hc.holds.length_lt
    rw [hc.capacity_eq] at hlt
    exact Nat.le_of_lt_succ hlt
  · refine system.along_of_history (consistent_init capacity)
      (fun _ _ turn hc => hc.step hcapacity turn) (fun before st turn hc => ⟨?_, ?_⟩) turns
    · exact fun hout => hc.popped_none hcapacity hout
    · intro i hi
      have hnot := hc.notMem_written turn hi
      exact ⟨hnot, cell_of_notMem_written st turn hnot⟩

/-- A push that overlaps two pops on sixteen cells. -/
theorem fifo_of_interleaving_overlap :
    let turns := [.producer [1, 2], .producer [], .consumer, .producer [], .consumer,
      .producer [3], .consumer, .producer [], .consumer]
    16 ≤ kMaxPayloadSize ∧
      returned (system.trace (System.init 16) turns) = [[1, 2]] ∧
      returned (system.trace (System.init 16) turns) <+:
        accepted (system.trace (System.init 16) turns) :=
  ⟨by decide, by decide, (fifo_of_interleaving 16 (by decide) _).1⟩

end SpscRingBuffer

end ProtoMsgQueue
