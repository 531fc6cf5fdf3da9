import ProtoMsgQueue.Common.Types
import ProtoMsgQueue.Lib.BigEndian
import ProtoMsgQueue.Lib.Circular

/-!
# The single-producer single-consumer ring buffer

`ring_buffer/spsc_ring_buffer.cpp`. A record is stored as a four-byte big-endian length
followed by its bytes, at indices modulo the capacity, one cell larger than asked for so
that full and empty differ. `push` and `pop` are each split at their shared accesses:
load the indices, touch the bytes, store the own index. The pieces are what the
interleaving semantics runs; `push` and `pop` put them together.

`Holds` says what a buffer contains: a list of unread records from a virtual head on.
Each piece has one lemma about it.
-/

namespace ProtoMsgQueue

open BigEndian

/-- A ring buffer. -/
structure SpscRingBuffer where
  /-- The number of cells, one more than the capacity asked for. -/
  capacity : ℕ
  /-- The cells. -/
  buffer : List UInt8
  /-- The consumer's read index. -/
  head : ℕ
  /-- The producer's write index. -/
  tail : ℕ
  length_buffer : buffer.length = capacity
  head_lt : head < capacity
  tail_lt : tail < capacity

namespace SpscRingBuffer

/-- The constructor: one more cell tells full from empty. -/
def ofCapacity (capacity : ℕ) : SpscRingBuffer where
  capacity := capacity + 1
  buffer := List.replicate (capacity + 1) 0
  head := 0
  tail := 0
  length_buffer := List.length_replicate
  head_lt := capacity.succ_pos
  tail_lt := capacity.succ_pos

variable (rb : SpscRingBuffer)

/-- Unread bytes. -/
def getReadableSize : ℕ := (rb.tail + rb.capacity - rb.head) % rb.capacity

/-- Free bytes. -/
def getWritableSize : ℕ := (rb.head + rb.capacity - rb.tail - 1) % rb.capacity

/-- Is there nothing to read? -/
def empty : Bool := rb.head = rb.tail

/-- The start of `Push`: check the length, load both indices and compute the free space.
The write index if the record fits. -/
def pushLoad (data : List UInt8) : Option ℕ :=
  if data.length = 0 ∨ rb.capacity - 1 < data.length then none
  else
    let tail := rb.tail
    let head := rb.head
    let totalLen := 4 + data.length
    let writable := (head + rb.capacity - tail - 1) % rb.capacity
    if writable < totalLen then none else some tail

/-- The middle of `Push`: write the length header, then the bytes. -/
def pushWrite (data : List UInt8) (tail : ℕ) : SpscRingBuffer :=
  { rb with
    buffer :=
      Circular.write (Circular.write rb.buffer tail (beBytes 4 data.length)) (tail + 4) data
    length_buffer := by rw [Circular.length_write, Circular.length_write, rb.length_buffer] }

/-- The end of `Push`: publish the record. -/
def pushStore (data : List UInt8) (tail : ℕ) : SpscRingBuffer :=
  { rb with
    tail := (tail + (4 + data.length)) % rb.capacity
    tail_lt := Nat.mod_lt _ (Nat.zero_lt_of_lt rb.tail_lt) }

/-- Append a record. -/
def push (data : List UInt8) : SpscRingBuffer × Bool :=
  match rb.pushLoad data with
  | none => (rb, false)
  | some tail => ((rb.pushWrite data tail).pushStore data tail, true)

/-- The start of `Pop`: load both indices. The read index unless the buffer is empty. -/
def popLoad : Option ℕ := if rb.head = rb.tail then none else some rb.head

/-- The middle of `Pop`: read the length header and the bytes. A length no record can have
means corrupt data. -/
def popRead (head : ℕ) : Option (List UInt8) :=
  let len := beValue (Circular.read rb.buffer head 4)
  if len = 0 ∨ kMaxPayloadSize < len then none
  else some (Circular.read rb.buffer (head + 4) len)

/-- The end of `Pop`: give the cells back. -/
def popStore (head : ℕ) (data : List UInt8) : SpscRingBuffer :=
  { rb with
    head := (head + 4 + data.length) % rb.capacity
    head_lt := Nat.mod_lt _ (Nat.zero_lt_of_lt rb.head_lt) }

/-- Take the oldest record. -/
def pop : SpscRingBuffer × Option (List UInt8) :=
  match rb.popLoad with
  | none => (rb, none)
  | some head =>
    match rb.popRead head with
    | none => (rb, none)
    | some data => (rb.popStore head data, some data)

/-! ### What a buffer contains -/

/-- A record as it lies in the buffer. -/
def record (data : List UInt8) : List UInt8 := beBytes 4 data.length ++ data

@[simp] theorem length_record (data : List UInt8) : (record data).length = 4 + data.length := by
  simp [record]

/-- Records as they lie one behind the other. -/
def records (unread : List (List UInt8)) : List UInt8 := unread.flatMap record

@[simp] theorem records_nil : records [] = [] := rfl

@[simp] theorem records_cons (data : List UInt8) (unread : List (List UInt8)) :
    records (data :: unread) = record data ++ records unread := rfl

@[simp] theorem records_append (unread more : List (List UInt8)) :
    records (unread ++ more) = records unread ++ records more :=
  List.flatMap_append

theorem length_records (unread : List (List UInt8)) :
    (records unread).length = (unread.map fun data => 4 + data.length).sum := by
  simp [records, List.length_flatMap]

/-- The buffer contains exactly the records `unread`, the first of them at the virtual
position `H`. -/
structure Holds (H : ℕ) (unread : List (List UInt8)) : Prop where
  head_eq : rb.head = H % rb.capacity
  tail_eq : rb.tail = (H + (records unread).length) % rb.capacity
  length_lt : (records unread).length < rb.capacity
  read_eq : Circular.read rb.buffer H (records unread).length = records unread
  ne_nil : ∀ data ∈ unread, data ≠ []

variable {rb} {H : ℕ} {unread : List (List UInt8)}

theorem holds_ofCapacity (capacity : ℕ) : (ofCapacity capacity).Holds 0 [] where
  head_eq := rfl
  tail_eq := rfl
  length_lt := Nat.succ_pos _
  read_eq := rfl
  ne_nil := by simp

/-- The distance from one index to another that is less than a lap ahead. -/
private theorem lap_distance {capacity n : ℕ} (H : ℕ) (hn : n < capacity) :
    ((H + n) % capacity + capacity - H % capacity) % capacity = n := by
  have hpos : 0 < capacity := Nat.zero_lt_of_lt hn
  have hH := Nat.mod_lt H hpos
  rw [Nat.add_mod, Nat.mod_eq_of_lt hn]
  rcases Nat.lt_or_ge (H % capacity + n) capacity with h | h
  · rw [Nat.mod_eq_of_lt h, show H % capacity + n + capacity - H % capacity = n + capacity by omega,
      Nat.add_mod_right, Nat.mod_eq_of_lt hn]
  · rw [Nat.mod_eq_sub_mod h,
      Nat.mod_eq_of_lt (show H % capacity + n - capacity < capacity by omega),
      show H % capacity + n - capacity + capacity - H % capacity = n by omega, Nat.mod_eq_of_lt hn]

/-- **Occupancy.** The readable size counts every unread record with its header. -/
theorem Holds.getReadableSize_eq (h : rb.Holds H unread) :
    rb.getReadableSize = (records unread).length := by
  rw [getReadableSize, h.head_eq, h.tail_eq, lap_distance H h.length_lt]

/-- Unread and free bytes make up the capacity asked for. -/
theorem getReadableSize_add_getWritableSize (rb : SpscRingBuffer) :
    rb.getReadableSize + rb.getWritableSize = rb.capacity - 1 := by
  have hhead := rb.head_lt
  have htail := rb.tail_lt
  rw [getReadableSize, getWritableSize]
  rcases Nat.lt_or_ge rb.tail rb.head with hlt | hge
  · rw [Nat.mod_eq_of_lt (show rb.tail + rb.capacity - rb.head < rb.capacity by omega),
      show rb.head + rb.capacity - rb.tail - 1 = rb.head - rb.tail - 1 + rb.capacity by omega,
      Nat.add_mod_right, Nat.mod_eq_of_lt (show rb.head - rb.tail - 1 < rb.capacity by omega)]
    omega
  · rw [show rb.tail + rb.capacity - rb.head = rb.tail - rb.head + rb.capacity by omega,
      Nat.add_mod_right, Nat.mod_eq_of_lt (show rb.tail - rb.head < rb.capacity by omega),
      Nat.mod_eq_of_lt (show rb.head + rb.capacity - rb.tail - 1 < rb.capacity by omega)]
    omega

/-- The writable size is what is left of the capacity asked for. -/
theorem Holds.getWritableSize_eq (h : rb.Holds H unread) :
    rb.getWritableSize = rb.capacity - 1 - (records unread).length := by
  have hsum := rb.getReadableSize_add_getWritableSize
  rw [h.getReadableSize_eq] at hsum
  omega

/-! ### The pieces of a push -/

/-- The bytes of `data` lie behind the unread records, not yet published. -/
def Staged (rb : SpscRingBuffer) (H : ℕ) (unread : List (List UInt8)) (data : List UInt8) : Prop :=
  Circular.read rb.buffer (H + (records unread).length) (record data).length = record data

/-- A push goes ahead iff the record is not empty and fits. -/
theorem Holds.pushLoad_eq_some_iff (h : rb.Holds H unread) {data : List UInt8} {tail : ℕ} :
    rb.pushLoad data = some tail ↔
      data ≠ [] ∧ (records unread).length + (record data).length < rb.capacity ∧
        tail = rb.tail := by
  have hlt := h.length_lt
  have hwritable : (rb.head + rb.capacity - rb.tail - 1) % rb.capacity
      = rb.capacity - 1 - (records unread).length := h.getWritableSize_eq
  simp only [pushLoad]
  rw [hwritable, ← List.length_pos_iff, length_record]
  split
  · constructor
    · intro h'
      cases h'
    · rintro ⟨hpos, hfit, -⟩
      omega
  · split
    · constructor
      · intro h'
        cases h'
      · rintro ⟨-, hfit, -⟩
        omega
    · rw [Option.some_inj]
      constructor
      · rintro rfl
        refine ⟨by omega, by omega, rfl⟩
      · rintro ⟨-, -, rfl⟩
        rfl

/-- The write is one write of the whole record. -/
theorem pushWrite_buffer (rb : SpscRingBuffer) (data : List UInt8) (tail : ℕ) :
    (rb.pushWrite data tail).buffer = Circular.write rb.buffer tail (record data) := by
  rw [record, Circular.write_append, length_beBytes]
  rfl

/-- Writing a record that fits leaves the unread records alone and stages it. -/
theorem Holds.pushWrite (h : rb.Holds H unread) {data : List UInt8}
    (hfit : (records unread).length + (record data).length < rb.capacity) :
    (rb.pushWrite data rb.tail).Holds H unread ∧
      Staged (rb.pushWrite data rb.tail) H unread data := by
  have hbuffer : (rb.pushWrite data rb.tail).buffer =
      Circular.write rb.buffer (H + (records unread).length) (record data) := by
    rw [pushWrite_buffer, h.tail_eq, ← rb.length_buffer, Circular.write_mod]
  refine ⟨⟨h.head_eq, h.tail_eq, h.length_lt, ?_, h.ne_nil⟩, ?_⟩
  · rw [hbuffer, Circular.read_write_of_le le_rfl, h.read_eq]
    rw [rb.length_buffer]
    exact hfit.le
  · rw [Staged, hbuffer]
    exact Circular.read_write (by rw [rb.length_buffer]; omega)

/-- Storing the write index publishes the staged record. -/
theorem Holds.pushStore (h : rb.Holds H unread) {data : List UInt8} (hdata : data ≠ [])
    (hfit : (records unread).length + (record data).length < rb.capacity)
    (hstaged : Staged rb H unread data) :
    (rb.pushStore data rb.tail).Holds H (unread ++ [data]) := by
  have hlen : (records (unread ++ [data])).length
      = (records unread).length + (record data).length := by simp
  refine ⟨h.head_eq, ?_, hlen ▸ hfit, ?_, ?_⟩
  · change (rb.tail + (4 + data.length)) % rb.capacity = _
    rw [hlen, h.tail_eq, Nat.mod_add_mod, length_record, Nat.add_assoc]
    rfl
  · change Circular.read rb.buffer H _ = _
    rw [hlen, Circular.read_add, h.read_eq, hstaged]
    simp
  · simpa [or_imp, forall_and] using ⟨h.ne_nil, hdata⟩

/-! ### The pieces of a pop -/

/-- The consumer sees an empty buffer iff no record is unread. -/
theorem Holds.popLoad_eq (h : rb.Holds H unread) :
    rb.popLoad = if unread = [] then none else some rb.head := by
  have hread := h.getReadableSize_eq
  have hhead := rb.head_lt
  have htail := rb.tail_lt
  have hiff : rb.head = rb.tail ↔ unread = [] := by
    constructor
    · intro heq
      rw [getReadableSize, heq, Nat.add_sub_cancel_left, Nat.mod_self] at hread
      cases unread with
      | nil => rfl
      | cons data rest =>
        rw [records_cons, List.length_append, length_record] at hread
        omega
    · rintro rfl
      rw [h.tail_eq, h.head_eq]
      rfl
  rw [popLoad]
  simp only [hiff]

/-- **Reading.** The length header is exact for a record of less than `2 ^ 32` bytes: the
reader gets the oldest unread record if it does not exceed the payload limit, and reports
corrupt data otherwise. -/
theorem Holds.popRead_eq {data : List UInt8} {rest : List (List UInt8)}
    (h : rb.Holds H (data :: rest)) (hsize : data.length < 2 ^ 32) :
    rb.popRead rb.head = if kMaxPayloadSize < data.length then none else some data := by
  have hpos : 0 < data.length := List.length_pos_iff.mpr (h.ne_nil data (by simp))
  have hread := h.read_eq
  have hwhole : Circular.read rb.buffer H (4 + data.length) = record data := by
    rw [← Circular.read_take rb.buffer H
      (show 4 + data.length ≤ (records (data :: rest)).length by simp), hread, records_cons]
    exact List.take_left' (length_record data)
  have hheader : Circular.read rb.buffer rb.head 4 = beBytes 4 data.length := by
    rw [h.head_eq, ← rb.length_buffer, Circular.read_mod,
      ← Circular.read_take rb.buffer H (show 4 ≤ 4 + data.length by omega), hwhole, record]
    exact List.take_left' (length_beBytes _ _)
  have hbytes : Circular.read rb.buffer (rb.head + 4) data.length = data := by
    rw [← Circular.read_mod, h.head_eq, rb.length_buffer, Nat.mod_add_mod, ← rb.length_buffer,
      Circular.read_mod]
    have hdrop := Circular.read_drop rb.buffer H (show 4 ≤ 4 + data.length by omega)
    rw [hwhole, record, List.drop_left' (length_beBytes _ _), Nat.add_sub_cancel_left] at hdrop
    exact hdrop.symm
  have hlen : beValue (Circular.read rb.buffer rb.head 4) = data.length := by
    rw [hheader, beValue_beBytes_of_lt (show data.length < 256 ^ 4 from hsize)]
  rw [popRead, hlen, hbytes]
  simp only [Nat.pos_iff_ne_zero.mp hpos, false_or]

/-- Storing the read index frees the cells of the oldest record. -/
theorem Holds.popStore {data : List UInt8} {rest : List (List UInt8)}
    (h : rb.Holds H (data :: rest)) :
    (rb.popStore rb.head data).Holds (H + (record data).length) rest := by
  have hlt := h.length_lt
  have htail := h.tail_eq
  have hread := h.read_eq
  rw [records_cons, List.length_append] at hlt htail
  refine ⟨?_, ?_, ?_, ?_, fun d hd => h.ne_nil d (List.mem_cons_of_mem _ hd)⟩
  · change (rb.head + 4 + data.length) % rb.capacity = _
    rw [h.head_eq, Nat.add_assoc, Nat.mod_add_mod, length_record]
    rfl
  · change rb.tail = _
    rw [htail, Nat.add_assoc]
    rfl
  · exact lt_of_le_of_lt (Nat.le_add_left _ _) hlt
  · change Circular.read rb.buffer _ _ = _
    have hdrop := Circular.read_drop rb.buffer H
      (show (record data).length ≤ (records (data :: rest)).length by simp)
    rw [hread, records_cons, List.drop_left, List.length_append, Nat.add_sub_cancel_left] at hdrop
    exact hdrop.symm

/-! ### Whole operations -/

@[simp] theorem push_capacity (rb : SpscRingBuffer) (data : List UInt8) :
    (rb.push data).1.capacity = rb.capacity := by
  rw [push]
  split <;> rfl

@[simp] theorem pop_capacity (rb : SpscRingBuffer) : rb.pop.1.capacity = rb.capacity := by
  rw [pop]
  split
  · rfl
  · split <;> rfl

/-- **Push.** A record that is not empty and fits is appended; any other push changes
nothing. -/
theorem Holds.push (h : rb.Holds H unread) (data : List UInt8) :
    if data ≠ [] ∧ (records unread).length + (record data).length < rb.capacity then
      (rb.push data).2 = true ∧ (rb.push data).1.Holds H (unread ++ [data])
    else rb.push data = (rb, false) := by
  split
  · rename_i hok
    have hload : rb.pushLoad data = some rb.tail :=
      h.pushLoad_eq_some_iff.mpr ⟨hok.1, hok.2, rfl⟩
    obtain ⟨hholds, hstaged⟩ := h.pushWrite hok.2
    rw [SpscRingBuffer.push, hload]
    exact ⟨rfl, hholds.pushStore hok.1 hok.2 hstaged⟩
  · rename_i hno
    have hload : rb.pushLoad data = none := by
      rw [Option.eq_none_iff_forall_ne_some]
      intro tail htail
      have := h.pushLoad_eq_some_iff.mp htail
      exact hno ⟨this.1, this.2.1⟩
    rw [SpscRingBuffer.push, hload]

/-- **Pop of an empty buffer.** -/
theorem Holds.pop_nil (h : rb.Holds H []) : rb.pop = (rb, none) := by
  rw [pop, h.popLoad_eq, if_pos rfl]

/-- **Pop.** The oldest record leaves, unless it exceeds the payload limit, in which case
nothing happens. -/
theorem Holds.pop_cons {data : List UInt8} {rest : List (List UInt8)}
    (h : rb.Holds H (data :: rest)) (hsize : data.length < 2 ^ 32) :
    if kMaxPayloadSize < data.length then rb.pop = (rb, none)
    else rb.pop.2 = some data ∧ rb.pop.1.Holds (H + (record data).length) rest := by
  have hload : rb.popLoad = some rb.head := by
    rw [h.popLoad_eq, if_neg (List.cons_ne_nil _ _)]
  have hread := h.popRead_eq hsize
  split
  · rename_i hbig
    rw [if_pos hbig] at hread
    simp only [pop, hload, hread]
  · rename_i hfits
    rw [if_neg hfits] at hread
    simp only [pop, hload, hread]
    exact ⟨trivial, h.popStore⟩

end SpscRingBuffer

end ProtoMsgQueue
