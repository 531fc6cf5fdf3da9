import ProtoMsgQueue.Lib.Lineage
import ProtoMsgQueue.Storage.Ledger

/-!
# The line of a retried message

A message is handed out again because an earlier delivery of it timed out. The records of
one message move between the pending entries of different consumers and the shared retry
queue, and overwrite each other there. `Traced` names for every delivery with a positive
retry count the delivery whose time-out led to it, and for every pending entry, retry record
and dead letter the delivery it stems from; no delivery is named twice. This is kept by
every operation, whatever the size of the ring buffer.
-/

namespace ProtoMsgQueue

open UnorderedMap

/-! ### Deliveries in a history -/

/-- A delivery: to whom, the record, and the steady clock at that moment. -/
structure Delivery where
  /-- The consumer. -/
  consumer : Consumer
  /-- The message as returned. -/
  msg : StoredMessage
  /-- The steady clock, in nanoseconds. -/
  time : ℤ

/-- The delivery of the message `m` by an operation. A pull returns a message once at most. -/
def deliveryOf (m : MessageId) (e : TopicEvent) : Option Delivery :=
  match e.input, e.output with
  | .pull c _ _ steadyNow, .pulled msgs =>
    (msgs.zipIdx.find? fun r => r.1.id = m).map fun r => ⟨c, r.1, steadyNow r.2⟩
  | _, _ => none

/-- The delivery of the message `m` by the `i`-th operation. -/
def deliveryAt (m : MessageId) (h : List TopicEvent) (i : ℕ) : Option Delivery :=
  h[i]?.bind (deliveryOf m)

/-- What an operation put into the dead-letter queue. -/
def deadLetters (e : TopicEvent) : List StoredMessage :=
  match e.output with
  | .retried dlq => dlq
  | _ => []

/-- The `n`-th dead letter of the `j`-th operation is a record of the message `m`. -/
def DeadLetterAt (m : MessageId) (h : List TopicEvent) (j n : ℕ) (r : StoredMessage) : Prop :=
  ∃ e, h[j]? = some e ∧ (deadLetters e)[n]? = some r ∧ r.id = m

/-- Between two operations the consumer neither acknowledged the message nor was handed it. -/
def Unsettled (m : MessageId) (h : List TopicEvent) (c : Consumer) (i p : ℕ) : Prop :=
  ∀ a e, i < a → a < p → h[a]? = some e → acked c m e = false ∧ delivered c m e = false

/-- The `p`-th operation is a retry pass that found the delivery `d`, made by the `i`-th
operation, pending and timed out. -/
structure TimedOutAt (cfg : StoreConfig) (m : MessageId) (h : List TopicEvent) (i : ℕ) (d : Delivery)
    (p : ℕ) : Prop where
  delivery : deliveryAt m h i = some d
  lt : i < p
  unsettled : Unsettled m h d.consumer i p
  pass : ∃ e clock order, h[p]? = some e ∧ e.input = .retryPass clock order ∧
    (e.pre.pendingOf d.consumer.key).lookup m = some ⟨d.msg, d.time⟩ ∧
    TopicData.timedOut cfg clock.steadyNow ⟨d.msg, d.time⟩ = true

/-- The consumer acknowledged the delivery: an acknowledgement returned true, and the
message was not handed to the consumer again before. -/
def AckedAt (m : MessageId) (h : List TopicEvent) (i : ℕ) (d : Delivery) : Prop :=
  ∃ a e, i < a ∧ h[a]? = some e ∧ acked d.consumer m e = true ∧
    ∀ b e', i < b → b < a → h[b]? = some e' → delivered d.consumer m e' = false

/-- An element of a list that grew by one: an old one, or the new one. -/
theorem getElem?_concat {α : Type*} {l : List α} {a b : α} {i : ℕ} :
    (l ++ [a])[i]? = some b ↔ l[i]? = some b ∨ i = l.length ∧ a = b := by
  rcases lt_trichotomy i l.length with hlt | rfl | hgt
  · rw [List.getElem?_append_left hlt]
    simp [hlt.ne]
  · simp
  · rw [List.getElem?_eq_none (by simp; omega), List.getElem?_eq_none hgt.le]
    simp [hgt.ne']

section Deliveries

variable {m : MessageId} {h : List TopicEvent} {e : TopicEvent} {i : ℕ} {d : Delivery}

theorem deliveryAt_concat : deliveryAt m (h ++ [e]) i = some d ↔
    deliveryAt m h i = some d ∨ i = h.length ∧ deliveryOf m e = some d := by
  simp only [deliveryAt, Option.bind_eq_some_iff, getElem?_concat]
  constructor
  · rintro ⟨e', he' | ⟨hi, rfl⟩, hd⟩
    · exact .inl ⟨e', he', hd⟩
    · exact .inr ⟨hi, hd⟩
  · rintro (⟨e', he', hd⟩ | ⟨hi, hd⟩)
    · exact ⟨e', .inl he', hd⟩
    · exact ⟨e, .inr ⟨hi, rfl⟩, hd⟩

theorem lt_length_of_deliveryAt (hd : deliveryAt m h i = some d) : i < h.length := by
  obtain ⟨e, he, -⟩ := Option.bind_eq_some_iff.mp hd
  exact (List.getElem?_eq_some_iff.mp he).1

theorem deadLetterAt_concat {j n : ℕ} {r : StoredMessage} : DeadLetterAt m (h ++ [e]) j n r ↔
    DeadLetterAt m h j n r ∨ j = h.length ∧ (deadLetters e)[n]? = some r ∧ r.id = m := by
  simp only [DeadLetterAt, getElem?_concat]
  constructor
  · rintro ⟨e', he' | ⟨hj, rfl⟩, hr⟩
    · exact .inl ⟨e', he', hr⟩
    · exact .inr ⟨hj, hr⟩
  · rintro (⟨e', he', hr⟩ | ⟨hj, hr⟩)
    · exact ⟨e', .inl he', hr⟩
    · exact ⟨e, .inr ⟨hj, rfl⟩, hr⟩

/-- An operation that delivers nothing of a message adds no delivery. -/
theorem deliveryAt_of_concat (hdel : deliveryOf m e = none)
    (hd : deliveryAt m (h ++ [e]) i = some d) : deliveryAt m h i = some d := by
  refine (deliveryAt_concat.mp hd).resolve_right ?_
  rintro ⟨-, hnew⟩
  rw [hdel] at hnew
  cases hnew

/-- An operation that delivers the message adds its delivery. -/
theorem deliveryAt_concat_of_some {d' : Delivery} (hdel : deliveryOf m e = some d)
    (hd' : deliveryAt m (h ++ [e]) i = some d') :
    (i ≠ h.length ∧ deliveryAt m h i = some d') ∨ i = h.length ∧ d' = d := by
  rcases deliveryAt_concat.mp hd' with hd' | ⟨hi, hd'⟩
  · exact .inl ⟨(lt_length_of_deliveryAt hd').ne, hd'⟩
  · rw [hdel, Option.some_inj] at hd'
    exact .inr ⟨hi, hd'.symm⟩

/-- An operation without dead letters adds none. -/
theorem deadLetterAt_of_concat {j n : ℕ} {r : StoredMessage} (hdlq : deadLetters e = [])
    (hr : DeadLetterAt m (h ++ [e]) j n r) : DeadLetterAt m h j n r := by
  refine (deadLetterAt_concat.mp hr).resolve_right ?_
  rintro ⟨-, hnew, -⟩
  rw [hdlq] at hnew
  cases hnew

/-- What is timed out stays so. -/
theorem TimedOutAt.concat {cfg : StoreConfig} {p : ℕ} (ht : TimedOutAt cfg m h i d p)
    (e : TopicEvent) : TimedOutAt cfg m (h ++ [e]) i d p := by
  obtain ⟨e', clock, order, he', hpass⟩ := ht.pass
  refine ⟨deliveryAt_concat.mpr (.inl ht.delivery), ht.lt, ?_, e', clock, order,
    getElem?_concat.mpr (.inl he'), hpass⟩
  intro a e'' hia hap ha
  have hlt : p < h.length := (List.getElem?_eq_some_iff.mp he').1
  rcases getElem?_concat.mp ha with ha | ⟨rfl, -⟩
  · exact ht.unsettled a e'' hia hap ha
  · omega

theorem TimedOutAt.lt_length {cfg : StoreConfig} {p : ℕ} (ht : TimedOutAt cfg m h i d p) :
    p < h.length := by
  obtain ⟨e, clock, order, he, -⟩ := ht.pass
  exact (List.getElem?_eq_some_iff.mp he).1

/-- What an earlier operation timed out had timed out before. -/
theorem TimedOutAt.of_concat {cfg : StoreConfig} {p : ℕ} (ht : TimedOutAt cfg m (h ++ [e]) i d p)
    (hp : p < h.length) : TimedOutAt cfg m h i d p := by
  obtain ⟨e', clock, order, he', hpass⟩ := ht.pass
  refine ⟨?_, ht.lt, ?_, e', clock, order, ?_, hpass⟩
  · refine (deliveryAt_concat.mp ht.delivery).resolve_right ?_
    rintro ⟨rfl, -⟩
    exact absurd (ht.lt.trans hp) (lt_irrefl _)
  · exact fun a e'' hia hap ha => ht.unsettled a e'' hia hap (getElem?_concat.mpr (.inl ha))
  · exact (getElem?_concat.mp he').resolve_right fun hlast => absurd hlast.1 hp.ne

/-- A delivery stays unsettled if the operation settles nothing. -/
theorem Unsettled.concat {c : Consumer} (hu : Unsettled m h c i h.length)
    (hack : acked c m e = false) (hdel : delivered c m e = false) :
    Unsettled m (h ++ [e]) c i (h ++ [e]).length := by
  intro a e' hia hap ha
  rcases getElem?_concat.mp ha with ha | ⟨-, rfl⟩
  · exact hu a e' hia (List.getElem?_eq_some_iff.mp ha).1 ha
  · exact ⟨hack, hdel⟩

/-- A message is delivered to the consumer of its delivery. -/
theorem delivered_of_deliveryOf (hd : deliveryOf m e = some d) :
    delivered d.consumer m e = true ∧ d.msg.id = m := by
  rw [deliveryOf] at hd
  split at hd
  · rename_i c maxMessages nowMs steadyNow msgs hin hout
    obtain ⟨r, hr, rfl⟩ := Option.map_eq_some_iff.mp hd
    have hid : r.1.id = m := by simpa using List.find?_some hr
    have hmem : r.1 ∈ msgs := List.fst_mem_of_mem_zipIdx (List.mem_of_find?_eq_some hr)
    refine ⟨?_, hid⟩
    simp only [delivered, deliveredBy, hin, hout, if_true]
    exact List.any_eq_true.mpr ⟨r.1, hmem, decide_eq_true hid⟩
  · cases hd

/-- And to nobody else. -/
theorem delivered_eq_false {c : Consumer} (hd : ∀ d, deliveryOf m e = some d → d.consumer ≠ c) :
    delivered c m e = false := by
  rw [Bool.eq_false_iff]
  intro hdel
  rw [delivered, List.any_eq_true] at hdel
  obtain ⟨r, hr, hid⟩ := hdel
  rw [deliveredBy] at hr
  split at hr
  · rename_i c' maxMessages nowMs steadyNow msgs hin hout
    split at hr
    · rename_i hc
      obtain ⟨n, hn⟩ := List.getElem?_of_mem hr
      have hsome : (msgs.zipIdx.find? fun r => r.1.id = m).isSome := by
        rw [List.find?_isSome]
        exact ⟨(r, n), List.mem_zipIdx_iff_getElem?.mpr hn, hid⟩
      obtain ⟨r', hr'⟩ := Option.isSome_iff_exists.mp hsome
      refine hd ⟨c', r'.1, steadyNow r'.2⟩ ?_ hc
      simp only [deliveryOf, hin, hout, hr', Option.map_some]
    · cases hr
  · cases hr

/-- Nothing is delivered to anyone if nothing is delivered. -/
theorem delivered_of_deliveryOf_eq_none (hd : deliveryOf m e = none) (c : Consumer) :
    delivered c m e = false :=
  delivered_eq_false fun d hd' => by
    rw [hd] at hd'
    cases hd'

end Deliveries

namespace TopicData

/-- What a pull delivers of the message `m`, and what it leaves pending of it. -/
theorem deliveryOf_pull (td : TopicData) (cfg : StoreConfig) (m : MessageId) (c : Consumer)
    (maxMessages : UInt32) (nowMs : UInt64) (steadyNow : ℕ → ℤ) :
    match deliveryOf m ((topic cfg).event td (.pull c maxMessages nowMs steadyNow)) with
    | none => ((td.pull c maxMessages nowMs steadyNow).1.pendingOf c.key).lookup m =
        (td.pendingOf c.key).lookup m
    | some d => d.consumer = c ∧ d.msg ∈ (td.pull c maxMessages nowMs steadyNow).2 ∧
        ((td.pull c maxMessages nowMs steadyNow).1.pendingOf c.key).lookup m =
          some ⟨d.msg, d.time⟩ := by
  obtain ⟨-, hentry, hother⟩ := td.pull_ledger c maxMessages nowMs steadyNow
  have hdef : deliveryOf m ((topic cfg).event td (.pull c maxMessages nowMs steadyNow)) =
      (((td.pull c maxMessages nowMs steadyNow).2.zipIdx.find? fun r => r.1.id = m).map
        fun r => ⟨c, r.1, steadyNow r.2⟩) := rfl
  rw [hdef]
  cases hfind : (td.pull c maxMessages nowMs steadyNow).2.zipIdx.find? fun r => r.1.id = m with
  | none =>
    refine hother m fun r hr hid => ?_
    obtain ⟨n, hn⟩ := List.getElem?_of_mem hr
    have hnone := List.find?_eq_none.mp hfind (r, n) (List.mem_zipIdx_iff_getElem?.mpr hn)
    exact hnone (decide_eq_true hid)
  | some r =>
    have hid : r.1.id = m := by simpa using List.find?_some hfind
    have hn := List.mem_zipIdx_iff_getElem?.mp (List.mem_of_find?_eq_some hfind)
    obtain ⟨-, hlookup⟩ := hentry r.2 r.1 hn
    rw [hid] at hlookup
    exact ⟨rfl, List.mem_of_getElem? hn, hlookup⟩

/-! ### The invariant -/

/-- Where a record of a message can be. -/
inductive Slot where
  /-- Among the pending entries of a consumer. -/
  | pending (key : String)
  /-- In the retry queue. -/
  | queued
  /-- The `n`-th dead letter of the `j`-th operation. -/
  | dead (j n : ℕ)
deriving DecidableEq

/-- There is a record of the message `m` in the slot. -/
def Slot.Occupied (m : MessageId) (h : List TopicEvent) (td : TopicData) : Slot → Prop
  | .pending key => m ∈ td.pendingOf key
  | .queued => ∃ r ∈ td.retryQueue, r.id = m
  | .dead j n => ∃ r, DeadLetterAt m h j n r

/-- An operation that leaves no dead letter, hands the message to one consumer at most and puts
nothing into the retry queue fills at most the slot of that consumer. -/
theorem Slot.Occupied.of_concat {m : MessageId} {h : List TopicEvent} {td td' : TopicData}
    {e : TopicEvent} {key : String} {s : Slot} (hs : s.Occupied m (h ++ [e]) td')
    (hdlq : deadLetters e = []) (hother : ∀ key', key' ≠ key → td'.pendingOf key' = td.pendingOf key')
    (hqueue : ∀ r ∈ td'.retryQueue, r ∈ td.retryQueue) (hne : s ≠ .pending key) :
    s.Occupied m h td := by
  cases s with
  | pending key' =>
    have hkey : key' ≠ key := fun heq => hne (by rw [heq])
    change m ∈ td'.pendingOf key' at hs
    rw [hother key' hkey] at hs
    exact hs
  | queued =>
    obtain ⟨r, hr, hrid⟩ := hs
    exact ⟨r, hqueue r hr, hrid⟩
  | dead j n =>
    obtain ⟨r, hr⟩ := hs
    exact ⟨r, deadLetterAt_of_concat hdlq hr⟩

/-- The lines of the message `m`: `pred` names the delivery before a delivery with positive
retry count, `last` the delivery a record stems from. -/
structure Traced (cfg : StoreConfig) (m : MessageId) (h : List TopicEvent) (td : TopicData)
    (pred : ℕ → ℕ) (last : Slot → ℕ) : Prop where
  log_zero : ∀ r ∈ td.messageLog, r.retryCount = 0
  count_le : ∀ i d, deliveryAt m h i = some d → d.msg.retryCount ≤ cfg.maxRetryCount.toNat
  retried : ∀ i d, deliveryAt m h i = some d → 0 < d.msg.retryCount → ∃ d' p, p < i ∧
    TimedOutAt cfg m h (pred i) d' p ∧ d'.msg.retryCount + 1 = d.msg.retryCount
  pred_inj : ∀ i j d d', deliveryAt m h i = some d → deliveryAt m h j = some d' →
    0 < d.msg.retryCount → 0 < d'.msg.retryCount → pred i = pred j → i = j
  pending : ∀ key p, (td.pendingOf key).lookup m = some p → ∃ c : Consumer, c.key = key ∧
    deliveryAt m h (last (.pending key)) = some ⟨c, p.msg, p.pullTime⟩ ∧
    Unsettled m h c (last (.pending key)) h.length
  queued : ∀ r ∈ td.retryQueue, r.id = m → r.retryCount ≤ cfg.maxRetryCount.toNat ∧ ∃ d p,
    TimedOutAt cfg m h (last .queued) d p ∧ d.msg.retryCount + 1 = r.retryCount
  dead : ∀ j n r, DeadLetterAt m h j n r → ∃ d, TimedOutAt cfg m h (last (.dead j n)) d j ∧
    d.msg = r ∧ r.retryCount = cfg.maxRetryCount.toNat
  last_inj : ∀ s s', s.Occupied m h td → s'.Occupied m h td → last s = last s' → s = s'
  last_pred : ∀ s, s.Occupied m h td → ∀ i d, deliveryAt m h i = some d →
    0 < d.msg.retryCount → pred i ≠ last s

namespace Traced

variable {cfg : StoreConfig} {m : MessageId} {h : List TopicEvent} {td : TopicData}
  {pred : ℕ → ℕ} {last : Slot → ℕ}

theorem init (cfg : StoreConfig) (m : MessageId) (topicName : TopicName) (bufferSize : ℕ) :
    Traced cfg m [] (ofName topicName bufferSize) (fun _ => 0) fun _ => 0 where
  log_zero _ hr := by cases hr
  count_le _ _ hd := by cases hd
  retried _ _ hd := by cases hd
  pred_inj _ _ _ _ hd := by cases hd
  pending _ _ hp := by cases hp
  queued _ hr := by cases hr
  dead _ _ _ hdead := by
    obtain ⟨e, he, -⟩ := hdead
    cases he
  last_inj s _ hs := by
    cases s with
    | pending key => exact absurd hs (AList.notMem_empty m)
    | queued => obtain ⟨r, hr, -⟩ := hs; cases hr
    | dead j n => obtain ⟨r, e, he, -⟩ := hs; cases he
  last_pred _ _ _ _ hd := by cases hd

/-- An operation that delivers nothing of the message and moves its records between the slots:
`src` says where the record of a slot was before, which is another slot for another record. -/
theorem move (ht : Traced cfg m h td pred last) {e : TopicEvent} {td' : TopicData}
    (src : Slot → Slot) (hlog : ∀ r ∈ td'.messageLog, r.retryCount = 0)
    (hdel : deliveryOf m e = none)
    (hocc : ∀ s : Slot, s.Occupied m (h ++ [e]) td' → (src s).Occupied m h td)
    (hinj : ∀ s s' : Slot, s.Occupied m (h ++ [e]) td' → s'.Occupied m (h ++ [e]) td' →
      src s = src s' → s = s')
    (hpending : ∀ key p, (td'.pendingOf key).lookup m = some p →
      src (.pending key) = .pending key ∧ (td.pendingOf key).lookup m = some p ∧
        ∀ c : Consumer, c.key = key → acked c m e = false)
    (hqueued : ∀ r ∈ td'.retryQueue, r.id = m → r.retryCount ≤ cfg.maxRetryCount.toNat ∧ ∃ d p,
      TimedOutAt cfg m (h ++ [e]) (last (src .queued)) d p ∧ d.msg.retryCount + 1 = r.retryCount)
    (hdead : ∀ j n r, DeadLetterAt m (h ++ [e]) j n r → ∃ d,
      TimedOutAt cfg m (h ++ [e]) (last (src (.dead j n))) d j ∧ d.msg = r ∧
        r.retryCount = cfg.maxRetryCount.toNat) :
    Traced cfg m (h ++ [e]) td' pred fun s => last (src s) where
  log_zero := hlog
  count_le i d hd := ht.count_le i d (deliveryAt_of_concat hdel hd)
  retried i d hd hpos := by
    obtain ⟨d', p, hp, htimed, hcount⟩ := ht.retried i d (deliveryAt_of_concat hdel hd) hpos
    exact ⟨d', p, hp, htimed.concat e, hcount⟩
  pred_inj i j d d' hd hd' :=
    ht.pred_inj i j d d' (deliveryAt_of_concat hdel hd) (deliveryAt_of_concat hdel hd')
  pending key p hp := by
    obtain ⟨hsame, hold, hack⟩ := hpending key p hp
    obtain ⟨c, hc, hd, hunsettled⟩ := ht.pending key p hold
    rw [hsame]
    exact ⟨c, hc, deliveryAt_concat.mpr (.inl hd),
      hunsettled.concat (hack c hc) (delivered_of_deliveryOf_eq_none hdel c)⟩
  queued := hqueued
  dead := hdead
  last_inj s s' hs hs' heq := hinj s s' hs hs' (ht.last_inj _ _ (hocc s hs) (hocc s' hs') heq)
  last_pred s hs i d hd := ht.last_pred (src s) (hocc s hs) i d (deliveryAt_of_concat hdel hd)

/-- An operation that delivers nothing of the message, puts nothing of it into the
dead-letter queue and only removes records of it. -/
theorem concat (ht : Traced cfg m h td pred last) {e : TopicEvent} {td' : TopicData}
    (hlog : ∀ r ∈ td'.messageLog, r.retryCount = 0) (hdel : deliveryOf m e = none)
    (hdlq : deadLetters e = [])
    (hpending : ∀ key p, (td'.pendingOf key).lookup m = some p →
      (td.pendingOf key).lookup m = some p ∧ ∀ c : Consumer, c.key = key → acked c m e = false)
    (hqueue : ∀ r ∈ td'.retryQueue, r.id = m → r ∈ td.retryQueue) :
    Traced cfg m (h ++ [e]) td' pred last := by
  refine ht.move id hlog hdel (fun s hs => ?_) (fun _ _ _ _ heq => heq)
    (fun key p hp => ⟨rfl, hpending key p hp⟩) (fun r hr hid => ?_) fun j n r hr => ?_
  · cases s with
    | pending key =>
      obtain ⟨p, hp⟩ := mem_iff_exists_lookup.mp hs
      exact mem_iff_exists_lookup.mpr ⟨p, (hpending key p hp).1⟩
    | queued =>
      obtain ⟨r, hr, hid⟩ := hs
      exact ⟨r, hqueue r hr hid, hid⟩
    | dead j n =>
      obtain ⟨r, hr⟩ := hs
      exact ⟨r, deadLetterAt_of_concat hdlq hr⟩
  · obtain ⟨hle, d, p, htimed, hcount⟩ := ht.queued r (hqueue r hr hid) hid
    exact ⟨hle, d, p, htimed.concat e, hcount⟩
  · obtain ⟨d, htimed, hmsg⟩ := ht.dead j n r (deadLetterAt_of_concat hdlq hr)
    exact ⟨d, htimed.concat e, hmsg⟩

/-- The delivery a record stems from lies in the history. -/
theorem last_lt (ht : Traced cfg m h td pred last) {s : Slot} (hs : s.Occupied m h td) :
    last s < h.length := by
  cases s with
  | pending key =>
    obtain ⟨p, hp⟩ := mem_iff_exists_lookup.mp hs
    obtain ⟨c, -, hd, -⟩ := ht.pending key p hp
    exact lt_length_of_deliveryAt hd
  | queued =>
    obtain ⟨r, hr, hid⟩ := hs
    obtain ⟨-, d, p, htimed, -⟩ := ht.queued r hr hid
    exact lt_length_of_deliveryAt htimed.delivery
  | dead j n =>
    obtain ⟨r, hr⟩ := hs
    obtain ⟨d, htimed, -⟩ := ht.dead j n r hr
    exact lt_length_of_deliveryAt htimed.delivery

/-- So does the delivery before another. -/
theorem pred_lt (ht : Traced cfg m h td pred last) {i : ℕ} {d : Delivery}
    (hd : deliveryAt m h i = some d) (hpos : 0 < d.msg.retryCount) : pred i < h.length := by
  obtain ⟨d', p, -, htimed, -⟩ := ht.retried i d hd hpos
  exact lt_length_of_deliveryAt htimed.delivery

end Traced

/-- An operation hands out the message `m`: from the log, or the record in the retry queue, which
leaves it. -/
structure Hands (m : MessageId) (td : TopicData) (e : TopicEvent) (td' : TopicData)
    (d : Delivery) : Prop where
  delivery : deliveryOf m e = some d
  deadLetters : deadLetters e = []
  acked : ∀ c, acked c m e = false
  own : (td'.pendingOf d.consumer.key).lookup m = some ⟨d.msg, d.time⟩
  other : ∀ key, key ≠ d.consumer.key → td'.pendingOf key = td.pendingOf key
  queue : ∀ r ∈ td'.retryQueue, r ∈ td.retryQueue
  source : d.msg.retryCount = 0 ∨ d.msg ∈ td.retryQueue ∧ ∀ r ∈ td'.retryQueue, r.id ≠ m

namespace Hands

variable {m : MessageId} {h : List TopicEvent} {td td' : TopicData} {e : TopicEvent} {d : Delivery}

theorem id_eq (hd : Hands m td e td' d) : d.msg.id = m := (delivered_of_deliveryOf hd.delivery).2

/-- With a positive count it is the record in the retry queue. -/
theorem mem_retryQueue (hd : Hands m td e td' d) (hpos : 0 < d.msg.retryCount) :
    d.msg ∈ td.retryQueue := (hd.source.resolve_left hpos.ne').1

theorem occupied_queued (hd : Hands m td e td' d) (hpos : 0 < d.msg.retryCount) :
    Slot.queued.Occupied m h td := ⟨d.msg, hd.mem_retryQueue hpos, hd.id_eq⟩

/-- Then none is left there. -/
theorem ne_queued (hd : Hands m td e td' d) (hpos : 0 < d.msg.retryCount) {s : Slot}
    (hs : s.Occupied m (h ++ [e]) td') : s ≠ .queued := by
  rintro rfl
  obtain ⟨r, hr, hid⟩ := hs
  exact (hd.source.resolve_left hpos.ne').2 r hr hid

/-- The other records were there before. -/
theorem occupied (hd : Hands m td e td' d) {s : Slot} (hs : s.Occupied m (h ++ [e]) td')
    (hne : s ≠ .pending d.consumer.key) : s.Occupied m h td :=
  hs.of_concat hd.deadLetters hd.other hd.queue hne

theorem deliveryAt (hd : Hands m td e td' d) {i : ℕ} {d' : Delivery}
    (hd' : deliveryAt m (h ++ [e]) i = some d') :
    (i ≠ h.length ∧ ProtoMsgQueue.deliveryAt m h i = some d') ∨ i = h.length ∧ d' = d :=
  deliveryAt_concat_of_some hd.delivery hd'

end Hands

namespace Traced

variable {cfg : StoreConfig} {m : MessageId} {h : List TopicEvent} {td td' : TopicData}
  {pred : ℕ → ℕ} {last : Slot → ℕ} {e : TopicEvent} {d : Delivery}

/-- The count stays within the limit. -/
theorem count_le_deliver (ht : Traced cfg m h td pred last) (hd : Hands m td e td' d) {i : ℕ}
    {d' : Delivery} (hd' : deliveryAt m (h ++ [e]) i = some d') :
    d'.msg.retryCount ≤ cfg.maxRetryCount.toNat := by
  rcases hd.deliveryAt hd' with ⟨-, hd'⟩ | ⟨-, rfl⟩
  · exact ht.count_le i d' hd'
  · rcases hd.source with hzero | ⟨hmem, -⟩
    · exact hzero ▸ Nat.zero_le _
    · exact (ht.queued d'.msg hmem hd.id_eq).1

/-- A delivery with a positive count continues the line of the queued record. -/
theorem retried_deliver (ht : Traced cfg m h td pred last) (hd : Hands m td e td' d) {i : ℕ}
    {d' : Delivery} (hd' : deliveryAt m (h ++ [e]) i = some d') (hpos : 0 < d'.msg.retryCount) :
    ∃ d'' p, p < i ∧
      TimedOutAt cfg m (h ++ [e]) (Function.update pred h.length (last .queued) i) d'' p ∧
      d''.msg.retryCount + 1 = d'.msg.retryCount := by
  rcases hd.deliveryAt hd' with ⟨hne, hd'⟩ | ⟨rfl, rfl⟩
  · obtain ⟨d'', p, hp, htimed, hcount⟩ := ht.retried i d' hd' hpos
    rw [Function.update_of_ne hne]
    exact ⟨d'', p, hp, htimed.concat e, hcount⟩
  · obtain ⟨-, d'', p, htimed, hcount⟩ := ht.queued d'.msg (hd.mem_retryQueue hpos) hd.id_eq
    rw [Function.update_self]
    exact ⟨d'', p, htimed.lt_length, htimed.concat e, hcount⟩

/-- No earlier delivery was continued by two. -/
theorem pred_inj_deliver (ht : Traced cfg m h td pred last) (hd : Hands m td e td' d) {i j : ℕ}
    {d' d'' : Delivery} (hd' : deliveryAt m (h ++ [e]) i = some d')
    (hd'' : deliveryAt m (h ++ [e]) j = some d'') (hpos : 0 < d'.msg.retryCount)
    (hpos' : 0 < d''.msg.retryCount) (heq : Function.update pred h.length (last .queued) i =
      Function.update pred h.length (last .queued) j) : i = j := by
  rcases hd.deliveryAt hd' with ⟨hne, hd'⟩ | ⟨rfl, rfl⟩ <;>
    rcases hd.deliveryAt hd'' with ⟨hne', hd''⟩ | ⟨rfl, rfl⟩
  · rw [Function.update_of_ne hne, Function.update_of_ne hne'] at heq
    exact ht.pred_inj i j d' d'' hd' hd'' hpos hpos' heq
  · rw [Function.update_of_ne hne, Function.update_self] at heq
    exact absurd heq (ht.last_pred .queued (hd.occupied_queued hpos') i d' hd' hpos)
  · rw [Function.update_self, Function.update_of_ne hne'] at heq
    exact absurd heq.symm (ht.last_pred .queued (hd.occupied_queued hpos) j d'' hd'' hpos')
  · rfl

/-- The consumer's entry stems from the delivery, those of the others from where they did. -/
theorem pending_deliver (ht : Traced cfg m h td pred last) (hd : Hands m td e td' d) {key : String}
    {p : PendingMessage} (hp : (td'.pendingOf key).lookup m = some p) :
    let last' := Function.update last (.pending d.consumer.key) h.length
    ∃ c : Consumer, c.key = key ∧
      deliveryAt m (h ++ [e]) (last' (.pending key)) = some ⟨c, p.msg, p.pullTime⟩ ∧
      Unsettled m (h ++ [e]) c (last' (.pending key)) (h ++ [e]).length := by
  intro last'
  rcases eq_or_ne key d.consumer.key with rfl | hkey
  · have hlast : last' (.pending d.consumer.key) = h.length := Function.update_self _ _ _
    rw [hd.own, Option.some_inj] at hp
    refine ⟨d.consumer, rfl, ?_, ?_⟩
    · rw [hlast, ← hp]
      exact deliveryAt_concat.mpr (.inr ⟨rfl, hd.delivery⟩)
    · -- nothing can have happened since
      rw [hlast]
      intro a e' hlt hle
      rw [List.length_append, List.length_singleton] at hle
      omega
  · rw [hd.other key hkey] at hp
    obtain ⟨c, hc, hd', hunsettled⟩ := ht.pending key p hp
    have hlast : last' (.pending key) = last (.pending key) :=
      Function.update_of_ne (fun heq => hkey (Slot.pending.inj heq)) _ _
    rw [hlast]
    refine ⟨c, hc, deliveryAt_concat.mpr (.inl hd'), hunsettled.concat (hd.acked c) ?_⟩
    refine delivered_eq_false fun d' hd' heq => ?_
    rw [hd.delivery, Option.some_inj] at hd'
    exact hkey (by rw [← hc, ← heq, hd'])

/-- Records in different slots stem from different deliveries. -/
theorem last_inj_deliver (ht : Traced cfg m h td pred last) (hd : Hands m td e td' d)
    {s s' : Slot} (hs : s.Occupied m (h ++ [e]) td') (hs' : s'.Occupied m (h ++ [e]) td')
    (heq : Function.update last (.pending d.consumer.key) h.length s =
      Function.update last (.pending d.consumer.key) h.length s') : s = s' := by
  by_cases hown : s = .pending d.consumer.key <;> by_cases hown' : s' = .pending d.consumer.key
  · rw [hown, hown']
  · rw [hown, Function.update_self, Function.update_of_ne hown'] at heq
    exact absurd heq (ht.last_lt (hd.occupied hs' hown')).ne'
  · rw [hown', Function.update_self, Function.update_of_ne hown] at heq
    exact absurd heq (ht.last_lt (hd.occupied hs hown)).ne
  · rw [Function.update_of_ne hown, Function.update_of_ne hown'] at heq
    exact ht.last_inj s s' (hd.occupied hs hown) (hd.occupied hs' hown') heq

/-- No record stems from a delivery that another one continued. -/
theorem last_pred_deliver (ht : Traced cfg m h td pred last) (hd : Hands m td e td' d) {s : Slot}
    (hs : s.Occupied m (h ++ [e]) td') {i : ℕ} {d' : Delivery}
    (hd' : deliveryAt m (h ++ [e]) i = some d') (hpos : 0 < d'.msg.retryCount) :
    Function.update pred h.length (last .queued) i ≠
      Function.update last (.pending d.consumer.key) h.length s := by
  intro heq
  rcases hd.deliveryAt hd' with ⟨hne, hd'⟩ | ⟨rfl, rfl⟩
  · rw [Function.update_of_ne hne] at heq
    by_cases hown : s = .pending d.consumer.key
    · rw [hown, Function.update_self] at heq
      exact absurd heq (ht.pred_lt hd' hpos).ne
    · rw [Function.update_of_ne hown] at heq
      exact ht.last_pred s (hd.occupied hs hown) i d' hd' hpos heq
  · rw [Function.update_self] at heq
    have hqueued : Slot.queued.Occupied m h td := hd.occupied_queued hpos
    by_cases hown : s = .pending d'.consumer.key
    · rw [hown, Function.update_self] at heq
      exact absurd heq (ht.last_lt hqueued).ne
    · rw [Function.update_of_ne hown] at heq
      exact hd.ne_queued hpos hs (ht.last_inj .queued s hqueued (hd.occupied hs hown) heq).symm

/-- A delivery: from the log it starts a line, from the retry queue it continues the line of
the record, which leaves the queue. -/
theorem deliver (ht : Traced cfg m h td pred last)
    (hlog : ∀ r ∈ td'.messageLog, r.retryCount = 0) (hd : Hands m td e td' d) :
    Traced cfg m (h ++ [e]) td' (Function.update pred h.length (last .queued))
      (Function.update last (.pending d.consumer.key) h.length) where
  log_zero := hlog
  count_le _ _ hd' := ht.count_le_deliver hd hd'
  retried _ _ hd' hpos := ht.retried_deliver hd hd' hpos
  pred_inj _ _ _ _ hd' hd'' hpos hpos' heq := ht.pred_inj_deliver hd hd' hd'' hpos hpos' heq
  pending _ _ hp := ht.pending_deliver hd hp
  queued r hr hid := by
    obtain ⟨hle, d', p, htimed, hcount⟩ := ht.queued r (hd.queue r hr) hid
    rw [Function.update_of_ne fun heq => by cases heq]
    exact ⟨hle, d', p, htimed.concat e, hcount⟩
  dead j n r hr := by
    obtain ⟨d', htimed, hmsg⟩ := ht.dead j n r (deadLetterAt_of_concat hd.deadLetters hr)
    rw [Function.update_of_ne fun heq => by cases heq]
    exact ⟨d', htimed.concat e, hmsg⟩
  last_inj _ _ hs hs' heq := ht.last_inj_deliver hd hs hs' heq
  last_pred _ hs _ _ hd' hpos := ht.last_pred_deliver hd hs hd' hpos

/-- A timed-out entry stems from a delivery that the pass times out. -/
theorem timedOutAt_of_due (ht : Traced cfg m h td pred last) {clock : PassClock}
    {order : PassOrder} {due : Due} (hdue : due ∈ duePass cfg clock order td)
    (hid : due.msgId = m) : ∃ c : Consumer, c.key = due.key ∧
      TimedOutAt cfg m (h ++ [(topic cfg).event td (.retryPass clock order)])
        (last (.pending due.key)) ⟨c, due.pending.msg, due.pending.pullTime⟩ h.length := by
  obtain ⟨hlookup, htimed⟩ := mem_duePass.mp hdue
  rw [hid] at hlookup
  obtain ⟨c, hc, hd, hunsettled⟩ := ht.pending due.key due.pending hlookup
  refine ⟨c, hc, deliveryAt_concat.mpr (.inl hd), lt_length_of_deliveryAt hd, ?_, _, clock, order,
    getElem?_concat.mpr (.inr ⟨rfl, rfl⟩), rfl, ?_, htimed⟩
  · intro a e hlt hlt' ha
    rcases getElem?_concat.mp ha with ha | ⟨rfl, -⟩
    · exact hunsettled a e hlt hlt' ha
    · exact absurd hlt' (lt_irrefl _)
  · rw [hc]
    exact hlookup

/-! ### Where a retry pass takes records from -/

section RetryPass

variable {clock : PassClock} {order : PassOrder}

/-- The record of the message in the retry queue after a pass: that of a requeued entry, or one
that was there before. -/
inductive QueuedFrom (cfg : StoreConfig) (m : MessageId) (td : TopicData) (clock : PassClock)
    (order : PassOrder) : Slot → Prop
  | requeued (d : Due) (hd : d ∈ (duePass cfg clock order td).filter (Due.requeued cfg clock))
      (hid : d.msgId = m)
      (hrecord : ∀ r ∈ (td.processPendingRetries cfg clock order).1.retryQueue, r.id = m →
        r = d.pending.msg.retried) : QueuedFrom cfg m td clock order (.pending d.key)
  | queued (hrecord : ∀ r ∈ (td.processPendingRetries cfg clock order).1.retryQueue, r.id = m →
      r ∈ td.retryQueue) : QueuedFrom cfg m td clock order .queued

theorem exists_queuedFrom (hk : td.Keyed) (m : MessageId) (clock : PassClock) (order : PassOrder) :
    ∃ source, QueuedFrom cfg m td clock order source := by
  obtain ⟨-, hqueue, -⟩ := processPendingRetries_spec cfg clock order td
  have hids : ∀ d ∈ (duePass cfg clock order td).filter (Due.requeued cfg clock),
      d.pending.msg.id = d.msgId :=
    fun d hd => hk.due_id d (List.mem_filter.mp hd).1
  have hrecord := requeueAll_record td.retryQueue hids m
  rw [← hqueue] at hrecord
  rcases hrecord with ⟨d, hd, hid, hrec⟩ | hrec
  · exact ⟨_, .requeued d hd hid hrec⟩
  · exact ⟨_, .queued hrec⟩

/-- Where the record of a slot was before a pass that sends `deads` to the dead-letter queue as
the `k`-th operation. -/
def passSource (source : Slot) (deads : List Due) (k : ℕ) : Slot → Slot
  | .pending key => .pending key
  | .queued => source
  | .dead j n => if j = k then (deads[n]?).elim .queued fun d => .pending d.key else .dead j n

theorem passSource_dead_self {source : Slot} {deads : List Due} {k n : ℕ} {d : Due}
    (hd : deads[n]? = some d) : passSource source deads k (.dead k n) = .pending d.key := by
  rw [passSource, if_pos rfl, hd, Option.elim_some]

theorem passSource_dead_of_ne {source : Slot} {deads : List Due} {k j n : ℕ} (hj : j ≠ k) :
    passSource source deads k (.dead j n) = .dead j n := if_neg hj

/-- The dead letters after a pass are those from before and the entries at the retry limit. -/
theorem deadLetterAt_retryPass (hk : td.Keyed) {j n : ℕ} {r : StoredMessage}
    (hr : DeadLetterAt m (h ++ [(topic cfg).event td (.retryPass clock order)]) j n r) :
    j ≠ h.length ∧ DeadLetterAt m h j n r ∨ j = h.length ∧ ∃ d,
      ((duePass cfg clock order td).filter (Due.dead cfg clock))[n]? = some d ∧ d.msgId = m ∧
        d.pending.msg = r := by
  rcases deadLetterAt_concat.mp hr with hr | ⟨hj, hr, hid⟩
  · obtain ⟨e', he', hr⟩ := hr
    exact .inl ⟨(List.getElem?_eq_some_iff.mp he').1.ne, e', he', hr⟩
  · have hletters := (processPendingRetries_spec cfg clock order td).2.2
    change (td.processPendingRetries cfg clock order).2[n]? = some r at hr
    rw [hletters, List.getElem?_map] at hr
    obtain ⟨d, hd, rfl⟩ := Option.map_eq_some_iff.mp hr
    have hmem := (List.mem_filter.mp (List.mem_of_getElem? hd)).1
    exact .inr ⟨hj, d, hd, (hk.due_id d hmem).symm.trans hid, rfl⟩

/-- A record after a pass stayed where it was, or it is that of a timed-out entry. -/
theorem passSource_cases (hk : td.Keyed) {source : Slot}
    (hsource : QueuedFrom cfg m td clock order source) {s : Slot}
    (hs : s.Occupied m (h ++ [(topic cfg).event td (.retryPass clock order)])
      (td.processPendingRetries cfg clock order).1) :
    let deads := (duePass cfg clock order td).filter (Due.dead cfg clock)
    let src := passSource source deads h.length
    src s = s ∧ s.Occupied m h td ∧
        (∀ d ∈ duePass cfg clock order td, d.msgId = m → s ≠ .pending d.key) ∨
      ∃ d ∈ duePass cfg clock order td, d.msgId = m ∧ src s = .pending d.key ∧
        (s = .queued ∧ d.requeued cfg clock = true ∨
          ∃ n, s = .dead h.length n ∧ deads[n]? = some d) := by
  intro deads src
  cases s with
  | pending key =>
    obtain ⟨p, hp⟩ := mem_iff_exists_lookup.mp hs
    obtain ⟨hold, hnot⟩ := (processPendingRetries_lookup cfg clock order td key m p).mp hp
    refine .inl ⟨rfl, mem_iff_exists_lookup.mpr ⟨p, hold⟩, fun d hd hid hkey => ?_⟩
    -- what is left of the pending entries has not timed out
    obtain ⟨hlookup, htimed⟩ := mem_duePass.mp hd
    rw [hid, ← Slot.pending.inj hkey, hold, Option.some_inj] at hlookup
    rw [← hlookup, hnot] at htimed
    cases htimed
  | queued =>
    cases hsource with
    | requeued d hd hid _ =>
      obtain ⟨hdue, hreq⟩ := List.mem_filter.mp hd
      exact .inr ⟨d, hdue, hid, rfl, .inl ⟨rfl, hreq⟩⟩
    | queued hrecord =>
      obtain ⟨r, hr, hid⟩ := hs
      refine .inl ⟨rfl, ⟨r, hrecord r hr hid, hid⟩, fun _ _ _ heq => ?_⟩
      cases heq
  | dead j n =>
    obtain ⟨r, hr⟩ := hs
    rcases deadLetterAt_retryPass hk hr with ⟨hj, hr⟩ | ⟨rfl, d, hd, hid, -⟩
    · refine .inl ⟨passSource_dead_of_ne hj, ⟨r, hr⟩, fun _ _ _ heq => ?_⟩
      cases heq
    · have hdue := (List.mem_filter.mp (List.mem_of_getElem? hd)).1
      exact .inr ⟨d, hdue, hid, passSource_dead_self hd, .inr ⟨n, rfl, hd⟩⟩

/-- What is in a slot after a pass was somewhere before. -/
theorem occupied_passSource (hk : td.Keyed) {source : Slot}
    (hsource : QueuedFrom cfg m td clock order source) {s : Slot}
    (hs : s.Occupied m (h ++ [(topic cfg).event td (.retryPass clock order)])
      (td.processPendingRetries cfg clock order).1) :
    (passSource source ((duePass cfg clock order td).filter (Due.dead cfg clock)) h.length
      s).Occupied m h td := by
  rcases passSource_cases hk hsource hs with ⟨hsame, hold, -⟩ | ⟨d, hd, hid, hmove, -⟩
  · rw [hsame]
    exact hold
  · rw [hmove]
    exact mem_iff_exists_lookup.mpr ⟨_, hid ▸ (mem_duePass.mp hd).1⟩

/-- Records in different slots come from different slots. -/
theorem passSource_injective (hk : td.Keyed) {source : Slot}
    (hsource : QueuedFrom cfg m td clock order source) {s s' : Slot}
    (hs : s.Occupied m (h ++ [(topic cfg).event td (.retryPass clock order)])
      (td.processPendingRetries cfg clock order).1)
    (hs' : s'.Occupied m (h ++ [(topic cfg).event td (.retryPass clock order)])
      (td.processPendingRetries cfg clock order).1)
    (heq : passSource source ((duePass cfg clock order td).filter (Due.dead cfg clock)) h.length s =
      passSource source ((duePass cfg clock order td).filter (Due.dead cfg clock)) h.length s') :
    s = s' := by
  rcases passSource_cases hk hsource hs with ⟨hkeep, -, hno⟩ | ⟨d, hd, hid, hmove, hrole⟩ <;>
    rcases passSource_cases hk hsource hs' with ⟨hkeep', -, hno'⟩ | ⟨d', hd', hid', hmove', hrole'⟩
  · exact hkeep.symm.trans (heq.trans hkeep')
  · exact absurd (hkeep.symm.trans (heq.trans hmove')) (hno d' hd' hid')
  · exact absurd (hkeep'.symm.trans (heq.symm.trans hmove)) (hno' d hd hid)
  · -- both come from the entry of one consumer
    have hkey : d.key = d'.key := Slot.pending.inj (hmove.symm.trans (heq.trans hmove'))
    obtain rfl := eq_of_mem_duePass hd hd' hkey (hid.trans hid'.symm)
    have hrequeued : ∀ {n : ℕ},
        ((duePass cfg clock order td).filter (Due.dead cfg clock))[n]? = some d →
          d.requeued cfg clock = false :=
      fun hn => Due.requeued_eq_false_of_dead (List.mem_filter.mp (List.mem_of_getElem? hn)).2
    rcases hrole with ⟨rfl, hreq⟩ | ⟨n, rfl, hn⟩ <;> rcases hrole' with ⟨rfl, hreq'⟩ | ⟨n', rfl, hn'⟩
    · rfl
    · rw [hrequeued hn'] at hreq
      cases hreq
    · rw [hrequeued hn] at hreq'
      cases hreq'
    · have hnodup : ((duePass cfg clock order td).filter (Due.dead cfg clock)).Nodup :=
        (nodup_duePass td).filter _
      obtain ⟨hlt, hget⟩ := List.getElem?_eq_some_iff.mp hn
      obtain ⟨hlt', hget'⟩ := List.getElem?_eq_some_iff.mp hn'
      rw [(hnodup.getElem_inj_iff).mp (hget.trans hget'.symm)]

/-- The record in the retry queue after a pass continues a timed-out delivery. -/
theorem queued_retryPass (ht : Traced cfg m h td pred last) {source : Slot}
    (hsource : QueuedFrom cfg m td clock order source) {r : StoredMessage}
    (hr : r ∈ (td.processPendingRetries cfg clock order).1.retryQueue) (hid : r.id = m) :
    r.retryCount ≤ cfg.maxRetryCount.toNat ∧ ∃ d p,
      TimedOutAt cfg m (h ++ [(topic cfg).event td (.retryPass clock order)]) (last source) d p ∧
        d.msg.retryCount + 1 = r.retryCount := by
  cases hsource with
  | requeued d hd hdid hrecord =>
    -- the count goes up by one, without wrapping
    obtain ⟨hdue, hreq⟩ := List.mem_filter.mp hd
    obtain ⟨c, -, htimed⟩ := ht.timedOutAt_of_due hdue hdid
    simp only [Due.requeued, Bool.and_eq_true, decide_eq_true_eq] at hreq
    have hmax := cfg.maxRetryCount.toNat_lt
    have hcount : r.retryCount = d.pending.msg.retryCount + 1 := by
      rw [hrecord r hr hid]
      exact Nat.mod_eq_of_lt (by omega)
    exact ⟨by omega, ⟨c, d.pending.msg, d.pending.pullTime⟩, h.length, htimed, hcount.symm⟩
  | queued hrecord =>
    obtain ⟨hle, d, p, htimed, hcount⟩ := ht.queued r (hrecord r hr hid) hid
    exact ⟨hle, d, p, htimed.concat _, hcount⟩

/-- A dead letter after a pass is a timed-out delivery at the retry limit. -/
theorem dead_retryPass (ht : Traced cfg m h td pred last) (hk : td.Keyed) (source : Slot)
    {j n : ℕ} {r : StoredMessage}
    (hr : DeadLetterAt m (h ++ [(topic cfg).event td (.retryPass clock order)]) j n r) :
    ∃ d, TimedOutAt cfg m (h ++ [(topic cfg).event td (.retryPass clock order)])
        (last (passSource source ((duePass cfg clock order td).filter (Due.dead cfg clock)) h.length
          (.dead j n))) d j ∧ d.msg = r ∧ r.retryCount = cfg.maxRetryCount.toNat := by
  rcases deadLetterAt_retryPass hk hr with ⟨hj, hr⟩ | ⟨rfl, d, hd, hid, rfl⟩
  · obtain ⟨d, htimed, hmsg⟩ := ht.dead j n r hr
    rw [passSource_dead_of_ne hj]
    exact ⟨d, htimed.concat _, hmsg⟩
  · obtain ⟨hdue, hdead⟩ := List.mem_filter.mp (List.mem_of_getElem? hd)
    obtain ⟨c, -, htimed⟩ := ht.timedOutAt_of_due hdue hid
    simp only [Due.dead, Bool.and_eq_true, decide_eq_true_eq] at hdead
    rw [passSource_dead_self hd]
    refine ⟨_, htimed, rfl, le_antisymm ?_ hdead.2⟩
    exact ht.count_le _ _ (deliveryAt_of_concat rfl htimed.delivery)

/-- A retry pass moves timed-out entries into the retry queue and the dead-letter queue. -/
theorem retryPass (ht : Traced cfg m h td pred last) (hk : td.Keyed) (clock : PassClock)
    (order : PassOrder) : ∃ last', Traced cfg m
      (h ++ [(topic cfg).event td (.retryPass clock order)])
      ((topic cfg).step td (.retryPass clock order)).1 pred last' := by
  obtain ⟨source, hsource⟩ : ∃ source, QueuedFrom cfg m td clock order source :=
    exists_queuedFrom hk m clock order
  refine ⟨_, ht.move (passSource source ((duePass cfg clock order td).filter (Due.dead cfg clock))
    h.length) ht.log_zero rfl (fun s hs => occupied_passSource hk hsource hs)
    (fun s s' hs hs' heq => passSource_injective hk hsource hs hs' heq) (fun key p hp => ?_)
    (fun r hr hid => ht.queued_retryPass hsource hr hid)
    fun j n r hr => ht.dead_retryPass hk source hr⟩
  have hold := (processPendingRetries_lookup cfg clock order td key m p).mp hp
  exact ⟨rfl, hold.1, fun _ _ => rfl⟩

end RetryPass

/-- **Every operation keeps the lines.** -/
theorem step (ht : Traced cfg m h td pred last) (hk : td.Keyed) (op : TopicOp) :
    ∃ pred' last', Traced cfg m (h ++ [(topic cfg).event td op]) ((topic cfg).step td op).1
      pred' last' := by
  cases op with
  | publish payload ttlMs expiryNowMs nowMs =>
    exact ⟨pred, last, ht.concat ht.log_zero rfl rfl (fun _ _ hp => ⟨hp, fun _ _ => rfl⟩)
      fun _ hr _ => hr⟩
  | pull c maxMessages nowMs steadyNow =>
    have hlog : ∀ r ∈ (td.pull c maxMessages nowMs steadyNow).1.messageLog, r.retryCount = 0 := by
      rw [pull_messageLog]
      exact drainRingBuffer_retryCount ht.log_zero
    have hsub := td.retryQueue_pull_sublist c maxMessages nowMs steadyNow
    have hpull := td.deliveryOf_pull cfg m c maxMessages nowMs steadyNow
    split at hpull
    · rename_i hnone
      refine ⟨pred, last, ht.concat hlog hnone rfl (fun key p hp => ⟨?_, fun _ _ => rfl⟩)
        fun r hr _ => hsub.subset hr⟩
      change ((td.pull c maxMessages nowMs steadyNow).1.pendingOf key).lookup m = some p at hp
      rcases eq_or_ne key c.key with rfl | hne
      · rwa [hpull] at hp
      · rwa [td.pull_pendingOf_ne c maxMessages nowMs steadyNow hne] at hp
    · rename_i d hsome
      obtain ⟨rfl, hmem, hown⟩ := hpull
      refine ⟨_, _, ht.deliver hlog
        { delivery := hsome
          deadLetters := rfl
          acked := fun _ => rfl
          own := hown
          other := fun key hne => td.pull_pendingOf_ne d.consumer maxMessages nowMs steadyNow hne
          queue := fun r hr => hsub.subset hr
          source := ?_ }⟩
      have hid : d.msg.id = m := (delivered_of_deliveryOf hsome).2
      rcases hk.mem_pulled d.consumer maxMessages nowMs steadyNow hmem with hmem | ⟨hmem, hgone⟩
      · exact .inl (drainRingBuffer_retryCount ht.log_zero _ hmem)
      · rw [hid] at hgone
        exact .inr ⟨hmem, hgone⟩
  | ack c msgId =>
    obtain ⟨pendingAcks, hframe⟩ := ack_frame td c msgId
    refine ⟨pred, last, ht.concat ?_ rfl rfl (fun key p hp => ?_) fun r hr _ => ?_⟩
    · change ∀ r ∈ (td.ack c msgId).1.messageLog, r.retryCount = 0
      rw [hframe]
      exact ht.log_zero
    · obtain ⟨hold, hne⟩ := (ack_lookup td c msgId key m p).mp hp
      refine ⟨hold, fun c' hc' => ?_⟩
      rw [Bool.eq_false_iff]
      intro hack
      obtain ⟨hop, -⟩ := input_of_acked hack
      obtain ⟨rfl, rfl⟩ := TopicOp.ack.inj hop
      exact hne ⟨hc'.symm, rfl⟩
    · change r ∈ (td.ack c msgId).1.retryQueue at hr
      rwa [hframe] at hr
  | retryPass clock order => exact ⟨pred, ht.retryPass hk clock order⟩
  | expirePass nowMs =>
    refine ⟨pred, last, ht.concat (fun r hr => ht.log_zero r (List.mem_filter.mp hr).1) rfl rfl
      (fun key p hp => ⟨?_, fun _ _ => rfl⟩) fun r hr _ => (List.mem_filter.mp hr).1⟩
    exact ((expireTopicMessages_lookup td nowMs key m p).mp hp).1

end Traced

/-- **Every message has its lines**, after every run. -/
theorem traced_run (cfg : StoreConfig) (m : MessageId) (topicName : TopicName) (bufferSize : ℕ)
    (ops : List TopicOp) : ∃ pred last,
      Traced cfg m ((topic cfg).trace (ofName topicName bufferSize) ops)
        ((topic cfg).run (ofName topicName bufferSize) ops) pred last := by
  have hboth : ((topic cfg).run (ofName topicName bufferSize) ops).Keyed ∧ ∃ pred last,
      Traced cfg m ((topic cfg).trace (ofName topicName bufferSize) ops)
        ((topic cfg).run (ofName topicName bufferSize) ops) pred last := by
    refine (topic cfg).history_induction
      (P := fun h td => td.Keyed ∧ ∃ pred last, Traced cfg m h td pred last) ?_ ?_ ops
    · exact ⟨keyed_ofName _ _, _, _, Traced.init cfg m topicName bufferSize⟩
    · rintro h td op ⟨hk, pred, last, ht⟩
      exact ⟨hk.step op, ht.step hk op⟩
  exact hboth.2

/-- The retry count with which the `i`-th operation delivered the message `m`. -/
def retryCountAt (m : MessageId) (h : List TopicEvent) (i : ℕ) : ℕ :=
  (deliveryAt m h i).elim 0 fun d => d.msg.retryCount

theorem retryCountAt_eq {m : MessageId} {h : List TopicEvent} {i : ℕ} {d : Delivery}
    (hd : deliveryAt m h i = some d) : retryCountAt m h i = d.msg.retryCount := by
  rw [retryCountAt, hd, Option.elim_some]

/-- The deliveries of the message, by their retry counts, form a lineage. -/
theorem Traced.lineage {cfg : StoreConfig} {m : MessageId} {h : List TopicEvent} {td : TopicData}
    {pred : ℕ → ℕ} {last : Slot → ℕ} (ht : Traced cfg m h td pred last) :
    Lineage {i | ∃ d, deliveryAt m h i = some d} (retryCountAt m h) pred where
  pred_mem := by
    rintro i ⟨d, hd⟩ hpos
    rw [retryCountAt_eq hd] at hpos
    obtain ⟨d', p, -, htimed, -⟩ := ht.retried i d hd hpos
    exact ⟨d', htimed.delivery⟩
  level_pred := by
    rintro i ⟨d, hd⟩ hpos
    rw [retryCountAt_eq hd] at hpos
    obtain ⟨d', p, -, htimed, hcount⟩ := ht.retried i d hd hpos
    rw [retryCountAt_eq htimed.delivery, retryCountAt_eq hd, hcount]
  pred_inj := by
    rintro i ⟨d, hd⟩ j ⟨d', hd'⟩ hpos hpos' heq
    rw [retryCountAt_eq hd] at hpos
    rw [retryCountAt_eq hd'] at hpos'
    exact ht.pred_inj i j d d' hd hd' hpos hpos' heq

end TopicData

end ProtoMsgQueue
