import ProtoMsgQueue.Storage.TopicData

/-!
# From publish to the log

What a topic accepted is, at every moment, what was drained into the log followed by what
still waits in the ring buffer, in order. `drainRingBuffer_eq` is the one lemma about the
drain loop: it moves every waiting record up to the first that exceeds the payload limit
of the ring buffer.
-/

namespace ProtoMsgQueue

/-- A message as `Publish` serializes it: all fields fit their widths. -/
structure StoredMessage.Fresh (m : StoredMessage) : Prop where
  topicName_eq : m.topicName = ""
  retryCount_eq : m.retryCount = 0
  id_lt : m.id < 2 ^ 64
  timestamp_lt : m.timestamp < 2 ^ 64
  expiresAt_lt : m.expiresAt < 2 ^ 64
  size_lt : kRecordHeaderSize + m.payload.length < 2 ^ 32

namespace StoredMessage

/-- The record of a message in the ring buffer. -/
def record (m : StoredMessage) : List UInt8 := serialize m.id m.timestamp m.expiresAt m.payload

@[simp] theorem length_record (m : StoredMessage) :
    m.record.length = kRecordHeaderSize + m.payload.length :=
  length_serialize _ _ _ _

/-- Can the ring buffer return the record? -/
def poppable (m : StoredMessage) : Bool := m.record.length ≤ kMaxPayloadSize

theorem Fresh.parseRecord_record {m : StoredMessage} (h : m.Fresh) :
    parseRecord m.record = some m := by
  obtain ⟨id, topicName, payload, timestamp, retryCount, expiresAt⟩ := m
  obtain ⟨rfl, rfl, hid, htime, hexp, hsize⟩ := h
  refine parseRecord_serialize hid htime hexp (lt_of_le_of_lt ?_ hsize)
  exact Nat.le_add_left _ _

end StoredMessage

namespace TopicData

open SpscRingBuffer

/-- The drain loop keeps the number of cells. -/
theorem drainLoop_capacity (fuel : ℕ) (rb : SpscRingBuffer) (log : List StoredMessage) :
    (drainLoop fuel rb log).1.capacity = rb.capacity := by
  induction fuel generalizing rb log with
  | zero => rfl
  | succ fuel ih =>
    have hpop := rb.pop_capacity
    rw [drainLoop]
    split
    · rename_i heq
      rw [← hpop, heq]
    · rename_i heq
      rw [heq] at hpop
      split
      · rw [ih, hpop]
      · rw [ih, hpop]

/-- What is left in the ring buffer does not depend on the log. -/
theorem drainLoop_fst (fuel : ℕ) (rb : SpscRingBuffer) (log log' : List StoredMessage) :
    (drainLoop fuel rb log).1 = (drainLoop fuel rb log').1 := by
  induction fuel generalizing rb log log' with
  | zero => rfl
  | succ fuel ih =>
    rw [drainLoop, drainLoop]
    split
    · rfl
    · split
      · exact ih _ _ _
      · exact ih _ _ _

/-- Equal ring buffers are equal after a drain. -/
theorem drainRingBuffer_ringBuffer_congr {s t : TopicData} (h : s.ringBuffer = t.ringBuffer) :
    s.drainRingBuffer.ringBuffer = t.drainRingBuffer.ringBuffer := by
  change (drainLoop _ s.ringBuffer s.messageLog).1 = (drainLoop _ t.ringBuffer t.messageLog).1
  rw [h]
  exact drainLoop_fst _ _ _ _

/-- The drain loop appends messages that were never retried. -/
theorem drainLoop_retryCount (fuel : ℕ) (rb : SpscRingBuffer) {log : List StoredMessage}
    (h : ∀ m ∈ log, m.retryCount = 0) : ∀ m ∈ (drainLoop fuel rb log).2, m.retryCount = 0 := by
  induction fuel generalizing rb log with
  | zero => exact h
  | succ fuel ih =>
    rw [drainLoop]
    split
    · exact h
    · split
      · exact ih _ h
      · rename_i msg hmsg
        refine ih _ fun m hm => ?_
        rcases List.mem_append.mp hm with hm | hm
        · exact h m hm
        · rw [List.mem_singleton.mp hm]
          exact parseRecord_retryCount hmsg

theorem drainRingBuffer_retryCount {td : TopicData} (h : ∀ m ∈ td.messageLog, m.retryCount = 0) :
    ∀ m ∈ td.drainRingBuffer.messageLog, m.retryCount = 0 :=
  drainLoop_retryCount _ _ h

/-- The drain loop on a buffer that holds the records of `waiting`, with a turn for each. -/
theorem drainLoop_eq {waiting : List StoredMessage} {rb : SpscRingBuffer} {H : ℕ} {fuel : ℕ}
    (log : List StoredMessage) (hrb : rb.Holds H (waiting.map StoredMessage.record))
    (hfresh : ∀ m ∈ waiting, m.Fresh) (hfuel : waiting.length ≤ fuel) :
    (∃ H', (drainLoop fuel rb log).1.Holds H'
      ((waiting.dropWhile StoredMessage.poppable).map StoredMessage.record)) ∧
      (drainLoop fuel rb log).2 = log ++ waiting.takeWhile StoredMessage.poppable := by
  induction waiting generalizing rb H fuel log with
  | nil =>
    have hpop : rb.pop = (rb, none) := hrb.pop_nil
    have hstop : drainLoop fuel rb log = (rb, log) := by
      cases fuel with
      | zero => rfl
      | succ fuel => rw [drainLoop, hpop]
    rw [hstop]
    exact ⟨⟨H, hrb⟩, (List.append_nil _).symm⟩
  | cons m waiting ih =>
    obtain ⟨fuel, rfl⟩ := Nat.exists_eq_succ_of_ne_zero
      (show fuel ≠ 0 by rintro rfl; simp at hfuel)
    have hm : m.Fresh := hfresh m List.mem_cons_self
    have hpop := hrb.pop_cons (by rw [StoredMessage.length_record]; exact hm.size_lt)
    rw [List.length_cons] at hfuel
    split at hpop
    · -- the record exceeds the payload limit: the loop stops for good
      rename_i hbig
      have hno : m.poppable = false := by simpa [StoredMessage.poppable] using hbig
      have hstop : drainLoop (fuel + 1) rb log = (rb, log) := by rw [drainLoop, hpop]
      rw [hstop, List.dropWhile_cons_of_neg (by simp [hno]),
        List.takeWhile_cons_of_neg (by simp [hno])]
      exact ⟨⟨H, hrb⟩, (List.append_nil _).symm⟩
    · -- the record parses back to its message, which goes to the log
      rename_i hfits
      obtain ⟨hdata, hrest⟩ := hpop
      have hyes : m.poppable = true := by simpa [StoredMessage.poppable] using hfits
      have hstep : drainLoop (fuel + 1) rb log = drainLoop fuel rb.pop.1 (log ++ [m]) := by
        rw [drainLoop]
        cases hp : rb.pop with
        | mk rb' result =>
          rw [hp] at hdata
          obtain rfl : result = some m.record := hdata
          simp only [hm.parseRecord_record]
      rw [hstep, List.dropWhile_cons_of_pos hyes, List.takeWhile_cons_of_pos hyes]
      obtain ⟨hholds, hlog⟩ := ih (log ++ [m]) hrest
        (fun m' hm' => hfresh m' (List.mem_cons_of_mem _ hm')) (Nat.le_of_succ_le_succ hfuel)
      exact ⟨hholds, by rw [hlog, List.append_assoc]; rfl⟩

/-- As many turns as cells are enough: a record takes at least one cell. -/
private theorem length_le_capacity {rb : SpscRingBuffer} {H : ℕ} {waiting : List StoredMessage}
    (hrb : rb.Holds H (waiting.map StoredMessage.record)) : waiting.length ≤ rb.capacity := by
  have hlt := hrb.length_lt
  rw [length_records, List.map_map] at hlt
  refine le_trans ?_ hlt.le
  have hone := List.card_nsmul_le_sum
    (waiting.map ((fun data => 4 + data.length) ∘ StoredMessage.record)) 1 fun n hn => by
      obtain ⟨m, -, rfl⟩ := List.mem_map.mp hn
      exact Nat.le_add_right_of_le (by decide)
  simpa using hone

/-- **Drain.** The log grows by the waiting messages up to the first that the ring buffer
cannot return; nothing else of the topic changes. -/
theorem drainRingBuffer_eq {td : TopicData} {H : ℕ} {waiting : List StoredMessage}
    (hrb : td.ringBuffer.Holds H (waiting.map StoredMessage.record))
    (hfresh : ∀ m ∈ waiting, m.Fresh) :
    (∃ H', td.drainRingBuffer.ringBuffer.Holds H'
      ((waiting.dropWhile StoredMessage.poppable).map StoredMessage.record)) ∧
      td.drainRingBuffer.messageLog =
        td.messageLog ++ waiting.takeWhile StoredMessage.poppable :=
  drainLoop_eq td.messageLog hrb hfresh (length_le_capacity hrb)

theorem expiresAt_lt (ttlMs : UInt32) (nowMs : UInt64) : expiresAt ttlMs nowMs < 2 ^ 64 := by
  rw [expiresAt]
  split
  · exact Nat.mod_lt _ (by decide)
  · decide

/-- The message of a publish is as it is serialized, if its identifier and its size are. -/
theorem fresh_published {id : MessageId} {payload : Payload} (hid : id < 2 ^ 64)
    (hsize : kRecordHeaderSize + payload.length < 2 ^ 32) (ttlMs : UInt32)
    (expiryNowMs nowMs : UInt64) : StoredMessage.Fresh
      ⟨id, "", payload, nowMs.toNat, 0, expiresAt ttlMs expiryNowMs⟩ where
  topicName_eq := rfl
  retryCount_eq := rfl
  id_lt := hid
  timestamp_lt := nowMs.toNat_lt
  expiresAt_lt := expiresAt_lt ttlMs expiryNowMs
  size_lt := hsize

/-- **Publish.** The record is written behind the waiting ones if it fits the ring buffer with
its length header. The identifier is taken in any case. -/
theorem publish_holds {td : TopicData} {H : ℕ} {waiting : List StoredMessage}
    (hrb : td.ringBuffer.Holds H (waiting.map StoredMessage.record)) (payload : Payload)
    (ttlMs : UInt32) (expiryNowMs nowMs : UInt64) :
    let m : StoredMessage :=
      ⟨td.nextMsgId, "", payload, nowMs.toNat, 0, expiresAt ttlMs expiryNowMs⟩
    let out := td.publish payload ttlMs expiryNowMs nowMs
    if 4 + (kRecordHeaderSize + payload.length) ≤ td.ringBuffer.getWritableSize then
      out.2.2 = true ∧ out.1.ringBuffer.Holds H ((waiting ++ [m]).map StoredMessage.record)
    else out.2.2 = false ∧ out.1.ringBuffer = td.ringBuffer := by
  intro m out
  have hpush := hrb.push m.record
  have hlt := hrb.length_lt
  have hne : m.record ≠ [] := by
    rw [← List.length_pos_iff, StoredMessage.length_record]
    exact Nat.add_pos_left (by decide) _
  have hfit : (records (waiting.map StoredMessage.record)).length + (record m.record).length <
        td.ringBuffer.capacity ↔
      4 + (kRecordHeaderSize + payload.length) ≤ td.ringBuffer.getWritableSize := by
    rw [hrb.getWritableSize_eq, SpscRingBuffer.length_record, StoredMessage.length_record]
    change _ + (4 + (kRecordHeaderSize + payload.length)) < _ ↔ _
    omega
  simp only [hne, hfit, ne_eq, not_false_eq_true, true_and] at hpush
  split
  · rename_i hroom
    rw [if_pos hroom] at hpush
    rw [List.map_append]
    exact hpush
  · rename_i hfull
    rw [if_neg hfull] at hpush
    exact ⟨congrArg Prod.snd hpush, congrArg Prod.fst hpush⟩

@[simp] theorem drainRingBuffer_retryQueue (td : TopicData) :
    td.drainRingBuffer.retryQueue = td.retryQueue := rfl

@[simp] theorem drainRingBuffer_pendingAcks (td : TopicData) :
    td.drainRingBuffer.pendingAcks = td.pendingAcks := rfl

@[simp] theorem drainRingBuffer_nextMsgId (td : TopicData) :
    td.drainRingBuffer.nextMsgId = td.nextMsgId := rfl

@[simp] theorem drainRingBuffer_pendingOf (td : TopicData) (key : String) :
    td.drainRingBuffer.pendingOf key = td.pendingOf key := rfl

@[simp] theorem drainRingBuffer_offset (td : TopicData) (c : Consumer) :
    td.drainRingBuffer.offset c = td.offset c := rfl

end TopicData

/-! ### Accepted messages -/

/-- The message a publish got accepted. -/
def acceptedMessage (e : TopicEvent) : Option StoredMessage :=
  match e.input, e.output with
  | .publish payload ttlMs expiryNowMs nowMs, .published msgId true =>
    some { id := msgId
           payload := payload
           timestamp := nowMs.toNat
           expiresAt := TopicData.expiresAt ttlMs expiryNowMs }
  | _, _ => none

/-- A publish is accepted iff its record goes into the ring buffer. -/
theorem acceptedMessage_publish (cfg : StoreConfig) (td : TopicData) (payload : Payload)
    (ttlMs : UInt32) (expiryNowMs nowMs : UInt64) :
    acceptedMessage ((topic cfg).event td (.publish payload ttlMs expiryNowMs nowMs)) =
      if (td.publish payload ttlMs expiryNowMs nowMs).2.2 then
        some ⟨td.nextMsgId, "", payload, nowMs.toNat, 0, TopicData.expiresAt ttlMs expiryNowMs⟩
      else none := by
  have hout : ((topic cfg).event td (.publish payload ttlMs expiryNowMs nowMs)).output =
      .published td.nextMsgId (td.publish payload ttlMs expiryNowMs nowMs).2.2 := rfl
  simp only [acceptedMessage, StepMachine.event_input, hout]
  cases (td.publish payload ttlMs expiryNowMs nowMs).2.2 <;> rfl

/-- An accepted message has the identifier the topic gave out next. -/
theorem id_of_acceptedMessage {cfg : StoreConfig} {td : TopicData} {op : TopicOp}
    {m : StoredMessage} (h : acceptedMessage ((topic cfg).event td op) = some m) :
    m.id = td.nextMsgId := by
  cases op with
  | publish payload ttlMs expiryNowMs nowMs =>
    have hout : ((topic cfg).event td (.publish payload ttlMs expiryNowMs nowMs)).output =
        .published td.nextMsgId (td.ringBuffer.push (serialize td.nextMsgId nowMs.toNat
          (TopicData.expiresAt ttlMs expiryNowMs) payload)).2 := rfl
    simp only [acceptedMessage, StepMachine.event_input, hout] at h
    split at h
    · rename_i heq hid
      cases heq
      rw [← Option.some_inj.mp h]
      exact (TopicResult.published.inj hid).1.symm
    · cases h
  | _ => cases h

/-- The messages whose `Publish` returned true, in order. -/
def accepted (h : List TopicEvent) : List StoredMessage := h.filterMap acceptedMessage

theorem accepted_concat (h : List TopicEvent) (e : TopicEvent) :
    accepted (h ++ [e]) = accepted h ++ (acceptedMessage e).toList := by
  cases he : acceptedMessage e <;> simp [accepted, he]

/-- A publish adds its message to the accepted ones iff it returns true. -/
theorem accepted_publish (cfg : StoreConfig) (h : List TopicEvent) (td : TopicData)
    (payload : Payload) (ttlMs : UInt32) (expiryNowMs nowMs : UInt64) :
    accepted (h ++ [(topic cfg).event td (.publish payload ttlMs expiryNowMs nowMs)]) =
      accepted h ++ if (td.publish payload ttlMs expiryNowMs nowMs).2.2 then
        [⟨td.nextMsgId, "", payload, nowMs.toNat, 0, TopicData.expiresAt ttlMs expiryNowMs⟩]
      else [] := by
  rw [accepted_concat, acceptedMessage_publish]
  split <;> rfl

/-- Is the operation a publish? -/
def TopicOp.isPublish : TopicOp → Bool
  | .publish .. => true
  | _ => false

/-- The number of publishes. -/
def publishes (ops : List TopicOp) : ℕ := ops.countP TopicOp.isPublish

end ProtoMsgQueue
