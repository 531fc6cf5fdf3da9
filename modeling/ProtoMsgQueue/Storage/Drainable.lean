import ProtoMsgQueue.Storage.Consistency

/-!
# What can be drained

`Push` takes every record that fits the ring buffer, `Pop` returns only records up to the
payload limit, and a publish adds the header of the store in between. `drainable_iff` says that
the next pull moves all accepted messages to the log iff none of them exceeds the payload limit
with its header: one that does is never in a log, because what `Pop` returns is at most as long
as the limit, and it keeps everything behind it from the log.
-/

namespace ProtoMsgQueue

/-- Is the operation a pull? -/
def TopicOp.isPull : TopicOp → Bool
  | .pull .. => true
  | _ => false

namespace SpscRingBuffer

/-- `Pop` returns at most as many bytes as the payload limit. -/
theorem length_le_of_pop {rb : SpscRingBuffer} {data : List UInt8} (h : rb.pop.2 = some data) :
    data.length ≤ kMaxPayloadSize := by
  rw [pop] at h
  split at h
  · cases h
  · rename_i head _
    split at h
    · cases h
    · rename_i data' hread
      obtain rfl : data' = data := Option.some_inj.mp h
      rw [popRead] at hread
      split at hread
      · cases hread
      · rename_i hlen
        rw [← Option.some_inj.mp hread, Circular.length_read]
        omega

end SpscRingBuffer

/-- A message is no longer than the record it was read from. -/
theorem length_le_of_parseRecord {buf : List UInt8} {m : StoredMessage}
    (h : parseRecord buf = some m) : kRecordHeaderSize + m.payload.length ≤ buf.length := by
  rw [parseRecord] at h
  split at h
  · cases h
  · dsimp only at h
    split at h
    · cases h
    · rename_i hsize
      rw [← Option.some_inj.mp h]
      refine le_trans (Nat.add_le_add_left (List.length_take_le _ _) _) ?_
      omega

namespace TopicData

variable {td : TopicData} {h : List TopicEvent}

/-! ### What a log holds -/

/-- The messages of the log were small enough for `Pop`. -/
def LogFits (td : TopicData) : Prop :=
  ∀ m ∈ td.messageLog, kRecordHeaderSize + m.payload.length ≤ kMaxPayloadSize

theorem drainLoop_fits (fuel : ℕ) (rb : SpscRingBuffer) {log : List StoredMessage}
    (hlog : ∀ m ∈ log, kRecordHeaderSize + m.payload.length ≤ kMaxPayloadSize) :
    ∀ m ∈ (drainLoop fuel rb log).2, kRecordHeaderSize + m.payload.length ≤ kMaxPayloadSize := by
  induction fuel generalizing rb log with
  | zero => exact hlog
  | succ fuel ih =>
    rw [drainLoop]
    split
    · exact hlog
    · rename_i rb' buf hpop
      split
      · exact ih _ hlog
      · rename_i msg hmsg
        refine ih _ fun m hm => ?_
        rcases List.mem_append.mp hm with hm | hm
        · exact hlog m hm
        · rw [List.mem_singleton.mp hm]
          exact (length_le_of_parseRecord hmsg).trans
            (SpscRingBuffer.length_le_of_pop (congrArg Prod.snd hpop))

theorem LogFits.drain (hlog : td.LogFits) : td.drainRingBuffer.LogFits :=
  drainLoop_fits _ _ hlog

/-- No operation puts a longer message into the log. -/
theorem LogFits.step (hlog : td.LogFits) (cfg : StoreConfig) (op : TopicOp) :
    ((topic cfg).step td op).1.LogFits := by
  cases op with
  | publish payload ttlMs expiryNowMs nowMs => exact hlog
  | pull c maxMessages nowMs steadyNow =>
    intro m hm
    change m ∈ (td.pull c maxMessages nowMs steadyNow).1.messageLog at hm
    rw [pull_messageLog] at hm
    exact hlog.drain m hm
  | ack c msgId =>
    obtain ⟨pendingAcks, hframe⟩ := ack_frame td c msgId
    change (td.ack c msgId).1.LogFits
    rw [hframe]
    exact hlog
  | retryPass clock order => exact hlog
  | expirePass nowMs => exact fun m hm => hlog m (List.mem_filter.mp hm).1

/-! ### What waits in the ring buffer -/

/-- What was accepted can be drained: the next pull leaves all of it in the log, and `Pop`
returns nothing only from an empty buffer. -/
structure Drainable (h : List TopicEvent) (td : TopicData) : Prop where
  log : ∀ c maxMessages nowMs steadyNow,
    (td.pull c maxMessages nowMs steadyNow).1.messageLog = accepted h
  pop : td.ringBuffer.pop.2 = none → td.ringBuffer.empty = true

/-- A message that is too long was accepted: it is never drained. -/
theorem LogFits.not_drainable (hlog : td.LogFits) {m : StoredMessage} (hm : m ∈ accepted h)
    (hsize : kMaxPayloadSize < kRecordHeaderSize + m.payload.length) : ¬Drainable h td := by
  intro hdrainable
  have hpulled := hdrainable.log ⟨false, ""⟩ 0 0 fun _ => 0
  rw [pull_messageLog] at hpulled
  exact absurd (hlog.drain m (hpulled ▸ hm)) (Nat.not_le.mpr hsize)

/-- The accepted messages are in the log or wait behind it, in order. -/
structure Queued (h : List TopicEvent) (td : TopicData) : Prop where
  next_lt : td.nextMsgId < 2 ^ 64
  fresh : ∀ m ∈ accepted h, m.Fresh
  ring : ∃ (H : ℕ) (waiting : List StoredMessage),
    td.ringBuffer.Holds H (waiting.map StoredMessage.record) ∧
      td.messageLog ++ waiting = accepted h

theorem queued_ofName (topicName : TopicName) (bufferSize : ℕ) :
    Queued [] (ofName topicName bufferSize) where
  next_lt := (by decide : 1 < 2 ^ 64)
  fresh := by simp [accepted]
  ring := ⟨0, [], SpscRingBuffer.holds_ofCapacity bufferSize, rfl⟩

/-- A publish keeps the accepted messages in order, if the new one has a size that is written
and read correctly. -/
theorem Queued.publish {cfg : StoreConfig} (hq : Queued h td) (payload : Payload) (ttlMs : UInt32)
    (expiryNowMs nowMs : UInt64)
    (hsize : ∀ m ∈ accepted (h ++ [(topic cfg).event td (.publish payload ttlMs expiryNowMs nowMs)]),
      kRecordHeaderSize + m.payload.length < 2 ^ 32) :
    Queued (h ++ [(topic cfg).event td (.publish payload ttlMs expiryNowMs nowMs)])
      (td.publish payload ttlMs expiryNowMs nowMs).1 := by
  obtain ⟨H, waiting, hholds, heq⟩ := hq.ring
  have hnext : (td.nextMsgId + 1) % 2 ^ 64 < 2 ^ 64 := Nat.mod_lt _ (by decide)
  have hring := publish_holds hholds payload ttlMs expiryNowMs nowMs
  have hacc := accepted_publish cfg h td payload ttlMs expiryNowMs nowMs
  dsimp only at hring
  split at hring
  · -- accepted
    obtain ⟨hok, hholds'⟩ := hring
    rw [hok, if_pos rfl] at hacc
    refine ⟨hnext, fun m hm => ?_, H, _, hholds', ?_⟩
    · have hm' := hsize m hm
      rw [hacc] at hm
      rcases List.mem_append.mp hm with hm | hm
      · exact hq.fresh m hm
      · rw [List.mem_singleton.mp hm] at hm' ⊢
        exact fresh_published hq.next_lt hm' _ _ _
    · rw [hacc, ← heq, List.append_assoc]
      rfl
  · -- rejected
    obtain ⟨hno, hsame⟩ := hring
    rw [hno, if_neg Bool.false_ne_true, List.append_nil] at hacc
    exact ⟨hnext, hacc ▸ hq.fresh, H, waiting, hsame ▸ hholds, hacc ▸ heq⟩

/-- A pull moves the waiting messages up to the first that is too long. -/
theorem Queued.pull {cfg : StoreConfig} (hq : Queued h td) (c : Consumer) (maxMessages : UInt32)
    (nowMs : UInt64) (steadyNow : ℕ → ℤ) :
    Queued (h ++ [(topic cfg).event td (.pull c maxMessages nowMs steadyNow)])
      (td.pull c maxMessages nowMs steadyNow).1 := by
  obtain ⟨H, waiting, hholds, heq⟩ := hq.ring
  have hacc : accepted (h ++ [(topic cfg).event td (.pull c maxMessages nowMs steadyNow)]) =
      accepted h := by
    rw [accepted_concat]
    exact List.append_nil _
  obtain ⟨⟨H', hholds'⟩, hlog⟩ := drainRingBuffer_eq hholds fun m hm =>
    hq.fresh m (heq ▸ List.mem_append_right _ hm)
  refine ⟨?_, hacc ▸ hq.fresh, H', waiting.dropWhile StoredMessage.poppable, ?_, ?_⟩
  · rw [pull_nextMsgId]
    exact hq.next_lt
  · rw [pull_ringBuffer]
    exact hholds'
  · rw [pull_messageLog, hlog, List.append_assoc, List.takeWhile_append_dropWhile, hacc]
    exact heq

/-- If all accepted messages are short enough, they can be drained. -/
theorem Queued.drainable (hq : Queued h td)
    (hsize : ∀ m ∈ accepted h, kRecordHeaderSize + m.payload.length ≤ kMaxPayloadSize) :
    Drainable h td := by
  obtain ⟨H, waiting, hholds, heq⟩ := hq.ring
  have hwaiting : ∀ m ∈ waiting, m ∈ accepted h := fun m hm => heq ▸ List.mem_append_right _ hm
  have hfits : ∀ m ∈ waiting, m.poppable = true := by
    intro m hm
    rw [StoredMessage.poppable, StoredMessage.length_record, decide_eq_true_eq]
    exact hsize m (hwaiting m hm)
  refine ⟨fun c maxMessages nowMs steadyNow => ?_, fun hpop => ?_⟩
  · obtain ⟨-, hlog⟩ := drainRingBuffer_eq hholds fun m hm => hq.fresh m (hwaiting m hm)
    rw [pull_messageLog, hlog, List.takeWhile_eq_self_iff.mpr hfits, heq]
  · cases waiting with
    | nil =>
      have hload := hholds.popLoad_eq
      rw [List.map_nil, if_pos rfl, SpscRingBuffer.popLoad] at hload
      rw [SpscRingBuffer.empty, decide_eq_true_eq]
      by_contra hne
      rw [if_neg hne] at hload
      cases hload
    | cons m waiting =>
      have hm := hfits m List.mem_cons_self
      rw [StoredMessage.poppable, decide_eq_true_eq] at hm
      have hcons := hholds.pop_cons (hm.trans_lt (by decide))
      rw [if_neg (Nat.not_lt.mpr hm), hpop] at hcons
      cases hcons.1

/-! ### Whole runs -/

/-- **Draining**, exactly if no accepted message is too long. After every run of publishes and
pulls the next pull moves everything that was accepted into the log, and `Pop` returns nothing
only from an empty buffer, iff all accepted messages fit the payload limit with their header. -/
theorem drainable_iff (cfg : StoreConfig) (topicName : TopicName) (bufferSize : ℕ)
    (ops : List TopicOp) (hops : ∀ op ∈ ops, op.isPublish = true ∨ op.isPull = true) :
    Drainable ((topic cfg).trace (ofName topicName bufferSize) ops)
        ((topic cfg).run (ofName topicName bufferSize) ops) ↔
      ∀ m ∈ accepted ((topic cfg).trace (ofName topicName bufferSize) ops),
        kRecordHeaderSize + m.payload.length ≤ kMaxPayloadSize := by
  constructor
  · intro hdrainable m hm
    by_contra hsize
    have hlog : ((topic cfg).run (ofName topicName bufferSize) ops).LogFits :=
      (topic cfg).run_induction (P := LogFits) (by simp [LogFits, ofName])
        (fun _ op hlog => hlog.step cfg op) ops
    exact hlog.not_drainable hm (Nat.not_le.mp hsize) hdrainable
  · intro hsize
    refine Queued.drainable ?_ hsize
    induction ops using List.reverseRecOn with
    | nil => exact queued_ofName topicName bufferSize
    | append_singleton ops op ih =>
      rw [StepMachine.trace_concat] at hsize ⊢
      rw [StepMachine.run_concat]
      have hq := ih (fun op hop => hops op (List.mem_append_left _ hop)) fun m hm =>
        hsize m (by rw [accepted_concat]; exact List.mem_append_left _ hm)
      cases op with
      | publish payload ttlMs expiryNowMs nowMs =>
        exact hq.publish payload ttlMs expiryNowMs nowMs fun m hm =>
          (hsize m hm).trans_lt (by decide)
      | pull c maxMessages nowMs steadyNow => exact hq.pull c maxMessages nowMs steadyNow
      | _ => simpa [TopicOp.isPublish, TopicOp.isPull] using
          hops _ (List.mem_append_right _ (List.mem_singleton_self _))

/-- Two messages of a run with a pull in between can be drained. -/
theorem drainable_interleaved :
    let ops : List TopicOp := [.publish [7] 0 5 5, .pull ⟨false, "a"⟩ 10 6 fun _ => 0,
      .publish [8] 0 7 7]
    Drainable ((topic {}).trace (ofName "t" 128) ops) ((topic {}).run (ofName "t" 128) ops) :=
  (drainable_iff {} "t" 128 _ (by decide)).mpr (by decide +kernel)

/-- In a buffer larger than the limit a payload that is too long is accepted, and stays. -/
theorem not_drainable_of_room (cfg : StoreConfig) (topicName : TopicName) {bufferSize : ℕ}
    {payload : Payload} (hroom : 4 + (kRecordHeaderSize + payload.length) ≤ bufferSize)
    (hsize : kMaxPayloadSize < kRecordHeaderSize + payload.length) :
    ¬Drainable ((topic cfg).trace (ofName topicName bufferSize) [.publish payload 0 0 0])
      ((topic cfg).run (ofName topicName bufferSize) [.publish payload 0 0 0]) := by
  set td := ofName topicName bufferSize with htd
  have hholds : td.ringBuffer.Holds 0 (([] : List StoredMessage).map StoredMessage.record) :=
    SpscRingBuffer.holds_ofCapacity _
  have hring := publish_holds hholds payload 0 0 0
  rw [if_pos (by rw [hholds.getWritableSize_eq]; exact hroom)] at hring
  have haccepted : accepted ((topic cfg).trace td [.publish payload 0 0 0]) =
      [⟨1, "", payload, 0, 0, 0⟩] := by
    change accepted ([] ++ [(topic cfg).event td (.publish payload 0 0 0)]) = _
    rw [accepted_publish, hring.1]
    rfl
  have hlog : ((topic cfg).run td [.publish payload 0 0 0]).LogFits :=
    LogFits.step (by simp [LogFits, htd, ofName]) cfg (.publish payload 0 0 0)
  have hmem : (⟨1, "", payload, 0, 0, 0⟩ : StoredMessage) ∈
      accepted ((topic cfg).trace td [.publish payload 0 0 0]) := by
    rw [haccepted]
    exact List.mem_singleton_self _
  exact hlog.not_drainable hmem hsize

/-- A payload of the limit itself, in a buffer twice as large. -/
theorem not_drainable_oversized :
    ¬Drainable ((topic {}).trace (ofName "t" (2 * kMaxPayloadSize))
        [.publish (List.replicate kMaxPayloadSize 0) 0 0 0])
      ((topic {}).run (ofName "t" (2 * kMaxPayloadSize))
        [.publish (List.replicate kMaxPayloadSize 0) 0 0 0]) := by
  refine not_drainable_of_room {} "t" ?_ ?_
  · rw [List.length_replicate]
    decide
  · rw [List.length_replicate]
    decide

end TopicData

end ProtoMsgQueue
