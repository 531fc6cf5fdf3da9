import ProtoMsgQueue.Storage.Consistency
import ProtoMsgQueue.Storage.Deliveries

/-!
# First deliveries

What a consumer is handed with retry count zero, over a whole run, is a part of what was
accepted, in publish order and without duplicates; a message below its offset that it was
not handed had expired when the consumer's own pull or an expiration pass went over it.
-/

namespace ProtoMsgQueue

open UnorderedMap

/-- The messages returned to a consumer with retry count zero, over a history. -/
def firstDeliveries (c : Consumer) (h : List TopicEvent) : List StoredMessage :=
  (h.flatMap (deliveredBy c)).filter fun m => m.retryCount = 0

/-- The operation went over the message after its expiry: a pull by the consumer that
reached it in the log, or an expiration pass. -/
def WentOver (c : Consumer) (m : StoredMessage) (e : TopicEvent) : Prop :=
  ExpiredByPass m e ∨ ∃ maxMessages nowMs steadyNow,
    e.input = .pull c maxMessages nowMs steadyNow ∧ m ∈ e.pre.drainRingBuffer.messageLog ∧
      m.isExpired nowMs = true ∧ e.pre.startOffset c ≤ m.id ∧
      m.id < (e.pre.pull c maxMessages nowMs steadyNow).1.offset c

theorem firstDeliveries_concat (c : Consumer) (h : List TopicEvent) (e : TopicEvent) :
    firstDeliveries c (h ++ [e]) =
      firstDeliveries c h ++ (deliveredBy c e).filter fun m => m.retryCount = 0 := by
  simp [firstDeliveries]

namespace TopicData

variable {cfg : StoreConfig} {h : List TopicEvent} {td : TopicData}
  {drained waiting : List StoredMessage}

/-- What the first deliveries to one consumer satisfy. -/
structure FirstDeliveriesOk (c : Consumer) (h : List TopicEvent) (td : TopicData) : Prop where
  sublist : (firstDeliveries c h).Sublist (accepted h)
  below : ∀ m ∈ firstDeliveries c h, m.id < td.offset c
  missing : ∀ m ∈ accepted h, m.id < td.offset c →
    m ∈ firstDeliveries c h ∨ ∃ e ∈ h, WentOver c m e

/-- In a sorted list, what lies below a bound precedes the rest. -/
private theorem filter_append_filter {l : List StoredMessage} (hl : l.Pairwise (·.id < ·.id))
    (n : MessageId) : l.filter (fun m => m.id < n) ++ l.filter (fun m => n ≤ m.id) = l := by
  induction l with
  | nil => rfl
  | cons m l ih =>
    have ih := ih hl.of_cons
    by_cases hm : m.id < n
    · simp [hm, ih]
    · have hnone : l.filter (fun m => m.id < n) = [] := by
        rw [List.filter_eq_nil_iff]
        intro m' hm'
        have hlt : m.id < m'.id := List.rel_of_pairwise_cons hl hm'
        simpa using (not_lt.mp hm).trans hlt.le
      rw [hnone, List.nil_append] at ih
      simp [hm, hnone, ih, not_lt.mp hm]

/-- An operation that accepts nothing and returns nothing to the consumer leaves its first
deliveries as they were. -/
private theorem FirstDeliveriesOk.concat {c : Consumer} (hok : FirstDeliveriesOk c h td)
    {e : TopicEvent} {td' : TopicData} (hacc : acceptedMessage e = none)
    (hdel : deliveredBy c e = []) (hoffset : td'.offset c = td.offset c) :
    FirstDeliveriesOk c (h ++ [e]) td' := by
  have hfirst : firstDeliveries c (h ++ [e]) = firstDeliveries c h := by
    rw [firstDeliveries_concat, hdel]
    simp
  have haccepted : accepted (h ++ [e]) = accepted h := by
    rw [accepted_concat, hacc]
    simp
  refine ⟨?_, ?_, ?_⟩
  · rw [hfirst, haccepted]
    exact hok.sublist
  · rw [hfirst, hoffset]
    exact hok.below
  · rw [hfirst, haccepted, hoffset]
    intro m hm hlt
    exact (hok.missing m hm hlt).imp_right fun ⟨e', he', hover⟩ =>
      ⟨e', List.mem_append_left _ he', hover⟩

/-- A publish adds a message above every offset. -/
private theorem FirstDeliveriesOk.publish {c : Consumer} (hok : FirstDeliveriesOk c h td)
    (hc : Consistent h td drained waiting) (payload : Payload) (ttlMs : UInt32)
    (expiryNowMs nowMs : UInt64) :
    FirstDeliveriesOk c (h ++ [(topic cfg).event td (.publish payload ttlMs expiryNowMs nowMs)])
      ((topic cfg).step td (.publish payload ttlMs expiryNowMs nowMs)).1 := by
  set e := (topic cfg).event td (.publish payload ttlMs expiryNowMs nowMs) with he
  have hfirst : firstDeliveries c (h ++ [e]) = firstDeliveries c h := by
    rw [firstDeliveries_concat]
    exact List.append_nil _
  have hnew : ∀ m ∈ (acceptedMessage e).toList, m.id = td.nextMsgId :=
    fun m hm => id_of_acceptedMessage (Option.mem_toList.mp hm)
  refine ⟨?_, ?_, ?_⟩
  · rw [hfirst, accepted_concat]
    exact hok.sublist.trans (List.sublist_append_left _ _)
  · rw [hfirst]
    exact hok.below
  · rw [hfirst, accepted_concat]
    intro m hm hlt
    rcases List.mem_append.mp hm with hm | hm
    · refine (hok.missing m hm hlt).imp_right ?_
      rintro ⟨e', he', hover⟩
      exact ⟨e', List.mem_append_left _ he', hover⟩
    · exact absurd (hnew m hm ▸ hlt) (not_lt.mpr (hc.offset_next c))

/-- Of what a pull returns, exactly the messages of the log have retry count zero. -/
private theorem firstDeliveries_pull (hc : Consistent h td drained waiting) (hb : Bounded h)
    (c : Consumer) (maxMessages : UInt32) (nowMs : UInt64) (steadyNow : ℕ → ℤ) :
    let new := (dueMessages nowMs (td.startOffset c) td.drainRingBuffer.messageLog).take
      maxMessages.toNat
    firstDeliveries c (h ++ [(topic cfg).event td (.pull c maxMessages nowMs steadyNow)]) =
        firstDeliveries c h ++ new ∧
      ∀ m ∈ new, m.id < (td.pulledLog c maxMessages nowMs steadyNow).offset := by
  intro new
  have hd := hc.drain
  have hlog := hc.pulledLog_spec c maxMessages nowMs steadyNow hb
  obtain ⟨fromLog, fromQueue, hfromLog, hfromQueue, hmsgs⟩ :=
    td.pull_delivers c maxMessages nowMs steadyNow
  have hnew : fromLog = new := hfromLog.result_eq.symm.trans hlog.result_eq
  have hfresh : ∀ m ∈ fromLog, m.retryCount = 0 := fun m hm =>
    (hd.fresh m (hd.log_sublist.subset (hfromLog.mem_source m hm).1)).retryCount_eq
  have hretried : ∀ m ∈ fromQueue, ¬ m.retryCount = 0 := fun m hm =>
    Nat.one_le_iff_ne_zero.mp (hc.queue m (hfromQueue.mem_source m hm).1).1
  rw [← hnew]
  refine ⟨?_, fun m hm => hlog.pending_lt _ (hfromLog.mem_pending m hm)⟩
  rw [firstDeliveries_concat, deliveredBy_pull, hmsgs, List.filter_append,
    List.filter_eq_self.mpr (by simpa using hfresh),
    List.filter_eq_nil_iff.mpr (by simpa using hretried), List.append_nil]

/-- Below the start offset come the earlier deliveries, from it on the new ones. -/
private theorem FirstDeliveriesOk.sublist_pull {c : Consumer} (hok : FirstDeliveriesOk c h td)
    (hc : Consistent h td drained waiting) (maxMessages : ℕ) (nowMs : UInt64) :
    (firstDeliveries c h ++ (dueMessages nowMs (td.startOffset c)
      td.drainRingBuffer.messageLog).take maxMessages).Sublist (accepted h) := by
  set due := dueMessages nowMs (td.startOffset c) td.drainRingBuffer.messageLog with hdue
  rw [← filter_append_filter hc.sorted (td.startOffset c)]
  refine List.Sublist.append ?_ ?_
  · have hbelow : (firstDeliveries c h).filter (fun m => m.id < td.startOffset c)
        = firstDeliveries c h :=
      List.filter_eq_self.mpr fun m hm =>
        decide_eq_true (lt_of_lt_of_le (hok.below m hm) (hc.startOffset_le c).1)
    rw [← hbelow]
    exact hok.sublist.filter _
  · have hfrom : (due.take maxMessages).filter (fun m => td.startOffset c ≤ m.id) =
        due.take maxMessages := by
      refine List.filter_eq_self.mpr fun m hm => ?_
      have hmem := (List.mem_filter.mp (List.mem_of_mem_take hm)).2
      rw [Bool.and_eq_true] at hmem
      exact hmem.1
    rw [← hfrom]
    exact ((List.take_sublist _ _).trans
      (List.filter_sublist.trans hc.drain.log_sublist)).filter _

/-- What the offset of a pull has passed from the start on is delivered, or expired: the pull went
over it in the log, or it was gone from there. -/
private theorem passed_pull {c : Consumer} (hc : Consistent h td drained waiting) (hb : Bounded h)
    (maxMessages : UInt32) (nowMs : UInt64) (steadyNow : ℕ → ℤ) {m : StoredMessage}
    (hm : m ∈ accepted h) (hge : td.startOffset c ≤ m.id)
    (hlt : m.id < (td.pulledLog c maxMessages nowMs steadyNow).offset) :
    m ∈ (dueMessages nowMs (td.startOffset c) td.drainRingBuffer.messageLog).take
        maxMessages.toNat ∨
      m ∈ td.drainRingBuffer.messageLog ∧ m.isExpired nowMs = true ∨
      ∃ e ∈ h, ExpiredByPass m e := by
  have hd := hc.drain
  have hlog := hc.pulledLog_spec c maxMessages nowMs steadyNow hb
  set due := dueMessages nowMs (td.startOffset c) td.drainRingBuffer.messageLog with hdue
  have hleft : dueMessages nowMs (td.pulledLog c maxMessages nowMs steadyNow).offset
      td.drainRingBuffer.messageLog = due.drop maxMessages.toNat := hlog.due_eq
  -- the new offset lies behind a drained message, so this one was drained as well
  have hdrained : m ∈ drained ++ waiting.takeWhile StoredMessage.poppable := by
    rcases hlog.offset_cases with heq | ⟨m', hm', heq⟩
    · exact absurd (lt_of_lt_of_eq hlt heq) (not_lt.mpr hge)
    · exact hd.mem_drained hm (hd.log.subset hm') (Nat.le_of_lt_succ (lt_of_lt_of_eq hlt heq))
  rcases hd.gone m hdrained with hinlog | hgone
  swap
  · exact .inr (.inr hgone)
  cases hexp : m.isExpired nowMs with
  | true => exact .inr (.inl ⟨hinlog, rfl⟩)
  | false =>
    have hmem : m ∈ due := by
      rw [hdue, dueMessages, List.mem_filter]
      exact ⟨hinlog, by simp [hge, hexp]⟩
    rw [← List.take_append_drop maxMessages.toNat due, List.mem_append, ← hleft] at hmem
    rcases hmem with hmem | hmem
    · exact .inl hmem
    · have hbehind := (List.mem_filter.mp hmem).2
      rw [Bool.and_eq_true, decide_eq_true_eq] at hbehind
      exact absurd hlt (not_lt.mpr hbehind.1)

/-- A pull by the consumer delivers the live messages between the old and the new offset. -/
private theorem FirstDeliveriesOk.pull {c : Consumer} (hok : FirstDeliveriesOk c h td)
    (hc : Consistent h td drained waiting) (hb : Bounded h) (maxMessages : UInt32)
    (nowMs : UInt64) (steadyNow : ℕ → ℤ) :
    FirstDeliveriesOk c (h ++ [(topic cfg).event td (.pull c maxMessages nowMs steadyNow)])
      ((topic cfg).step td (.pull c maxMessages nowMs steadyNow)).1 := by
  set e := (topic cfg).event td (.pull c maxMessages nowMs steadyNow) with he
  have hstart := (hc.startOffset_le c).1
  have hlog := hc.pulledLog_spec c maxMessages nowMs steadyNow hb
  have hoffset := td.pull_offset c maxMessages nowMs steadyNow
  obtain ⟨hfirst, hlt_offset⟩ := firstDeliveries_pull hc hb c maxMessages nowMs steadyNow
  have haccepted : accepted (h ++ [e]) = accepted h := by
    rw [accepted_concat]
    exact List.append_nil _
  have hstep : ((topic cfg).step td (.pull c maxMessages nowMs steadyNow)).1.offset c =
      (td.pulledLog c maxMessages nowMs steadyNow).offset := hoffset
  refine ⟨?_, ?_, ?_⟩
  · rw [hfirst, haccepted]
    exact hok.sublist_pull hc maxMessages.toNat nowMs
  · rw [hfirst, hstep]
    intro m hm
    rcases List.mem_append.mp hm with hm | hm
    · exact lt_of_lt_of_le (hok.below m hm) (hstart.trans hlog.offset_le)
    · exact hlt_offset m hm
  · rw [hfirst, haccepted, hstep]
    intro m hm hlt
    rcases lt_or_ge m.id (td.offset c) with hold | hge
    · rcases hok.missing m hm hold with hmem | ⟨e', he', hover⟩
      · exact .inl (List.mem_append_left _ hmem)
      · exact .inr ⟨e', List.mem_append_left _ he', hover⟩
    have hge' : td.startOffset c ≤ m.id := by
      rw [startOffset]
      split
      · exact hc.id_pos m hm
      · exact hge
    rcases passed_pull hc hb maxMessages nowMs steadyNow hm hge' hlt with
      hmem | ⟨hinlog, hexp⟩ | ⟨e', he', hexp⟩
    · exact .inl (List.mem_append_right _ hmem)
    · exact .inr ⟨e, by simp, .inr ⟨maxMessages, nowMs, steadyNow, rfl, hinlog, hexp, hge',
        lt_of_lt_of_eq hlt hoffset.symm⟩⟩
    · exact .inr ⟨e', List.mem_append_left _ he', .inl hexp⟩

/-- Every operation keeps the first deliveries right. -/
theorem FirstDeliveriesOk.step {c : Consumer} (hok : FirstDeliveriesOk c h td)
    (hc : Consistent h td drained waiting) (hb : Bounded h) (op : TopicOp) :
    FirstDeliveriesOk c (h ++ [(topic cfg).event td op]) ((topic cfg).step td op).1 := by
  cases op with
  | publish payload ttlMs expiryNowMs nowMs => exact hok.publish hc payload ttlMs expiryNowMs nowMs
  | pull c' maxMessages nowMs steadyNow =>
    rcases eq_or_ne c c' with rfl | hne
    · exact hok.pull hc hb maxMessages nowMs steadyNow
    · exact hok.concat rfl (deliveredBy_pull_ne td (Ne.symm hne) maxMessages nowMs steadyNow)
        (td.pull_offset_ne c' maxMessages nowMs steadyNow hne)
  | ack c' msgId =>
    obtain ⟨pendingAcks, hframe⟩ := ack_frame td c' msgId
    exact hok.concat rfl rfl (congrArg (fun td => td.offset c) hframe)
  | retryPass clock order => exact hok.concat rfl rfl rfl
  | expirePass nowMs => exact hok.concat rfl rfl rfl

/-! ### The ring buffer bounds what is accepted -/

/-- The number of cells never changes. -/
theorem capacity_run (cfg : StoreConfig) (td : TopicData) (ops : List TopicOp) :
    ((topic cfg).run td ops).ringBuffer.capacity = td.ringBuffer.capacity := by
  refine (topic cfg).run_induction (P := fun td' => td'.ringBuffer.capacity
    = td.ringBuffer.capacity) rfl ?_ ops
  intro td' op ih
  rw [← ih]
  cases op with
  | publish payload ttlMs expiryNowMs nowMs => exact td'.ringBuffer.push_capacity _
  | pull c maxMessages nowMs steadyNow =>
    refine (congrArg _ (td'.pull_ringBuffer c maxMessages nowMs steadyNow)).trans ?_
    exact drainLoop_capacity _ _ _
  | ack c msgId =>
    obtain ⟨pendingAcks, hframe⟩ := ack_frame td' c msgId
    exact congrArg (fun td => td.ringBuffer.capacity) hframe
  | retryPass clock order => rfl
  | expirePass nowMs => rfl

/-- A record that was pushed fits the ring buffer. -/
theorem length_lt_of_push {rb : SpscRingBuffer} {data : List UInt8}
    (hok : (rb.push data).2 = true) : data.length < rb.capacity := by
  have hpos := Nat.zero_lt_of_lt rb.head_lt
  rw [SpscRingBuffer.push, SpscRingBuffer.pushLoad] at hok
  split at hok
  · cases hok
  · rename_i hload
    split at hload
    · cases hload
    · rename_i hsize
      omega

/-- An accepted message with its header fits the ring buffer. -/
theorem accepted_size_lt (cfg : StoreConfig) (topicName : TopicName) (bufferSize : ℕ)
    (ops : List TopicOp) {m : StoredMessage}
    (hm : m ∈ accepted ((topic cfg).trace (ofName topicName bufferSize) ops)) :
    kRecordHeaderSize + m.payload.length ≤ bufferSize := by
  obtain ⟨e, he, hacc⟩ := List.mem_filterMap.mp hm
  obtain ⟨before, -, -, hevent⟩ := (topic cfg).mem_trace he
  have hcap := capacity_run cfg (ofName topicName bufferSize) before
  set td := (topic cfg).run (ofName topicName bufferSize) before
  rw [hevent] at hacc
  cases hin : e.input with
  | publish payload ttlMs expiryNowMs nowMs =>
    rw [hin] at hacc
    set data := serialize td.nextMsgId nowMs.toNat (expiresAt ttlMs expiryNowMs) payload with hdata
    have hout : ((topic cfg).event td (.publish payload ttlMs expiryNowMs nowMs)).output
        = .published td.nextMsgId (td.ringBuffer.push data).2 := rfl
    simp only [acceptedMessage, hout, StepMachine.event_input] at hacc
    split at hacc
    · rename_i heq₁ heq₂
      cases heq₁
      obtain ⟨-, hok⟩ := TopicResult.published.inj heq₂
      rw [Option.some_inj] at hacc
      have hlt := length_lt_of_push hok
      rw [hcap, hdata, length_serialize] at hlt
      rw [← hacc]
      exact Nat.le_of_lt_succ hlt
    · cases hacc
  | _ =>
    rw [hin] at hacc
    cases hacc

/-- With a ring buffer no larger than the payload limit, the number of publishes is the
only bound. -/
theorem bounded_of_publishes {cfg : StoreConfig} {bufferSize : ℕ}
    (hbuffer : bufferSize ≤ kMaxPayloadSize) (topicName : TopicName) {ops : List TopicOp}
    (hpublishes : publishes ops < 2 ^ 64 - 2) :
    Bounded ((topic cfg).trace (ofName topicName bufferSize) ops) where
  publishes_lt := by
    rw [publishCount, StepMachine.trace_map_input]
    exact hpublishes
  size_lt m hm := by
    have hle := accepted_size_lt cfg topicName bufferSize ops hm
    have hlimit : kMaxPayloadSize < 2 ^ 32 := by decide
    omega

/-! ### Whole runs -/

/-- After every run within the bounds the first deliveries are right. -/
theorem firstDeliveriesOk_run (cfg : StoreConfig) (topicName : TopicName)
    (hbuffer : cfg.defaultBufferSize ≤ kMaxPayloadSize) (ops : List TopicOp)
    (hpublishes : publishes ops < 2 ^ 64 - 2) (c : Consumer) :
    (∃ drained waiting, Consistent
        ((topic cfg).trace (ofName topicName cfg.defaultBufferSize) ops)
        ((topic cfg).run (ofName topicName cfg.defaultBufferSize) ops) drained waiting) ∧
      FirstDeliveriesOk c ((topic cfg).trace (ofName topicName cfg.defaultBufferSize) ops)
        ((topic cfg).run (ofName topicName cfg.defaultBufferSize) ops) := by
  refine (topic cfg).history_induction
    (P := fun h td => Bounded h → (∃ drained waiting, Consistent h td drained waiting) ∧
      FirstDeliveriesOk c h td) (fun _ => ?_) ?_ ops
    (bounded_of_publishes hbuffer topicName hpublishes)
  · refine ⟨⟨[], [], consistent_ofName topicName cfg.defaultBufferSize⟩, ?_⟩
    exact ⟨.slnil, by simp [firstDeliveries], by simp [accepted]⟩
  · intro h td op ih hb
    obtain ⟨⟨drained, waiting, hc⟩, hok⟩ := ih hb.of_concat
    exact ⟨hc.step op hb, hok.step hc hb.of_concat op⟩

/-- A consumer gets no message with retry count zero twice. -/
theorem nodup_firstDeliveries (cfg : StoreConfig) (topicName : TopicName)
    (hbuffer : cfg.defaultBufferSize ≤ kMaxPayloadSize) (ops : List TopicOp)
    (hpublishes : publishes ops < 2 ^ 64 - 2) (c : Consumer) :
    ((firstDeliveries c ((topic cfg).trace (ofName topicName cfg.defaultBufferSize) ops)).map
      StoredMessage.id).Nodup := by
  obtain ⟨⟨drained, waiting, hc⟩, hok⟩ :=
    firstDeliveriesOk_run cfg topicName hbuffer ops hpublishes c
  have hsorted := List.pairwise_map.mpr (hc.sorted.sublist hok.sublist)
  exact hsorted.imp fun hlt => ne_of_lt hlt

/-- **First deliveries are exact.** Over every run within the bounds, what a consumer got
with retry count zero is a part of what was accepted, in order and with distinct
identifiers; a message below its offset that it did not get had expired when a pull of its
own or an expiration pass went over it. -/
theorem firstDeliveries_exact (cfg : StoreConfig) (topicName : TopicName)
    (hbuffer : cfg.defaultBufferSize ≤ kMaxPayloadSize) (ops : List TopicOp)
    (hpublishes : publishes ops < 2 ^ 64 - 2) (c : Consumer) :
    let h := (topic cfg).trace (ofName topicName cfg.defaultBufferSize) ops
    let td := (topic cfg).run (ofName topicName cfg.defaultBufferSize) ops
    (firstDeliveries c h).Sublist (accepted h) ∧
    ((firstDeliveries c h).map StoredMessage.id).Nodup ∧
    ∀ m ∈ accepted h, m.id < td.offset c → m ∉ firstDeliveries c h →
      ∃ e ∈ h, WentOver c m e := by
  intro h td
  obtain ⟨-, hok⟩ := firstDeliveriesOk_run cfg topicName hbuffer ops hpublishes c
  refine ⟨hok.sublist, nodup_firstDeliveries cfg topicName hbuffer ops hpublishes c, ?_⟩
  exact fun m hm hlt hnot => (hok.missing m hm hlt).resolve_left hnot

/-- A run in which a subscriber is handed a message that timed out at a group of the same
name, after its own first delivery of it, and never gets one that expired. -/
theorem firstDeliveries_exact_shared_name :
    let cfg : StoreConfig := { defaultBufferSize := 128 }
    let c : Consumer := ⟨false, "a"⟩
    let ops : List TopicOp := [
      .publish [7] 0 5 5, .pull ⟨true, "a"⟩ 10 6 fun _ => 0, .pull c 1 6 fun _ => 0, .ack c 1,
      .publish [8] 1 6 6, .retryPass ⟨10 ^ 10, 7⟩ .canonical, .publish [9] 0 8 8,
      .pull c 10 9 fun _ => 10 ^ 10]
    let h := (topic cfg).trace (ofName "t" 128) ops
    (firstDeliveries c h).map StoredMessage.id = [1, 3] ∧
      (firstDeliveries c h).Sublist (accepted h) :=
  ⟨by decide +kernel,
    (firstDeliveries_exact { defaultBufferSize := 128 } "t" (by decide) _ (by decide) _).1⟩

end TopicData

end ProtoMsgQueue
