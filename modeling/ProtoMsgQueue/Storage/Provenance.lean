import ProtoMsgQueue.Storage.TopicAt

/-!
# Where the messages of a topic come from

`Sourced src` says that everything a topic holds, in its ring buffer, its log, its retry queue
and its pending entries, has an identifier and a payload that `src` allows. Every operation
keeps it if what it accepts is allowed, and a pull returns only what is allowed. So what a store
returns was published to it, under the same topic and identifier and with the same payload.
-/

namespace ProtoMsgQueue

open UnorderedMap

namespace TopicData

variable {src src' : MessageId → Payload → Prop} {td : TopicData}

/-- Everything in the topic is from `src`. -/
structure Sourced (src : MessageId → Payload → Prop) (td : TopicData) : Prop where
  capacity_le : td.ringBuffer.capacity ≤ 2 ^ 32
  next_lt : td.nextMsgId < 2 ^ 64
  ring : ∃ (H : ℕ) (waiting : List StoredMessage),
    td.ringBuffer.Holds H (waiting.map StoredMessage.record) ∧
      ∀ m ∈ waiting, m.Fresh ∧ src m.id m.payload
  log : ∀ m ∈ td.messageLog, src m.id m.payload
  queue : ∀ m ∈ td.retryQueue, src m.id m.payload
  pending : ∀ key id p, (td.pendingOf key).lookup id = some p → src p.msg.id p.msg.payload

theorem sourced_ofName (src : MessageId → Payload → Prop) (topicName : TopicName) {bufferSize : ℕ}
    (hbuffer : bufferSize < 2 ^ 32) : Sourced src (ofName topicName bufferSize) where
  capacity_le := hbuffer
  next_lt := (by decide : 1 < 2 ^ 64)
  ring := ⟨0, [], SpscRingBuffer.holds_ofCapacity bufferSize, by simp⟩
  log := by simp [ofName]
  queue := by simp [ofName]
  pending key id p hp := by cases hp

namespace Sourced

theorem mono (h : Sourced src td) (hsrc : ∀ id payload, src id payload → src' id payload) :
    Sourced src' td := by
  obtain ⟨H, waiting, hholds, hwaiting⟩ := h.ring
  exact
    { h with
      ring := ⟨H, waiting, hholds, fun m hm => ⟨(hwaiting m hm).1, hsrc _ _ (hwaiting m hm).2⟩⟩
      log := fun m hm => hsrc _ _ (h.log m hm)
      queue := fun m hm => hsrc _ _ (h.queue m hm)
      pending := fun key id p hp => hsrc _ _ (h.pending key id p hp) }

/-- A publish adds the message it accepts. -/
theorem publish (h : Sourced src td) (payload : Payload) (ttlMs : UInt32)
    (expiryNowMs nowMs : UInt64)
    (hnew : (td.publish payload ttlMs expiryNowMs nowMs).2.2 = true → src td.nextMsgId payload) :
    Sourced src (td.publish payload ttlMs expiryNowMs nowMs).1 := by
  obtain ⟨H, waiting, hholds, hwaiting⟩ := h.ring
  have hring := publish_holds hholds payload ttlMs expiryNowMs nowMs
  refine
    { h with
      capacity_le := ?_
      next_lt := Nat.mod_lt _ (by decide)
      ring := ?_ }
  · refine le_of_eq_of_le ?_ h.capacity_le
    exact SpscRingBuffer.push_capacity _ _
  dsimp only at hring
  split at hring
  · -- accepted: the record fits the buffer, so its size field does not wrap
    rename_i hroom
    obtain ⟨htrue, hholds'⟩ := hring
    have hsize : kRecordHeaderSize + payload.length < 2 ^ 32 := by
      have hcapacity := h.capacity_le
      rw [hholds.getWritableSize_eq] at hroom
      omega
    refine ⟨H, _, hholds', fun m' hm' => ?_⟩
    rcases List.mem_append.mp hm' with hm' | hm'
    · exact hwaiting m' hm'
    · rw [List.mem_singleton.mp hm']
      exact ⟨fresh_published h.next_lt hsize _ _ _, hnew htrue⟩
  · -- rejected: only the identifier is gone
    obtain ⟨-, hsame⟩ := hring
    exact ⟨H, waiting, hsame ▸ hholds, hwaiting⟩

/-- Draining moves messages from the ring buffer to the log. -/
theorem drain (h : Sourced src td) : Sourced src td.drainRingBuffer := by
  obtain ⟨H, waiting, hholds, hwaiting⟩ := h.ring
  obtain ⟨⟨H', hholds'⟩, hlog⟩ := drainRingBuffer_eq hholds fun m hm => (hwaiting m hm).1
  exact
    { h with
      capacity_le := by
        have hcap : td.drainRingBuffer.ringBuffer.capacity = td.ringBuffer.capacity :=
          drainLoop_capacity _ _ _
        rw [hcap]
        exact h.capacity_le
      ring := ⟨H', _, hholds', fun m hm => hwaiting m ((List.dropWhile_sublist _).subset hm)⟩
      log := fun m hm => by
        rw [hlog] at hm
        rcases List.mem_append.mp hm with hm | hm
        · exact h.log m hm
        · exact (hwaiting m ((List.takeWhile_sublist _).subset hm)).2 }

section Pull

variable (c : Consumer) (maxMessages : UInt32) (nowMs : UInt64) (steadyNow : ℕ → ℤ)

/-- What a pull returns is from `src`. -/
theorem of_mem_pull (h : Sourced src td) {m : StoredMessage}
    (hm : m ∈ (td.pull c maxMessages nowMs steadyNow).2) : src m.id m.payload := by
  obtain ⟨fromLog, fromQueue, hfromLog, hfromQueue, hmsgs⟩ :=
    td.pull_delivers c maxMessages nowMs steadyNow
  rw [hmsgs] at hm
  rcases List.mem_append.mp hm with hm | hm
  · exact h.drain.log m (hfromLog.mem_source m hm).1
  · exact h.queue m (hfromQueue.mem_source m hm).1

theorem pull (h : Sourced src td) : Sourced src (td.pull c maxMessages nowMs steadyNow).1 where
  capacity_le := by rw [pull_ringBuffer]; exact h.drain.capacity_le
  next_lt := by rw [pull_nextMsgId]; exact h.next_lt
  ring := by rw [pull_ringBuffer]; exact h.drain.ring
  log := by rw [pull_messageLog]; exact h.drain.log
  queue m hm := h.queue m ((retryQueue_pull_sublist td c maxMessages nowMs steadyNow).subset hm)
  pending key id p hp := by
    rcases td.pull_lookup c maxMessages nowMs steadyNow hp with hp | ⟨-, -, hmem, -⟩
    · exact h.pending key id p hp
    · exact h.of_mem_pull c maxMessages nowMs steadyNow hmem

end Pull

/-- **Every operation** keeps what `src` allows, if what it accepts is allowed. -/
theorem step (h : Sourced src td) {cfg : StoreConfig} (op : TopicOp)
    (hnew : ∀ m, acceptedMessage ((topic cfg).event td op) = some m → src m.id m.payload) :
    Sourced src ((topic cfg).step td op).1 := by
  cases op with
  | publish payload ttlMs expiryNowMs nowMs =>
    refine h.publish payload ttlMs expiryNowMs nowMs fun hok => ?_
    have hout : ((topic cfg).event td (.publish payload ttlMs expiryNowMs nowMs)).output =
        .published td.nextMsgId true := by
      rw [← hok]
      rfl
    exact hnew ⟨td.nextMsgId, "", payload, nowMs.toNat, 0, expiresAt ttlMs expiryNowMs⟩
      (by simp only [acceptedMessage, StepMachine.event_input, hout])
  | pull c maxMessages nowMs steadyNow => exact h.pull c maxMessages nowMs steadyNow
  | ack c msgId =>
    have hpending : ∀ key id p, ((td.ack c msgId).1.pendingOf key).lookup id = some p →
        (td.pendingOf key).lookup id = some p :=
      fun key id p hp => ((ack_lookup td c msgId key id p).mp hp).1
    obtain ⟨pendingAcks, hframe⟩ := ack_frame td c msgId
    change Sourced src (td.ack c msgId).1
    rw [hframe] at hpending ⊢
    exact { h with pending := fun key id p hp => h.pending key id p (hpending key id p hp) }
  | retryPass clock order =>
    have hqueue := (processPendingRetries_spec cfg clock order td).2.1
    have hlookup := processPendingRetries_lookup cfg clock order td
    exact
      { h with
        queue := fun m hm => by
          change m ∈ (td.processPendingRetries cfg clock order).1.retryQueue at hm
          rw [hqueue] at hm
          rcases mem_requeueAll hm with hm | ⟨d, hd, rfl⟩
          · exact h.queue m hm
          · exact h.pending d.key d.msgId d.pending
              (mem_duePass.mp (List.mem_filter.mp hd).1).1
        pending := fun key id p hp => h.pending key id p ((hlookup key id p).mp hp).1 }
  | expirePass nowMs =>
    have hlookup := expireTopicMessages_lookup td nowMs
    exact
      { h with
        log := fun m hm => h.log m (List.mem_filter.mp hm).1
        queue := fun m hm => h.queue m (List.mem_filter.mp hm).1
        pending := fun key id p hp => h.pending key id p ((hlookup key id p).mp hp).1 }

end Sourced

end TopicData

namespace MemoryMessageStore

variable {store : MemoryMessageStore} {published : List (TopicName × MessageId × Payload)}

/-- Everything in the topics of a store was published to them. -/
def Sourced (published : List (TopicName × MessageId × Payload)) (store : MemoryMessageStore) :
    Prop :=
  ∀ t, (store.topicAt t).Sourced fun id payload => (t, id, payload) ∈ published

theorem sourced_ofConfig {config : StoreConfig} (hbuffer : config.defaultBufferSize < 2 ^ 32) :
    Sourced published (ofConfig config) :=
  fun t => TopicData.sourced_ofName _ t hbuffer

/-- **A step of the store** adds what it accepts. -/
theorem Sourced.step (h : Sourced published store)
    (hbuffer : store.config.defaultBufferSize < 2 ^ 32) (op : StoreOp) :
    Sourced (published ++ (StoreEvent.published? (messageStore.event store op)).toList)
      (messageStore.step store op).1 := by
  intro t
  have hmono : (store.topicAt t).Sourced fun id payload => (t, id, payload) ∈
      published ++ (StoreEvent.published? (messageStore.event store op)).toList :=
    (h t).mono fun _ _ => List.mem_append_left _
  by_cases hdelete : op = .deleteTopic t
  · rw [hdelete, topicAt_step_deleteTopic]
    exact TopicData.sourced_ofName _ t hbuffer
  rcases hon : op.onTopic? t with - | top
  · rw [topicAt_step_other store hon hdelete]
    exact hmono
  obtain rfl := StoreOp.onTopic?_eq_some.mp hon
  by_cases hmade : t ∈ store.topics ∨ top.isPublish = true
  · obtain ⟨htopic, hout⟩ := topicAt_step_onTopic store hmade
    rw [htopic]
    refine hmono.step top fun m hm => List.mem_append_right _ ?_
    rw [published?_onTopic store hout, hm]
    exact List.mem_singleton_self _
  · rw [step_onTopic_unmade hmade]
    exact hmono

/-- What a pull returns was published to the topic. -/
theorem Sourced.of_mem_pull (h : Sourced published store) {t : TopicName} {c : Consumer}
    {maxMessages : UInt32} {nowMs : UInt64} {steadyNow : ℕ → ℤ} {m : StoredMessage}
    (hm : m ∈ (store.pull t c maxMessages nowMs steadyNow).2) :
    (t, m.id, m.payload) ∈ published := by
  rw [MemoryMessageStore.pull] at hm
  rcases hlookup : store.topics.lookup t with - | td
  · rw [hlookup] at hm
    cases hm
  · rw [hlookup] at hm
    have ht := h t
    rw [store.topicAt_of_lookup hlookup] at ht
    exact ht.of_mem_pull c maxMessages nowMs steadyNow hm

/-- **Provenance.** In a run of the store everything stays what was published. -/
theorem Sourced.run (h : Sourced published store)
    (hbuffer : store.config.defaultBufferSize < 2 ^ 32) (ops : List StoreOp) :
    Sourced (published ++ (messageStore.trace store ops).filterMap StoreEvent.published?)
      (messageStore.run store ops) := by
  induction ops generalizing store published with
  | nil => simpa using h
  | cons op ops ih =>
    have hrest := ih (h.step hbuffer op) ((config_step store op).symm ▸ hbuffer)
    have htrace : messageStore.trace store (op :: ops) = messageStore.trace store [op] ++
        messageStore.trace (messageStore.step store op).1 ops := rfl
    rw [htrace, List.filterMap_append, published?_trace_singleton, ← List.append_assoc]
    exact hrest

end MemoryMessageStore

end ProtoMsgQueue
