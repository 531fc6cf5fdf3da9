import ProtoMsgQueue.Storage.Passes
import ProtoMsgQueue.Storage.Pull

/-!
# Deliveries, acknowledgements and dead letters

What a consumer observes of a run, and two facts about every topic, however large its ring
buffer and however long the run: a pending entry is filed under the identifier of its
message, and the retry queue has at most one record of a message. `takesRetry` is the
branch of the loop over the retry queue that hands a record to the pulling consumer.
-/

namespace ProtoMsgQueue

open UnorderedMap

/-- The messages an operation returned to a consumer. -/
def deliveredBy (c : Consumer) (e : TopicEvent) : List StoredMessage :=
  match e.input, e.output with
  | .pull c' _ _ _, .pulled msgs => if c' = c then msgs else []
  | _, _ => []

/-- A pull by the consumer returned the message. -/
def delivered (c : Consumer) (m : MessageId) (e : TopicEvent) : Bool :=
  (deliveredBy c e).any fun r => r.id = m

/-- An acknowledgement by the consumer for the message returned true. -/
def acked (c : Consumer) (m : MessageId) (e : TopicEvent) : Bool :=
  match e.input, e.output with
  | .ack c' msgId, .acked true => c' = c && msgId = m
  | _, _ => false

/-- A retry pass moved the message to the dead-letter queue because of the consumer's own
pending entry. -/
def deadLettered (cfg : StoreConfig) (c : Consumer) (m : MessageId) (e : TopicEvent) : Bool :=
  match e.input, e.output with
  | .retryPass clock _, .retried dlq =>
    match (e.pre.pendingOf c.key).lookup m with
    | some p => TopicData.timedOut cfg clock.steadyNow p &&
        TopicData.Due.dead cfg clock ⟨c.key, m, p⟩ && decide (p.msg ∈ dlq)
    | none => false
  | _, _ => false

theorem deliveredBy_pull {cfg : StoreConfig} (td : TopicData) (c : Consumer)
    (maxMessages : UInt32) (nowMs : UInt64) (steadyNow : ℕ → ℤ) :
    deliveredBy c ((topic cfg).event td (.pull c maxMessages nowMs steadyNow)) =
      (td.pull c maxMessages nowMs steadyNow).2 :=
  if_pos rfl

theorem deliveredBy_pull_ne {cfg : StoreConfig} (td : TopicData) {c d : Consumer} (h : d ≠ c)
    (maxMessages : UInt32) (nowMs : UInt64) (steadyNow : ℕ → ℤ) :
    deliveredBy c ((topic cfg).event td (.pull d maxMessages nowMs steadyNow)) = [] :=
  if_neg h

namespace TopicData

/-- Entries are filed under the identifiers of their messages, and a message has at most
one retry record. -/
structure Keyed (td : TopicData) : Prop where
  pending_id : ∀ key id p, (td.pendingOf key).lookup id = some p → p.msg.id = id
  nodup_queue : (td.retryQueue.map StoredMessage.id).Nodup

theorem keyed_ofName (topicName : TopicName) (bufferSize : ℕ) :
    (ofName topicName bufferSize).Keyed :=
  ⟨fun _ _ _ hp => (nomatch hp), List.nodup_nil⟩

/-- The timed-out entries of a pass are filed under the identifiers of their messages. -/
theorem Keyed.due_id {td : TopicData} (hk : td.Keyed) {cfg : StoreConfig} {clock : PassClock}
    {order : PassOrder} : ∀ d ∈ duePass cfg clock order td, d.pending.msg.id = d.msgId :=
  fun _ hd => hk.pending_id _ _ _ (mem_duePass.mp hd).1

/-- Every operation keeps the entries filed. -/
theorem Keyed.step {cfg : StoreConfig} {td : TopicData} (hk : td.Keyed) (op : TopicOp) :
    ((topic cfg).step td op).1.Keyed := by
  cases op with
  | publish payload ttlMs expiryNowMs nowMs => exact ⟨hk.pending_id, hk.nodup_queue⟩
  | pull c maxMessages nowMs steadyNow =>
    obtain ⟨-, hkept, -⟩ := pullRetry_spec ⟨c.key, maxMessages, nowMs, steadyNow⟩
      td.retryQueue (td.pulledLog c maxMessages nowMs steadyNow)
    refine ⟨fun key id p hp => ?_, hk.nodup_queue.sublist (hkept.map _)⟩
    change ((td.pull c maxMessages nowMs steadyNow).1.pendingOf key).lookup id = some p at hp
    rcases td.pull_lookup c maxMessages nowMs steadyNow hp with hp | ⟨-, hid, -⟩
    · exact hk.pending_id key id p hp
    · exact hid
  | ack c msgId =>
    obtain ⟨pendingAcks, hframe⟩ := ack_frame td c msgId
    refine ⟨fun key id p hp => ?_, ?_⟩
    · exact hk.pending_id key id p ((ack_lookup td c msgId key id p).mp hp).1
    · change ((td.ack c msgId).1.retryQueue.map StoredMessage.id).Nodup
      rw [hframe]
      exact hk.nodup_queue
  | retryPass clock order =>
    refine ⟨fun key id p hp => ?_, ?_⟩
    · exact hk.pending_id key id p ((processPendingRetries_lookup cfg clock order td key id p).mp hp).1
    · change ((td.processPendingRetries cfg clock order).1.retryQueue.map StoredMessage.id).Nodup
      rw [(processPendingRetries_spec cfg clock order td).2.1]
      exact nodup_requeueAll (fun d hd => hk.due_id d (List.mem_filter.mp hd).1) hk.nodup_queue
  | expirePass nowMs =>
    refine ⟨fun key id p hp => ?_, hk.nodup_queue.sublist (List.filter_sublist.map _)⟩
    exact hk.pending_id key id p ((expireTopicMessages_lookup td nowMs key id p).mp hp).1

/-- A successful acknowledgement was one of a pending message. -/
theorem input_of_acked {cfg : StoreConfig} {td : TopicData} {c : Consumer} {m : MessageId}
    {op : TopicOp} (hack : acked c m ((topic cfg).event td op) = true) :
    op = .ack c m ∧ m ∈ td.pendingOf c.key := by
  cases op with
  | ack d msgId =>
    have hout : ((topic cfg).event td (.ack d msgId)).output = .acked (td.ack d msgId).2 := rfl
    rw [acked, hout, ack_result] at hack
    by_cases hmem : msgId ∈ td.pendingOf d.key
    · simp only [hmem, decide_true, StepMachine.event_input, Bool.and_eq_true,
        decide_eq_true_eq] at hack
      obtain ⟨rfl, rfl⟩ := hack
      exact ⟨rfl, hmem⟩
    · simp [hmem] at hack
  | _ => cases hack

/-! ### Pulls -/

section Pull

variable (td : TopicData) (c : Consumer) (maxMessages : UInt32) (nowMs : UInt64)
  (steadyNow : ℕ → ℤ)

/-- A pull only adds pending entries of its consumer. -/
theorem mem_pendingOf_pull {m : MessageId} (h : m ∈ td.pendingOf c.key) :
    m ∈ (td.pull c maxMessages nowMs steadyNow).1.pendingOf c.key := by
  obtain ⟨fromLog, fromQueue, hfromLog, hfromQueue, -⟩ :=
    td.pull_delivers c maxMessages nowMs steadyNow
  exact hfromQueue.mem_mono (hfromLog.mem_mono h)

/-- What a pull returns is pending afterwards. -/
theorem mem_pendingOf_of_pulled {r : StoredMessage}
    (h : r ∈ (td.pull c maxMessages nowMs steadyNow).2) :
    r.id ∈ (td.pull c maxMessages nowMs steadyNow).1.pendingOf c.key := by
  obtain ⟨fromLog, fromQueue, hfromLog, hfromQueue, hmsgs⟩ :=
    td.pull_delivers c maxMessages nowMs steadyNow
  rw [hmsgs] at h
  rcases List.mem_append.mp h with h | h
  · exact hfromQueue.mem_mono (hfromLog.mem_pending r h)
  · exact hfromQueue.mem_pending r h

/-- A retry record that a pull meets stays, expires or becomes pending. -/
theorem retryQueue_pull {r : StoredMessage} (h : r ∈ td.retryQueue) :
    r ∈ (td.pull c maxMessages nowMs steadyNow).1.retryQueue ∨ r.isExpired nowMs = true ∨
      r.id ∈ (td.pull c maxMessages nowMs steadyNow).1.pendingOf c.key :=
  (pullRetry_spec ⟨c.key, maxMessages, nowMs, steadyNow⟩ td.retryQueue
    (td.pulledLog c maxMessages nowMs steadyNow)).2.2.1 r h

/-- A pull adds nothing to the retry queue. -/
theorem retryQueue_pull_sublist :
    (td.pull c maxMessages nowMs steadyNow).1.retryQueue.Sublist td.retryQueue :=
  (pullRetry_spec ⟨c.key, maxMessages, nowMs, steadyNow⟩ td.retryQueue
    (td.pulledLog c maxMessages nowMs steadyNow)).2.1

end Pull

/-! ### Taking a retry record -/

/-- Does the loop over the retry queue reach the branch that delivers a record of the
message? The case distinctions are those of `pullRetry`. -/
def takesRetryLoop (args : PullArgs) (m : MessageId) : List StoredMessage → PullState → Bool
  | [], _ => false
  | msg :: queue, st =>
    if st.full args then false
    else if msg.isExpired args.nowMs then takesRetryLoop args m queue st
    else
      let st := st.touchPending args
      if msg.id ∈ st.pendingMap args then takesRetryLoop args m queue st
      else msg.id = m || takesRetryLoop args m queue (st.deliver args msg)

/-- Does a pull take a record of the message from the retry queue? -/
def takesRetry (td : TopicData) (c : Consumer) (maxMessages : UInt32) (nowMs : UInt64)
    (steadyNow : ℕ → ℤ) (m : MessageId) : Bool :=
  takesRetryLoop ⟨c.key, maxMessages, nowMs, steadyNow⟩ m td.retryQueue
    (td.pulledLog c maxMessages nowMs steadyNow)

/-- Only a record of the queue is taken. -/
private theorem exists_mem_of_takesRetryLoop {args : PullArgs} {m : MessageId}
    {queue : List StoredMessage} {st : PullState} (h : takesRetryLoop args m queue st = true) :
    ∃ r ∈ queue, r.id = m := by
  induction queue generalizing st with
  | nil => cases h
  | cons msg queue ih =>
    have lift : (∃ r ∈ queue, r.id = m) → ∃ r ∈ msg :: queue, r.id = m :=
      fun ⟨r, hr, hid⟩ => ⟨r, List.mem_cons_of_mem _ hr, hid⟩
    rw [takesRetryLoop] at h
    split at h
    · cases h
    split at h
    · exact lift (ih h)
    · dsimp only at h
      split at h
      · exact lift (ih h)
      · rw [Bool.or_eq_true, decide_eq_true_eq] at h
        rcases h with hid | h
        · exact ⟨msg, List.mem_cons_self, hid⟩
        · exact lift (ih h)

theorem exists_mem_of_takesRetry {td : TopicData} {c : Consumer} {maxMessages : UInt32}
    {nowMs : UInt64} {steadyNow : ℕ → ℤ} {m : MessageId}
    (h : td.takesRetry c maxMessages nowMs steadyNow m = true) : ∃ r ∈ td.retryQueue, r.id = m :=
  exists_mem_of_takesRetryLoop h

/-- **Taken or kept.** In a queue with one record of each message, a taken record leaves no
other; a live record that is not taken stays. -/
private theorem pullRetry_takesRetryLoop {args : PullArgs} {m : MessageId}
    {queue : List StoredMessage} (st : PullState)
    (hnodup : (queue.map StoredMessage.id).Nodup) :
    if takesRetryLoop args m queue st then ∀ r ∈ (pullRetry args queue st).1, r.id ≠ m
    else ∀ r ∈ queue, r.id = m → r.isExpired args.nowMs = false →
      r ∈ (pullRetry args queue st).1 := by
  induction queue generalizing st with
  | nil => simp [takesRetryLoop]
  | cons msg queue ih =>
    rw [List.map_cons, List.nodup_cons] at hnodup
    have hother : ∀ {r}, r ∈ queue → r.id ≠ msg.id :=
      fun hr heq => hnodup.1 (heq ▸ List.mem_map_of_mem hr)
    rw [takesRetryLoop, pullRetry]
    split
    · -- full: nothing leaves the queue
      rw [if_neg Bool.false_ne_true]
      exact fun r hr _ _ => hr
    split
    · -- expired: the record goes without being taken
      rename_i hexp
      have ih := ih st hnodup.2
      split
      · rename_i htake
        rwa [if_pos htake] at ih
      · rename_i htake
        rw [if_neg htake] at ih
        intro r hr hid hlive
        rcases List.mem_cons.mp hr with rfl | hr
        · rw [hexp] at hlive
          cases hlive
        · exact ih r hr hid hlive
    dsimp only
    split
    · -- pending already: the record stays
      have ih := ih (st.touchPending args) hnodup.2
      split
      · rename_i htake
        rw [if_pos htake] at ih
        obtain ⟨r', hr', rfl⟩ := exists_mem_of_takesRetryLoop htake
        intro r hr
        rcases List.mem_cons.mp hr with rfl | hr
        · exact (hother hr').symm
        · exact ih r hr
      · rename_i htake
        rw [if_neg htake] at ih
        intro r hr hid hlive
        rcases List.mem_cons.mp hr with rfl | hr
        · exact List.mem_cons_self
        · exact List.mem_cons_of_mem _ (ih r hr hid hlive)
    · -- delivered
      have ih := ih ((st.touchPending args).deliver args msg) hnodup.2
      have hkept := (pullRetry_spec args queue ((st.touchPending args).deliver args msg)).2.1
      split
      · rename_i htake
        rw [Bool.or_eq_true, decide_eq_true_eq] at htake
        rcases htake with rfl | htake
        · exact fun r hr => hother (hkept.subset hr)
        · rwa [if_pos htake] at ih
      · rename_i htake
        rw [Bool.or_eq_true, decide_eq_true_eq, not_or] at htake
        rw [if_neg htake.2] at ih
        intro r hr hid hlive
        rcases List.mem_cons.mp hr with rfl | hr
        · exact absurd hid htake.1
        · exact ih r hr hid hlive

/-- A pull that takes the record of a message leaves none; one that does not keeps a live
one. -/
theorem Keyed.retryQueue_takesRetry {td : TopicData} (hk : td.Keyed) (c : Consumer)
    (maxMessages : UInt32) (nowMs : UInt64) (steadyNow : ℕ → ℤ) (m : MessageId) :
    if td.takesRetry c maxMessages nowMs steadyNow m then
      ∀ r ∈ (td.pull c maxMessages nowMs steadyNow).1.retryQueue, r.id ≠ m
    else ∀ r ∈ td.retryQueue, r.id = m → r.isExpired nowMs = false →
      r ∈ (td.pull c maxMessages nowMs steadyNow).1.retryQueue :=
  pullRetry_takesRetryLoop _ hk.nodup_queue

end TopicData

end ProtoMsgQueue
