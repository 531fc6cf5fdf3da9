import ProtoMsgQueue.Mq.FrameSizes
import ProtoMsgQueue.Mq.PayloadFidelity
import ProtoMsgQueue.Storage.Refusals

/-!
# What the answer to a batch says

`HandleBatchPublish` stores the messages of a batch one by one, and answers with success as soon
as one of them was stored. A success does not cover the messages that found no room, then, and
an error means that no message was stored. `batch_reply` says so, and that messages which are not
stored are never seen by a pull.
-/

namespace ProtoMsgQueue

open UnorderedMap MemoryMessageStore

namespace Broker

variable {α : Type*} [TokenCount α] (lib : Libraries)

/-! ### The answer -/

omit [TokenCount α] in
/-- A batch that stores nothing leaves the topics as they were. -/
theorem sameMessages_storeBatch (b : Broker α) (env : HandlerEnv) (n : ℕ)
    (msgs : List PublishRequest) (st : BatchState)
    (hnone : (b.storeBatch lib env n msgs st).stored = st.stored) :
    SameMessages st.store (b.storeBatch lib env n msgs st).store := by
  induction msgs generalizing n st with
  | nil => exact .refl st.store
  | cons msg msgs ih =>
    rw [storeBatch] at hnone ⊢
    dsimp only at hnone ⊢
    split at hnone
    · -- a message that is stored is added for good
      obtain ⟨stored, heq, -⟩ := sublist_storeBatch lib b env (n + 1) msgs _
      rw [heq, List.append_assoc] at hnone
      exact absurd (List.append_right_eq_self.mp hnone) (List.cons_ne_nil _ _)
    · rename_i hok
      rw [if_neg hok]
      exact (sameMessages_publish (Bool.not_eq_true _ ▸ hok)).trans (ih (n + 1) _ hnone)

/-- A batch is answered after its pushes: with success iff a message was stored. -/
theorem handleBatchPublish_answer (b : Broker α) (connId : ConnectionId)
    (req : BatchPublishRequest) (env : HandlerEnv) :
    let out := b.handleBatchPublish lib connId (some req) env
    ∃ pushes resp, out.2.sent = pushes ++ [⟨connId, .response resp⟩] ∧
      (resp.success = true ↔ out.2.stored ≠ []) ∧
      (out.2.stored = [] → pushes = [] ∧ SameMessages b.store out.1.store) := by
  intro out
  have houtcome : BatchOutcome lib b connId req env out := b.batchOutcome lib connId req env
  clear_value out
  cases houtcome with
  | empty | tooLarge =>
    exact ⟨[], _, rfl, iff_of_false (by decide) (not_not_intro rfl), fun _ => ⟨rfl, .refl _⟩⟩
  | refused =>
    exact ⟨[], _, rfl, iff_of_false Bool.false_ne_true (not_not_intro rfl),
      fun _ => ⟨rfl, .refl _⟩⟩
  | @admitted limiters globalLimiter =>
    have hsame := sameMessages_storeBatch lib { b with
      publishLimiters := limiters, globalPublishLimiter := globalLimiter } env 0 req.messages
      { store := b.store }
    rcases storeBatchPublish_cases lib _ connId req.messages env with
      ⟨hnone, -, hout⟩ | ⟨hne, hout⟩
    · rw [hout]
      exact ⟨[], _, rfl, iff_of_false (by decide) (not_not_intro rfl),
        fun _ => ⟨rfl, hsame hnone⟩⟩
    · rw [hout]
      exact ⟨_, _, rfl, iff_of_true rfl hne, fun hempty => absurd hempty hne⟩

/-- The messages that a batch stores are those that find room, if it passes the checks. -/
theorem stored_handleBatchPublish (b : Broker α) (connId : ConnectionId)
    (req : BatchPublishRequest) (env : HandlerEnv) :
    (b.handleBatchPublish lib connId (some req) env).2.stored.map (b.publishedAs lib) =
      if b.admitsMessages connId req.messages env then
        (b.fittingMessages lib env 0 req.messages b.store.roomAt).map StoredMessage.content
      else [] := by
  rw [← List.map_nil (f := StoredMessage.content), ← apply_ite, ← storedByBatch_eq]
  exact b.map_stored_handleBatchPublish lib connId req env

/-! ### Later pulls -/

theorem storeConfig_step (b : Broker α) (op : BrokerOp) :
    ((broker α lib).step b op).1.store.config = b.store.config := by
  rw [(b.store_step lib op).1, config_run]

theorem storeConfig_run (b : Broker α) (ops : List BrokerOp) :
    ((broker α lib).run b ops).store.config = b.store.config := by
  induction ops generalizing b with
  | nil => rfl
  | cons op ops ih => exact (ih _).trans (b.storeConfig_step lib op)

/-- In a run of the broker everything in its store stays what was published. -/
theorem sourced_run {b : Broker α} (hbuffer : b.store.config.defaultBufferSize < 2 ^ 32)
    {published : List (TopicName × MessageId × Payload)} (h : b.store.Sourced published)
    (ops : List BrokerOp) : ((broker α lib).run b ops).store.Sourced
      (published ++ ((broker α lib).trace b ops).flatMap (storedBy lib)) := by
  induction ops generalizing b published with
  | nil => simpa using h
  | cons op ops ih =>
    obtain ⟨hstore, hpublished⟩ := b.store_step lib op
    have hstep := h.run hbuffer (b.storeOps lib op)
    rw [← hstore, hpublished] at hstep
    have hrest := ih ((b.storeConfig_step lib op).symm ▸ hbuffer) hstep
    rw [List.append_assoc] at hrest
    exact hrest

/-- Whatever follows, pulls return only what was published before or is stored later. -/
def PullsOnly (published : List (TopicName × MessageId × Payload)) (b : Broker α) : Prop :=
  ∀ (later : List BrokerOp) (t : TopicName) (c : Consumer) (maxMessages : UInt32)
    (nowMs : UInt64) (steadyNow : ℕ → ℤ),
    ∀ m ∈ (((broker α lib).run b later).store.pull t c maxMessages nowMs steadyNow).2,
      (t, m.id, m.payload) ∈ published ++ ((broker α lib).trace b later).flatMap (storedBy lib)

/-- After a batch, pulls return what was published before, was stored by the batch or is stored
later. -/
theorem pullsOnly_handleBatchPublish {b : Broker α}
    (hbuffer : b.store.config.defaultBufferSize < 2 ^ 32)
    {published : List (TopicName × MessageId × Payload)} (h : b.store.Sourced published)
    (connId : ConnectionId) (req : BatchPublishRequest) (env : HandlerEnv) :
    PullsOnly lib
      (published ++ (b.handleBatchPublish lib connId (some req) env).2.stored.map
        (b.publishedAs lib))
      (b.handleBatchPublish lib connId (some req) env).1 := by
  obtain ⟨hstore, hpublished⟩ := b.handleBatchPublish_ops lib connId req env
  have hbatch := h.run hbuffer (if b.admitsMessages connId req.messages env then
    req.messages.mapIdx fun n msg => b.publishOp lib msg env n else [])
  rw [← hstore, hpublished] at hbatch
  have hconfig : (b.handleBatchPublish lib connId (some req) env).1.store.config =
      b.store.config := by
    rw [hstore, config_run]
  intro later t c maxMessages nowMs steadyNow m hm
  exact (sourced_run lib (hconfig.symm ▸ hbuffer) hbatch later).of_mem_pull hm

/-- **The answer to a batch.** In every state a batch is answered with success iff it stored a
message, and then it stored every message that found room in its turn. If it stored none, nothing
is pushed, all topics hold the same messages as before, and the next pull returns the same. In a
run, pulls return nothing of the batch but the messages it stored. -/
theorem batch_reply (b : Broker α) (connId : ConnectionId) (req : BatchPublishRequest)
    (env : HandlerEnv) :
    let out := b.handleBatchPublish lib connId (some req) env
    ∃ pushes resp, out.2.sent = pushes ++ [⟨connId, .response resp⟩] ∧
      (resp.success = true → out.2.stored ≠ [] ∧ out.2.stored.map (b.publishedAs lib) =
        (b.fittingMessages lib env 0 req.messages b.store.roomAt).map StoredMessage.content) ∧
      (out.2.stored = [] → resp.success = false ∧ pushes = [] ∧
        SameMessages b.store out.1.store ∧ ∀ t c maxMessages nowMs steadyNow,
          (out.1.store.pull t c maxMessages nowMs steadyNow).2 =
            (b.store.pull t c maxMessages nowMs steadyNow).2) ∧
      ∀ config store steadyNow ops, store.defaultBufferSize < 2 ^ 32 →
        b = (broker α lib).run (ofConfig config store steadyNow) ops →
        PullsOnly lib (((broker α lib).trace (ofConfig config store steadyNow) ops).flatMap
          (storedBy lib) ++ out.2.stored.map (b.publishedAs lib)) out.1 := by
  intro out
  obtain ⟨pushes, resp, hsent, hsuccess, hnone⟩ := b.handleBatchPublish_answer lib connId req env
  have hfitting := b.stored_handleBatchPublish lib connId req env
  refine ⟨pushes, resp, hsent, fun hok => ?_, fun hempty => ?_, ?_⟩
  · have hne := hsuccess.mp hok
    refine ⟨hne, ?_⟩
    split at hfitting
    · exact hfitting
    · exact absurd (List.map_eq_nil_iff.mp hfitting) hne
  · obtain ⟨hpushes, hsame⟩ := hnone hempty
    refine ⟨?_, hpushes, hsame, hsame.pull_eq⟩
    rw [← Bool.not_eq_true, hsuccess]
    exact not_not_intro hempty
  · rintro config store steadyNow ops hbuffer rfl
    have hstart : (ofConfig config store steadyNow : Broker α).store.Sourced [] :=
      sourced_ofConfig hbuffer
    have hsourced := sourced_run lib hbuffer hstart ops
    rw [List.nil_append] at hsourced
    refine pullsOnly_handleBatchPublish lib ?_ hsourced connId req env
    rw [storeConfig_run]
    exact hbuffer

/-- A batch of two messages, for a buffer with room for one. -/
def tightBatch : List PublishRequest :=
  [{ topic := "t", payload := [97] }, { topic := "t", payload := [98] }]

/-- What a broker with such a buffer makes of it. -/
def tightReply : Broker ℚ × BrokerResult :=
  (ofConfig {} { defaultBufferSize := 48 } 0 : Broker ℚ).handleBatchPublish subscribeLibraries 1
    (some ⟨tightBatch⟩) (.ofClocks 0 0)

/-- The message that found room is all that pulls return, unless more is published. -/
theorem batch_reply_tight :
    PullsOnly subscribeLibraries [("t", 1, [97])] tightReply.1 := by
  obtain ⟨-, -, -, -, -, hpulls⟩ := batch_reply subscribeLibraries
    (ofConfig {} { defaultBufferSize := 48 } 0 : Broker ℚ) 1 ⟨tightBatch⟩ (.ofClocks 0 0)
  have hstored : tightReply.2.stored.map
      (publishedAs subscribeLibraries (ofConfig {} { defaultBufferSize := 48 } 0 : Broker ℚ)) =
        [("t", 1, [97])] := by
    decide +kernel
  rw [← hstored]
  exact hpulls {} { defaultBufferSize := 48 } 0 [] (by decide) rfl

/-- It is answered with success, although a message was not stored. -/
theorem not_batch_reply_covers :
    ¬∀ resp, ⟨1, .response resp⟩ ∈ tightReply.2.sent → resp.success = true →
      tightReply.2.stored.map StoredRequest.req = tightBatch := by
  intro h
  exact absurd (h (.ofBool true "" 1) (by decide +kernel) rfl) (by decide +kernel)

end Broker

end ProtoMsgQueue
