import ProtoMsgQueue.Mq.HandlerCases

/-!
# Deduplication

What the broker's deduplication guarantees over whole runs.

* `success_stored`: a publish request that is answered with success was stored by this
  request or an earlier one, or its producer had stored a larger sequence number before. The
  window keeps the largest number only, so a rejected request that is retried after a later
  one is taken for a duplicate.
* `stored_once`: a sequence number of a producer is stored at most once in every run in
  which no batch stores one that was stored before, or that the batch repeats, and no
  publish request repeats one that only a batch has stored.
-/

namespace ProtoMsgQueue

open UnorderedMap

/-- Does the request carry this producer and sequence number? -/
def PublishRequest.carries (req : PublishRequest) (p : String) (s : ℕ) : Bool :=
  req.producerId = p && req.sequenceId = s

theorem PublishRequest.carries_iff {req : PublishRequest} {p : String} {s : ℕ} :
    req.carries p s = true ↔ req.producerId = p ∧ req.sequenceId = s := by
  simp [PublishRequest.carries]

namespace Broker

variable {α : Type*} [TokenCount α] {lib : Libraries}

/-! ### Frames on the wire -/

/-- Parsers that know the wire format of a few frames: three publish requests, the last two
of producer `p` with numbers 1 and 2; a batch with the second one; a pull. -/
def wireLibraries : Libraries where
  parsePublishRequest
    | [10, 1, 116, 18, 4, 97, 97, 97, 97] => some { topic := "t", payload := [97, 97, 97, 97] }
    | [10, 1, 116, 18, 1, 98, 42, 1, 112, 48, 1] =>
      some { topic := "t", payload := [98], producerId := "p", sequenceId := 1 }
    | [10, 1, 116, 18, 1, 99, 42, 1, 112, 48, 2] =>
      some { topic := "t", payload := [99], producerId := "p", sequenceId := 2 }
    | _ => none
  parseBatchPublishRequest
    | [10, 11, 10, 1, 116, 18, 1, 98, 42, 1, 112, 48, 1] =>
      some ⟨[{ topic := "t", payload := [98], producerId := "p", sequenceId := 1 }]⟩
    | _ => none
  parsePullRequest
    | [10, 1, 116, 18, 1, 99, 32, 10] =>
      some { topic := "t", subscriberId := "c", maxMessages := 10 }
    | _ => none
  parseSubscribeRequest _ := none
  parseUnsubscribeRequest _ := none
  parseAckRequest _ := none
  parseAdminRequest _ := none
  compress2 _ := none

/-- The frame of the first publish request, which has no producer. -/
def fillFrame : Frame := { msgType := .publish, payload := [10, 1, 116, 18, 4, 97, 97, 97, 97] }

/-- The frame of the publish request with number 1. -/
def firstFrame : Frame :=
  { msgType := .publish, payload := [10, 1, 116, 18, 1, 98, 42, 1, 112, 48, 1] }

/-- The frame of the publish request with number 2. -/
def secondFrame : Frame :=
  { msgType := .publish, payload := [10, 1, 116, 18, 1, 99, 42, 1, 112, 48, 2] }

/-- The frame of the batch with number 1. -/
def batchFrame : Frame :=
  { msgType := .batchPublish, payload := [10, 11, 10, 1, 116, 18, 1, 98, 42, 1, 112, 48, 1] }

/-- The frame of the pull. -/
def pullFrame : Frame := { msgType := .pull, payload := [10, 1, 116, 18, 1, 99, 32, 10] }

/-- Number 1 is rejected because the buffer is full; after a pull number 2 is stored, and
number 1 is sent again. -/
def overtakenRun : List BrokerOp := [
  .frame 1 fillFrame (.ofClocks 0 0), .frame 1 firstFrame (.ofClocks 1000000 1),
  .frame 2 pullFrame (.ofClocks 2000000 2), .frame 1 secondFrame (.ofClocks 3000000 3),
  .frame 1 firstFrame (.ofClocks 4000000 4)]

/-- A batch with number 1 after number 2 was published, and a publish request with 1. -/
def batchOnceRun : List BrokerOp := [
  .frame 1 secondFrame (.ofClocks 0 0), .frame 1 batchFrame (.ofClocks 1000000 1),
  .frame 1 firstFrame (.ofClocks 2000000 2)]

/-- A batch that is sent twice. -/
def batchTwiceRun : List BrokerOp := [
  .frame 1 batchFrame (.ofClocks 0 0), .frame 1 batchFrame (.ofClocks 1000000 1)]

/-! ### What a run has stored -/

/-- The messages for a producer and sequence number that a run has stored. -/
def storedFor (p : String) (s : ℕ) (h : List (BrokerEvent α)) : List StoredRequest :=
  (h.flatMap fun e => e.output.stored).filter fun r => r.req.carries p s

omit [TokenCount α] in
@[simp] theorem storedFor_nil (p : String) (s : ℕ) : storedFor p s ([] : List (BrokerEvent α)) = [] :=
  rfl

omit [TokenCount α] in
@[simp] theorem storedFor_concat (p : String) (s : ℕ) (h : List (BrokerEvent α))
    (e : BrokerEvent α) : storedFor p s (h ++ [e]) =
      storedFor p s h ++ e.output.stored.filter fun r => r.req.carries p s := by
  simp [storedFor]

/-! ### Success means stored -/

/-- Whatever the window takes for a duplicate has a stored message of its producer with a
sequence number not smaller. -/
def WindowBacked (h : List (BrokerEvent α)) (b : Broker α) : Prop :=
  ∀ p s, b.dedupWindow.isDuplicate p s = true → ∃ s', s ≤ s' ∧ storedFor p s' h ≠ []

omit [TokenCount α] in
/-- A step that marks nothing keeps the window backed. -/
theorem WindowBacked.of_dedupWindow_eq {h : List (BrokerEvent α)} {b b' : Broker α}
    (hb : WindowBacked h b) (hwindow : b'.dedupWindow = b.dedupWindow) (e : BrokerEvent α) :
    WindowBacked (h ++ [e]) b' := by
  intro p s hdup
  rw [hwindow] at hdup
  obtain ⟨s', hs, hstored⟩ := hb p s hdup
  refine ⟨s', hs, ?_⟩
  rw [storedFor_concat]
  exact List.append_ne_nil_of_left_ne_nil hstored _

/-- Every step keeps the window backed. -/
theorem windowBacked_step {h : List (BrokerEvent α)} {b : Broker α} (hb : WindowBacked h b)
    (op : BrokerOp) :
    WindowBacked (h ++ [(broker α lib).event b op]) ((broker α lib).step b op).1 := by
  by_cases hpublish : IsFrame .publish op
  · obtain ⟨connId, frame, env, rfl, htype⟩ := hpublish
    have hstep := b.step_publish lib connId env htype
    rcases b.handlePublish_cases lib connId (lib.parsePublishRequest frame.payload) env
      with ⟨hwindow, -⟩ | ⟨req, -, -, hwindow, -⟩ | ⟨req, msgId, -, -, -, hwindow, hstored⟩
    · exact hb.of_dedupWindow_eq (by rw [hstep, hwindow]) _
    · exact hb.of_dedupWindow_eq (by rw [hstep, hwindow]) _
    · rw [dedupWindow_markProcessed] at hwindow
      split at hwindow
      · intro p s hdup
        rw [hstep, hwindow, DedupWindow.isDuplicate_markProcessed] at hdup
        rw [← hstep] at hstored
        -- a number the window knew before, or one up to the number just marked
        rcases hdup with hdup | ⟨-, rfl, hs⟩
        · obtain ⟨s', hs, hold⟩ := hb p s hdup
          refine ⟨s', hs, ?_⟩
          rw [storedFor_concat]
          exact List.append_ne_nil_of_left_ne_nil hold _
        · refine ⟨req.sequenceId, hs, ?_⟩
          rw [storedFor_concat, StepMachine.event_output, hstored]
          simp [PublishRequest.carries]
      · exact hb.of_dedupWindow_eq (by rw [hstep, hwindow]) _
  by_cases hbatch : IsFrame .batchPublish op
  · obtain ⟨connId, frame, env, rfl, htype⟩ := hbatch
    refine hb.of_dedupWindow_eq ?_ _
    rw [step_batchPublish lib b connId env htype]
    split
    · exact (b.handleBatchPublish_cases lib connId _ env).1
    · rfl
  · exact hb.of_dedupWindow_eq (b.step_other lib hpublish hbatch).1 _

/-- In every run the window is backed before every step. -/
theorem windowBacked (config : BrokerConfig) (store : StoreConfig) (steadyNow : ℤ)
    (ops : List BrokerOp) : (broker α lib).Along (fun h e => WindowBacked h e.pre)
      (ofConfig config store steadyNow) ops := by
  refine StepMachine.along_of_history _ (P := WindowBacked) ?_ ?_ ?_ ops
  · intro p s hdup
    simp [ofConfig] at hdup
  · exact fun h b op hb => windowBacked_step hb op
  · exact fun h b op hb => hb

/-- **Success means stored, or overtaken.** If a publish request is answered with success,
its message was stored by it or by an earlier request of the run, or a message of its
producer with a larger sequence number was stored earlier. -/
theorem success_stored {config : BrokerConfig} {store : StoreConfig} {steadyNow : ℤ}
    {ops : List BrokerOp} {before after : List (BrokerEvent α)} {e : BrokerEvent α}
    (hsplit : (broker α lib).trace (ofConfig config store steadyNow) ops = before ++ e :: after)
    {connId : ConnectionId} {frame : Frame} {env : HandlerEnv} {req : PublishRequest}
    (hinput : e.input = .frame connId frame env) (htype : frame.msgType = .publish)
    (hparse : lib.parsePublishRequest frame.payload = some req) {resp : Response}
    (hresp : ⟨connId, .response resp⟩ ∈ e.output.sent) (hsuccess : resp.success = true) :
    storedFor req.producerId req.sequenceId (before ++ [e]) ≠ [] ∨
      ∃ s, req.sequenceId < s ∧ storedFor req.producerId s before ≠ [] := by
  have hbacked : WindowBacked before e.pre := windowBacked config store steadyNow ops _ _ _ hsplit
  have hmem : e ∈ (broker α lib).trace (ofConfig config store steadyNow) ops := by
    rw [hsplit]
    exact List.mem_append_right _ List.mem_cons_self
  have hout : e.output = (e.pre.handlePublish lib connId (some req) env).2 := by
    rw [(broker α lib).output_of_mem_trace hmem, hinput, step_publish _ _ _ _ htype, hparse]
  rcases e.pre.handlePublish_cases lib connId (some req) env
    with ⟨-, -, hrefused⟩ | ⟨req', hreq, hdup, -⟩ | ⟨req', msgId, hreq, -, -, -, hstored⟩
  · -- A refused request is not answered with success.
    rw [hout] at hresp
    exact absurd hsuccess (Bool.eq_false_iff.mp (hrefused resp hresp))
  · -- The window holds a number that is not smaller: the same one, or a larger one.
    obtain rfl := Option.some.inj hreq
    rw [isDuplicateRequest, Bool.and_eq_true] at hdup
    obtain ⟨s, hs, hstored⟩ := hbacked _ _ hdup.2
    rcases hs.eq_or_lt with rfl | hlt
    · left
      rw [storedFor_concat]
      exact List.append_ne_nil_of_left_ne_nil hstored _
    · exact Or.inr ⟨s, hlt, hstored⟩
  · obtain rfl := Option.some.inj hreq
    left
    rw [storedFor_concat, hout, hstored]
    simp [PublishRequest.carries]

/-- The retry of the overtaken request is answered with success, since number 2 was stored. -/
theorem success_stored_overtaken :
    let trace := (broker ℚ wireLibraries).trace (ofConfig {} { defaultBufferSize := 48 } 0)
      overtakenRun
    storedFor "p" 1 trace ≠ [] ∨ ∃ s, 1 < s ∧ storedFor "p" s (trace.take 4) ≠ [] := by
  intro trace
  have hsplit : trace = trace.take 4 ++ [(broker ℚ wireLibraries).event
      ((broker ℚ wireLibraries).run (ofConfig {} { defaultBufferSize := 48 } 0)
        (overtakenRun.take 4)) (.frame 1 firstFrame (.ofClocks 4000000 4))] := rfl
  have hresp : ⟨1, .response (.ofBool true "" 1)⟩ ∈ ((broker ℚ wireLibraries).event
      ((broker ℚ wireLibraries).run (ofConfig {} { defaultBufferSize := 48 } 0)
        (overtakenRun.take 4)) (.frame 1 firstFrame (.ofClocks 4000000 4))).output.sent := by
    decide +kernel
  have h := success_stored hsplit rfl rfl rfl hresp rfl
  rwa [← hsplit] at h

/-- Does a success answer to a publish request of a producer mean that its message was
stored, by this step or before it? -/
def SuccessMeansStored (lib : Libraries) (h : List (BrokerEvent α)) (e : BrokerEvent α) : Prop :=
  ∀ connId frame env req resp, e.input = .frame connId frame env → frame.msgType = .publish →
    lib.parsePublishRequest frame.payload = some req → req.producerId ≠ "" →
    ⟨connId, .response resp⟩ ∈ e.output.sent → resp.success = true →
    storedFor req.producerId req.sequenceId (h ++ [e]) ≠ []

/-- A rejected request that is retried after a later one was stored is answered with
success, and never stored. -/
theorem not_successMeansStored_of_overtaken :
    ¬ (broker ℚ wireLibraries).Along (SuccessMeansStored wireLibraries)
      (ofConfig {} { defaultBufferSize := 48 } 0) overtakenRun := by
  intro h
  refine absurd (h _ _ [] (StepMachine.trace_concat _ _ (overtakenRun.take 4)
    (.frame 1 firstFrame (.ofClocks 4000000 4))) 1 firstFrame (.ofClocks 4000000 4)
    ⟨"t", [98], 0, false, "p", 1⟩ (.ofBool true "" 1) rfl rfl rfl (by decide) (by decide +kernel)
    rfl) ?_
  decide +kernel

/-! ### At most once -/

/-- Has a batch of the run stored a message for this producer and sequence number? -/
def StoredByBatch (p : String) (s : ℕ) (h : List (BrokerEvent α)) : Prop :=
  ∃ e ∈ h, IsFrame .batchPublish e.input ∧ storedFor p s [e] ≠ []

/-- Does a batch pass the limits, so that its messages are offered to the store? -/
def admitsBatch (b : Broker α) (connId : ConnectionId) (msgs : List PublishRequest)
    (env : HandlerEnv) : Prop :=
  b.configManager.globalConfig.batchPublishEnabled = true ∧
    (b.checkRateLimits connId (UInt32.ofNat msgs.length) env).2 = none ∧
    UInt32.ofNat msgs.length ≤ b.configManager.globalConfig.maxBatchSize

/-- The condition under which the window suffices although batches pass it by: an admitted
batch carries the sequence number at most once, and not at all once it was stored; and the
window knows a number that a batch has stored when an admitted publish request repeats it. -/
def Unrepeated (lib : Libraries) (p : String) (s : ℕ) (h : List (BrokerEvent α))
    (e : BrokerEvent α) : Prop :=
  ∀ connId frame env, e.input = .frame connId frame env →
    (∀ req, frame.msgType = .publish → lib.parsePublishRequest frame.payload = some req →
      req.carries p s = true → (e.pre.checkRateLimits connId 1 env).2 = none →
      StoredByBatch p s h → e.pre.dedupWindow.isDuplicate p s = true) ∧
    (∀ req, frame.msgType = .batchPublish →
      lib.parseBatchPublishRequest frame.payload = some req →
      e.pre.admitsBatch connId req.messages env →
      (storedFor p s h).length + (req.messages.filter fun msg => msg.carries p s).length ≤ 1)

/-- At most one message is stored, and the window knows it unless a batch stored it. -/
def StoredOnce (p : String) (s : ℕ) (h : List (BrokerEvent α)) (b : Broker α) : Prop :=
  (storedFor p s h).length ≤ 1 ∧
    (storedFor p s h ≠ [] → b.dedupWindow.isDuplicate p s = true ∨ StoredByBatch p s h)

omit [TokenCount α] in
theorem StoredByBatch.concat {p : String} {s : ℕ} {h : List (BrokerEvent α)}
    (hbatch : StoredByBatch p s h) (e : BrokerEvent α) : StoredByBatch p s (h ++ [e]) := by
  obtain ⟨e', he', hstored⟩ := hbatch
  exact ⟨e', List.mem_append_left _ he', hstored⟩

omit [TokenCount α] in
/-- A step that stores nothing for the number, and forgets no duplicate, changes nothing. -/
theorem StoredOnce.concat {p : String} {s : ℕ} {h : List (BrokerEvent α)} {b b' : Broker α}
    {e : BrokerEvent α} (honce : StoredOnce p s h b)
    (hstored : (e.output.stored.filter fun r => r.req.carries p s) = [])
    (hwindow : b.dedupWindow.isDuplicate p s = true → b'.dedupWindow.isDuplicate p s = true) :
    StoredOnce p s (h ++ [e]) b' := by
  rw [StoredOnce, storedFor_concat, hstored, List.append_nil]
  exact ⟨honce.1, fun hne => (honce.2 hne).imp hwindow fun hbatch => hbatch.concat e⟩

/-- A publish request stores no number twice. -/
theorem storedOnce_publish {p : String} {s : ℕ} (hp : p ≠ "") {h : List (BrokerEvent α)}
    {b : Broker α} {connId : ConnectionId} {frame : Frame} {env : HandlerEnv}
    (htype : frame.msgType = .publish) (honce : StoredOnce p s h b)
    (henabled : b.configManager.globalConfig.dedupEnabled = true)
    (hunrepeated : Unrepeated lib p s h ((broker α lib).event b (.frame connId frame env))) :
    StoredOnce p s (h ++ [(broker α lib).event b (.frame connId frame env)])
      ((broker α lib).step b (.frame connId frame env)).1 := by
  have hstep := b.step_publish lib connId env htype
  rcases b.handlePublish_cases lib connId (lib.parsePublishRequest frame.payload) env
    with ⟨hwindow, hstored, -⟩ | ⟨req, -, -, hwindow, hstored⟩ |
      ⟨req, msgId, hparse, hnew, hlimits, hwindow, hstored⟩
  · rw [← hstep] at hwindow hstored
    exact honce.concat (by rw [StepMachine.event_output, hstored]; rfl) (by rw [hwindow]; exact id)
  · rw [← hstep] at hwindow hstored
    exact honce.concat (by rw [StepMachine.event_output, hstored]; rfl) (by rw [hwindow]; exact id)
  rw [← hstep] at hwindow hstored
  rw [dedupWindow_markProcessed] at hwindow
  by_cases hcarries : req.carries p s = true
  · obtain ⟨rfl, rfl⟩ := PublishRequest.carries_iff.mp hcarries
    have hdedup : b.deduplicates req.producerId = true := by simp [deduplicates, henabled, hp]
    rw [if_pos hdedup] at hwindow
    have hunknown : b.dedupWindow.isDuplicate req.producerId req.sequenceId = false := by
      simpa [isDuplicateRequest, hdedup] using hnew
    -- The number was not stored before: the window would know it.
    have hfirst : storedFor req.producerId req.sequenceId h = [] := by
      by_contra hne
      have hknown : b.dedupWindow.isDuplicate req.producerId req.sequenceId = true :=
        (honce.2 hne).elim id fun hbatch =>
          (hunrepeated connId frame env rfl).1 req htype hparse hcarries hlimits hbatch
      rw [hunknown] at hknown
      exact Bool.false_ne_true hknown
    rw [StoredOnce, storedFor_concat, hfirst, StepMachine.event_output, hstored]
    refine ⟨by simp [hcarries], fun _ => Or.inl ?_⟩
    rw [hwindow]
    exact b.dedupWindow.isDuplicate_markProcessed_self hp _ _
  · refine honce.concat ?_ fun hdup => ?_
    · rw [StepMachine.event_output, hstored]
      simp [hcarries]
    · rw [hwindow]
      split
      · exact (DedupWindow.isDuplicate_markProcessed _ _ _ _ _ _).mpr (Or.inl hdup)
      · exact hdup

/-- An unrepeated batch stores no number twice. -/
theorem storedOnce_batchPublish {p : String} {s : ℕ} {h : List (BrokerEvent α)} {b : Broker α}
    {connId : ConnectionId} {frame : Frame} {env : HandlerEnv}
    (htype : frame.msgType = .batchPublish) (honce : StoredOnce p s h b)
    (hunrepeated : Unrepeated lib p s h ((broker α lib).event b (.frame connId frame env))) :
    StoredOnce p s (h ++ [(broker α lib).event b (.frame connId frame env)])
      ((broker α lib).step b (.frame connId frame env)).1 := by
  have hstep := b.step_batchPublish lib connId env htype
  split at hstep
  swap
  -- batching is off: the frame is answered with an error
  · refine honce.concat ?_ ?_
    · rw [StepMachine.event_output, hstep]
      rfl
    · rw [hstep]
      exact id
  rename_i henabled
  obtain ⟨hwindow, hstored⟩ :=
    b.handleBatchPublish_cases lib connId (lib.parseBatchPublishRequest frame.payload) env
  rw [← hstep] at hwindow hstored
  rcases hstored with hstored | ⟨req, hparse, hlimits, hsize, hsub⟩
  · exact honce.concat (by rw [StepMachine.event_output, hstored]; rfl) (by rw [hwindow]; exact id)
  · have hcount := (hunrepeated connId frame env rfl).2 req htype hparse ⟨henabled, hlimits, hsize⟩
    have hle : (((broker α lib).step b (.frame connId frame env)).2.stored.filter
        fun r => r.req.carries p s).length ≤
          (req.messages.filter fun msg => msg.carries p s).length := by
      have := (hsub.filter fun msg => msg.carries p s).length_le
      rwa [List.filter_map, List.length_map] at this
    rw [StoredOnce, storedFor_concat, List.length_append]
    refine ⟨(Nat.add_le_add_left hle _).trans hcount, fun hne => ?_⟩
    -- the window is not marked by a batch, so the batch itself is recorded
    by_cases hold : storedFor p s h = []
    · refine Or.inr ⟨_, List.mem_append_right _ List.mem_cons_self, ⟨_, _, _, rfl, htype⟩, ?_⟩
      rw [hold, List.nil_append] at hne
      simpa [storedFor] using hne
    · exact (honce.2 hold).imp (by rw [hwindow]; exact id) fun hbatch => hbatch.concat _

/-- **At most once.** With deduplication enabled throughout, a sequence number of a producer
is stored at most once in every run without an unknown repetition of it in or after a batch. -/
theorem stored_once {p : String} (hp : p ≠ "") (s : ℕ) (config : BrokerConfig)
    (store : StoreConfig) (steadyNow : ℤ) {ops : List BrokerOp}
    (henabled : (broker α lib).Along
      (fun _ e => e.pre.configManager.globalConfig.dedupEnabled = true)
      (ofConfig config store steadyNow) ops)
    (hunrepeated : (broker α lib).Along (Unrepeated lib p s) (ofConfig config store steadyNow) ops) :
    (storedFor p s ((broker α lib).trace (ofConfig config store steadyNow) ops)).length ≤ 1 := by
  refine ((broker α lib).history_induction_along (P := StoredOnce p s)
    (C := fun h e => e.pre.configManager.globalConfig.dedupEnabled = true ∧ Unrepeated lib p s h e)
    ⟨Nat.zero_le _, fun hne => absurd rfl hne⟩ ?_
    fun before e after hsplit => ⟨henabled before e after hsplit, hunrepeated before e after hsplit⟩).1
  intro h b op honce hcond
  by_cases hpublish : IsFrame .publish op
  · obtain ⟨connId, frame, env, rfl, htype⟩ := hpublish
    exact storedOnce_publish hp htype honce hcond.1 hcond.2
  by_cases hbatch : IsFrame .batchPublish op
  · obtain ⟨connId, frame, env, rfl, htype⟩ := hbatch
    exact storedOnce_batchPublish htype honce hcond.2
  -- other steps store only messages without a producer
  obtain ⟨hwindow, hstored⟩ := b.step_other lib hpublish hbatch
  refine honce.concat ?_ (by rw [hwindow]; exact id)
  rw [List.filter_eq_nil_iff]
  intro r hr hcarries
  rw [PublishRequest.carries_iff, hstored r hr] at hcarries
  exact hp hcarries.1.symm

/-- A batch stores a number the window takes for old; the publish request after it is a
duplicate. -/
theorem stored_once_batchOnce :
    (storedFor "p" 1 ((broker ℚ wireLibraries).trace (ofConfig {} { defaultBufferSize := 64 } 0)
      batchOnceRun)).length ≤ 1 := by
  refine stored_once (by decide) 1 {} { defaultBufferSize := 64 } 0 ?_ ?_
  · exact StepMachine.along_of_forall_mem _ (by decide +kernel)
  · rw [show batchOnceRun = ([] ++ [_]) ++ [_] ++ [_] from rfl, StepMachine.along_concat,
      StepMachine.along_concat, StepMachine.along_concat]
    refine ⟨⟨⟨StepMachine.along_nil _ _ _, ?_⟩, ?_⟩, ?_⟩ <;> rintro connId frame env ⟨⟩
    · refine ⟨fun req _ hparse hcarries => ?_, fun req htype => absurd htype (by decide)⟩
      obtain rfl := Option.some.inj hparse
      exact absurd hcarries (by decide)
    · refine ⟨fun req htype => absurd htype (by decide), fun req _ hparse _ => ?_⟩
      obtain rfl := Option.some.inj hparse
      decide +kernel
    · exact ⟨fun req _ _ _ _ _ => by decide +kernel, fun req htype => absurd htype (by decide)⟩

/-- A batch that is sent twice is stored twice, although deduplication is enabled. -/
theorem not_stored_once_of_batchTwice :
    (∀ e ∈ (broker ℚ wireLibraries).trace (ofConfig {} { defaultBufferSize := 128 } 0)
      batchTwiceRun, e.pre.configManager.globalConfig.dedupEnabled = true) ∧
    ¬ (storedFor "p" 1 ((broker ℚ wireLibraries).trace
      (ofConfig {} { defaultBufferSize := 128 } 0) batchTwiceRun)).length ≤ 1 := by
  decide +kernel

end Broker

end ProtoMsgQueue
