import ProtoMsgQueue.Mq.Deduplication
import ProtoMsgQueue.Storage.TopicAt

/-!
# The answer to a retried request

A publish request with a number its producer has used before gets what the source calls an
idempotent response: nothing is stored or pushed, and no limit is asked. `retry_eq` says so for
every request that was stored, whatever happens in between. The response holds the sequence
number in place of the identifier the message was stored under, though, since the window
remembers no identifiers. So the answers agree iff the two numbers do (`retry_answered_iff`).
-/

namespace ProtoMsgQueue

open UnorderedMap

namespace Broker

variable {α : Type*} [TokenCount α] (lib : Libraries)

/-! ### Duplicates stay duplicates -/

omit [TokenCount α] in
theorem isDuplicate_dedupWindow_markProcessed {b : Broker α} {p : String} {s : ℕ}
    (h : b.dedupWindow.isDuplicate p s = true) (req : PublishRequest) (env : HandlerEnv) :
    (b.markProcessed req env).dedupWindow.isDuplicate p s = true := by
  rw [dedupWindow_markProcessed]
  split
  · exact (b.dedupWindow.isDuplicate_markProcessed _ _ _ p s).mpr (Or.inl h)
  · exact h

/-- No step forgets a duplicate. -/
theorem isDuplicate_step {b : Broker α} {p : String} {s : ℕ}
    (h : b.dedupWindow.isDuplicate p s = true) (op : BrokerOp) :
    ((broker α lib).step b op).1.dedupWindow.isDuplicate p s = true := by
  by_cases hpublish : IsFrame .publish op
  · obtain ⟨connId, frame, env, rfl, htype⟩ := hpublish
    rw [step_publish lib b connId env htype]
    rcases b.handlePublish_cases lib connId (lib.parsePublishRequest frame.payload) env
      with ⟨hwindow, -⟩ | ⟨_, -, -, hwindow, -⟩ | ⟨req, _, -, -, -, hwindow, -⟩
    · rw [hwindow]
      exact h
    · rw [hwindow]
      exact h
    · rw [hwindow]
      exact isDuplicate_dedupWindow_markProcessed h req env
  by_cases hbatch : IsFrame .batchPublish op
  · obtain ⟨connId, frame, env, rfl, htype⟩ := hbatch
    rw [step_batchPublish lib b connId env htype]
    split
    · rw [(b.handleBatchPublish_cases lib connId _ env).1]
      exact h
    · exact h
  · rw [(b.step_other lib hpublish hbatch).1]
    exact h

/-- No run forgets a duplicate. -/
theorem isDuplicate_run {b : Broker α} {p : String} {s : ℕ}
    (h : b.dedupWindow.isDuplicate p s = true) (ops : List BrokerOp) :
    ((broker α lib).run b ops).dedupWindow.isDuplicate p s = true :=
  StepMachine.run_induction _ (P := fun b : Broker α => b.dedupWindow.isDuplicate p s = true) h
    (fun _ op h => isDuplicate_step lib h op) ops

/-! ### The two answers -/

/-- A duplicate is answered with its sequence number. Nothing changes. -/
theorem handlePublish_of_isDuplicateRequest {b : Broker α} {req : PublishRequest}
    (h : b.isDuplicateRequest req = true) (connId : ConnectionId) (env : HandlerEnv) :
    b.handlePublish lib connId (some req) env =
      (b, .respond connId (.ofBool true "" req.sequenceId)) :=
  if_pos h

omit [TokenCount α] in
/-- A request that passed the checks and is stored gets the next identifier of its topic. -/
theorem storePublish_of_mem_stored {b : Broker α} {connId : ConnectionId} {req : PublishRequest}
    {env : HandlerEnv} {r : StoredRequest} (h : r ∈ (b.storePublish lib connId req env).2.stored) :
    r = ⟨req, (b.store.topicAt req.topic).nextMsgId⟩ ∧
      ∃ pushes, (b.storePublish lib connId req env).2.sent =
          pushes ++ [⟨connId, .response (.ofBool true "" r.msgId)⟩] ∧
        ∀ s ∈ pushes, ∃ msg, s.frame = .push msg := by
  rw [storePublish] at h ⊢
  dsimp only at h ⊢
  split at h
  · cases h
  · rename_i hok
    rw [if_neg hok]
    rw [List.mem_singleton] at h
    subst h
    refine ⟨rfl, _, rfl, ?_⟩
    simp only [pushPublished, List.mem_append, List.mem_map, List.mem_mapIdx]
    rintro s (⟨_, -, rfl⟩ | ⟨_, _, rfl⟩) <;> exact ⟨_, rfl⟩

/-- A publish request that is stored gets the next identifier of its topic, and is answered
with it. -/
theorem handlePublish_of_mem_stored {b : Broker α} {connId : ConnectionId} {req : PublishRequest}
    {env : HandlerEnv} {r : StoredRequest}
    (h : r ∈ (b.handlePublish lib connId (some req) env).2.stored) :
    r = ⟨req, (b.store.topicAt req.topic).nextMsgId⟩ ∧
      ∀ resp, ⟨connId, .response resp⟩ ∈ (b.handlePublish lib connId (some req) env).2.sent →
        resp = .ofBool true "" r.msgId := by
  have houtcome := b.publishOutcome lib connId req env
  generalize b.handlePublish lib connId (some req) env = out at h houtcome ⊢
  cases houtcome with
  | duplicate | refused => cases h
  | admitted =>
    obtain ⟨hr, pushes, hsent, hpushes⟩ := storePublish_of_mem_stored lib h
    refine ⟨hr, fun resp hresp => ?_⟩
    rw [hsent, List.mem_append, List.mem_singleton] at hresp
    rcases hresp with hpush | heq
    · obtain ⟨msg, hmsg⟩ := hpushes _ hpush
      cases hmsg
    · cases heq
      rfl

/-- With deduplication a request of a producer that is stored is a duplicate from then on. -/
theorem isDuplicate_of_mem_stored {b : Broker α} {connId : ConnectionId} {req : PublishRequest}
    {env : HandlerEnv} {r : StoredRequest} (hp : req.producerId ≠ "")
    (henabled : b.configManager.globalConfig.dedupEnabled = true)
    (h : r ∈ (b.handlePublish lib connId (some req) env).2.stored) :
    (b.handlePublish lib connId (some req) env).1.dedupWindow.isDuplicate req.producerId
      req.sequenceId = true := by
  have hdedup : b.deduplicates req.producerId = true := by simp [deduplicates, henabled, hp]
  rcases b.handlePublish_cases lib connId (some req) env with ⟨-, hnone, -⟩ | ⟨_, -, -, -, hnone⟩ |
    ⟨req', msgId, hparsed, -, -, hwindow, -⟩
  · rw [hnone] at h
    cases h
  · rw [hnone] at h
    cases h
  · obtain rfl := Option.some.inj hparsed
    rw [hwindow, dedupWindow_markProcessed, if_pos hdedup]
    exact b.dedupWindow.isDuplicate_markProcessed_self hp _ _

/-! ### Retries -/

variable {req req' : PublishRequest}

/-- **A retry** of a request that was stored is answered with its sequence number, whatever
happens in between. Nothing is stored or pushed, and nothing changes. -/
theorem retry_eq (b : Broker α) {connId : ConnectionId} {env : HandlerEnv} {r : StoredRequest}
    (hp : req.producerId ≠ "") (henabled : b.configManager.globalConfig.dedupEnabled = true)
    (hstored : r ∈ (b.handlePublish lib connId (some req) env).2.stored) (between : List BrokerOp)
    {b' : Broker α}
    (hb' : b' = (broker α lib).run (b.handlePublish lib connId (some req) env).1 between)
    (henabled' : b'.configManager.globalConfig.dedupEnabled = true)
    (hcarries : req'.carries req.producerId req.sequenceId = true) (connId' : ConnectionId)
    (env' : HandlerEnv) :
    b'.handlePublish lib connId' (some req') env' =
      (b', .respond connId' (.ofBool true "" req.sequenceId)) := by
  obtain ⟨hproducer, hsequence⟩ := PublishRequest.carries_iff.mp hcarries
  have hknown := isDuplicate_run lib (isDuplicate_of_mem_stored lib hp henabled hstored) between
  rw [← hb'] at hknown
  have hduplicate : b'.isDuplicateRequest req' = true := by
    rw [isDuplicateRequest, hproducer, hsequence, hknown, Bool.and_true, deduplicates, henabled']
    simpa using hp
  rw [handlePublish_of_isDuplicateRequest lib hduplicate, hsequence]

/-- The retry is answered as the request that was stored: the same success flag, error code and
identifier, and nothing is stored, pushed or changed. -/
def AnsweredAlike (resp : Response) (msgId : MessageId) (connId : ConnectionId) (b : Broker α)
    (out : Broker α × BrokerResult) : Prop :=
  out.1 = b ∧ ∃ resp' : Response, out.2 = .respond connId resp' ∧
    resp'.success = resp.success ∧ resp'.errorCode = resp.errorCode ∧ resp'.messageId = msgId

/-- **Idempotence**, exactly if the numbers agree. Take a publish frame that is stored, with a
producer and deduplication enabled, any steps after it, and a publish frame with the same
producer and number. It is answered as the first one iff the sequence number is the identifier
that the topic had next before the first one. -/
theorem retry_answeredAlike_iff (b : Broker α) (connId : ConnectionId) (frame : Frame)
    (env : HandlerEnv) (htype : frame.msgType = .publish)
    (hparse : lib.parsePublishRequest frame.payload = some req) (hp : req.producerId ≠ "")
    (henabled : b.configManager.globalConfig.dedupEnabled = true) {r : StoredRequest}
    {resp : Response}
    (hstored : r ∈ ((broker α lib).step b (.frame connId frame env)).2.stored)
    (hresp : ⟨connId, .response resp⟩ ∈ ((broker α lib).step b (.frame connId frame env)).2.sent)
    (between : List BrokerOp) {b' : Broker α}
    (hb' : b' = (broker α lib).run b (.frame connId frame env :: between))
    (henabled' : b'.configManager.globalConfig.dedupEnabled = true) (connId' : ConnectionId)
    (frame' : Frame) (env' : HandlerEnv) (htype' : frame'.msgType = .publish)
    (hparse' : lib.parsePublishRequest frame'.payload = some req')
    (hcarries : req'.carries req.producerId req.sequenceId = true) :
    AnsweredAlike resp r.msgId connId' b'
        ((broker α lib).step b' (.frame connId' frame' env')) ↔
      req.sequenceId = (b.store.topicAt req.topic).nextMsgId := by
  rw [step_publish lib b connId env htype, hparse] at hstored hresp
  rw [StepMachine.run_cons, step_publish lib b connId env htype, hparse] at hb'
  rw [step_publish lib b' connId' env' htype', hparse',
    retry_eq lib b hp henabled hstored between hb' henabled' hcarries]
  obtain ⟨hr, hanswer⟩ := handlePublish_of_mem_stored lib hstored
  obtain rfl := hanswer resp hresp
  rw [AnsweredAlike, hr]
  constructor
  · rintro ⟨-, resp', hrespond, -, -, hid⟩
    cases hrespond
    exact hid
  · intro hnumber
    exact ⟨rfl, _, rfl, rfl, rfl, hnumber⟩

/-- What happens between the two requests: another message, a pull. -/
def betweenRun : List BrokerOp := [
  .frame 1 fillFrame (.ofClocks 1000000 1), .frame 2 pullFrame (.ofClocks 2000000 2)]

/-- Number 1 is stored under identifier 1, and its retry is answered with it. -/
theorem retry_answeredAlike_first :
    AnsweredAlike (.ofBool true "" 1) 1 3
      ((broker ℚ wireLibraries).run (ofConfig {} { defaultBufferSize := 128 } 0)
        (.frame 1 firstFrame (.ofClocks 0 0) :: betweenRun))
      ((broker ℚ wireLibraries).step
        ((broker ℚ wireLibraries).run (ofConfig {} { defaultBufferSize := 128 } 0)
          (.frame 1 firstFrame (.ofClocks 0 0) :: betweenRun))
        (.frame 3 firstFrame (.ofClocks 3000000 3))) :=
  (retry_answeredAlike_iff wireLibraries (ofConfig {} { defaultBufferSize := 128 } 0) 1
    firstFrame (.ofClocks 0 0) rfl rfl (by decide) rfl (r := ⟨⟨"t", [98], 0, false, "p", 1⟩, 1⟩)
    (by decide +kernel) (by decide +kernel) betweenRun rfl (by decide +kernel) 3 firstFrame
    (.ofClocks 3000000 3) rfl rfl (by decide)).mpr (by decide +kernel)

/-- Number 2 is stored under identifier 1, and its retry is answered with 2. -/
theorem not_retry_answeredAlike_second :
    ⟨⟨"t", [99], 0, false, "p", 2⟩, 1⟩ ∈ ((broker ℚ wireLibraries).step
        (ofConfig {} { defaultBufferSize := 128 } 0)
        (.frame 1 secondFrame (.ofClocks 0 0))).2.stored ∧
      ⟨1, .response (.ofBool true "" 1)⟩ ∈ ((broker ℚ wireLibraries).step
        (ofConfig {} { defaultBufferSize := 128 } 0)
        (.frame 1 secondFrame (.ofClocks 0 0))).2.sent ∧
      ¬AnsweredAlike (.ofBool true "" 1) 1 3
        ((broker ℚ wireLibraries).run (ofConfig {} { defaultBufferSize := 128 } 0)
          (.frame 1 secondFrame (.ofClocks 0 0) :: betweenRun))
        ((broker ℚ wireLibraries).step
          ((broker ℚ wireLibraries).run (ofConfig {} { defaultBufferSize := 128 } 0)
            (.frame 1 secondFrame (.ofClocks 0 0) :: betweenRun))
          (.frame 3 secondFrame (.ofClocks 3000000 3))) := by
  refine ⟨by decide +kernel, by decide +kernel, ?_⟩
  rintro ⟨-, resp', hrespond, -, -, hid⟩
  have hanswer : ((broker ℚ wireLibraries).step
      ((broker ℚ wireLibraries).run (ofConfig {} { defaultBufferSize := 128 } 0)
        (.frame 1 secondFrame (.ofClocks 0 0) :: betweenRun))
      (.frame 3 secondFrame (.ofClocks 3000000 3))).2 = .respond 3 (.ofBool true "" 2) := by
    decide +kernel
  rw [hanswer] at hrespond
  cases hrespond
  exact absurd hid (by decide)

end Broker

end ProtoMsgQueue
