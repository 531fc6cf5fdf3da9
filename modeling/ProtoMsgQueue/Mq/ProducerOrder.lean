import ProtoMsgQueue.Mq.Replies

/-!
# A producer that numbers its requests upwards

The deduplication window keeps the largest number of each producer, so it takes a request that
comes behind one with a larger number for a duplicate. `settled` says that this does not happen
to a producer whose requests arrive in the order of their numbers: each of them is stored exactly
once and answered with the identifier of the message, or answered with an error and not stored,
and no other step stores a message of the producer.
-/

namespace ProtoMsgQueue

open UnorderedMap

namespace Broker

variable {α : Type*} [TokenCount α] (lib : Libraries)

/-- The publish request of a producer in a frame, if any. -/
def publishIn? (p : String) (frame : Frame) : Option PublishRequest :=
  if frame.msgType = .publish then
    (lib.parsePublishRequest frame.payload).filter fun req => req.producerId = p
  else none

/-- The publish request of a producer that a step handles, if any. -/
def publishOf? (p : String) : BrokerOp → Option PublishRequest
  | .frame _ frame _ => publishIn? lib p frame
  | _ => none

/-- The publish requests of a producer, in the order in which they are handled. -/
def publishesOf (p : String) (h : List (BrokerEvent α)) : List PublishRequest :=
  h.filterMap fun e => publishOf? lib p e.input

/-- The messages of a producer that were stored. -/
def storedOf (p : String) (h : List (BrokerEvent α)) : List StoredRequest :=
  (h.flatMap fun e => e.output.stored).filter fun r => r.req.producerId = p

/-- The step handles no batch with a message of the producer. -/
def NoBatchOf (p : String) (op : BrokerOp) : Prop :=
  ∀ connId frame env, op = .frame connId frame env → frame.msgType = .batchPublish →
    ∀ req, lib.parseBatchPublishRequest frame.payload = some req →
      ∀ msg ∈ req.messages, msg.producerId ≠ p

/-- A request is stored and answered with the identifier of its message, or it is answered with
an error and not stored. -/
def Settles (connId : ConnectionId) (req : PublishRequest) (result : BrokerResult) : Prop :=
  (∃ msgId, result.stored = [⟨req, msgId⟩] ∧
    repliesTo connId result.sent = [.response (.ofBool true "" msgId)]) ∨
  (result.stored = [] ∧
    ∃ resp, resp.success = false ∧ repliesTo connId result.sent = [.response resp])

theorem publishIn?_eq_some {p : String} {frame : Frame} {req : PublishRequest} :
    publishIn? lib p frame = some req ↔ frame.msgType = .publish ∧
      lib.parsePublishRequest frame.payload = some req ∧ req.producerId = p := by
  rw [publishIn?]
  constructor
  · intro h
    split at h
    · next htype =>
      obtain ⟨hparse, hp⟩ := Option.filter_eq_some_iff.mp h
      exact ⟨htype, hparse, of_decide_eq_true hp⟩
    · cases h
  · rintro ⟨htype, hparse, hp⟩
    rw [if_pos htype, hparse, Option.filter_some, if_pos (decide_eq_true hp)]

theorem publishOf?_eq_some {p : String} {op : BrokerOp} {req : PublishRequest} :
    publishOf? lib p op = some req ↔ ∃ connId frame env, op = .frame connId frame env ∧
      frame.msgType = .publish ∧ lib.parsePublishRequest frame.payload = some req ∧
      req.producerId = p := by
  constructor
  · intro h
    cases op with
    | frame connId frame env =>
      exact ⟨connId, frame, env, rfl, (publishIn?_eq_some lib).mp h⟩
    | _ => cases h
  · rintro ⟨connId, frame, env, rfl, h⟩
    exact (publishIn?_eq_some lib).mpr h

/-! ### One request -/

theorem repliesTo_singleton (connId : ConnectionId) {reply : OutFrame}
    (hreply : reply.isReply = true) : repliesTo connId [⟨connId, reply⟩] = [reply] := by
  simp [repliesTo, hreply]

/-- A refusal. -/
theorem settles_respond {connId : ConnectionId} {req : PublishRequest} {resp : Response}
    (hresp : resp.success = false) : Settles connId req (.respond connId resp) :=
  Or.inr ⟨rfl, resp, hresp, repliesTo_singleton connId rfl⟩

/-- An admission, with the pushes in front of the response. -/
theorem settles_stored {connId : ConnectionId} {req : PublishRequest} {msgId : MessageId}
    {pushes : List Sent} (hpushes : OnlyPushes pushes) :
    Settles connId req
      { sent := pushes ++ [⟨connId, .response (.ofBool true "" msgId)⟩]
        stored := [⟨req, msgId⟩] } := by
  refine Or.inl ⟨msgId, rfl, ?_⟩
  rw [repliesTo_append, hpushes.repliesTo_eq_nil, List.nil_append]
  exact repliesTo_singleton connId rfl

/-- A request that is no duplicate is settled. -/
theorem settles_handlePublish (b : Broker α) (connId : ConnectionId) {req : PublishRequest}
    (env : HandlerEnv) (hnew : b.isDuplicateRequest req = false) :
    Settles connId req (b.handlePublish lib connId (some req) env).2 := by
  have houtcome := b.publishOutcome lib connId req env
  generalize b.handlePublish lib connId (some req) env = out at houtcome ⊢
  cases houtcome with
  | duplicate hdup =>
    rw [hnew] at hdup
    cases hdup
  | refused => exact settles_respond rfl
  | admitted =>
    rw [storePublish]
    dsimp only
    split
    · exact settles_respond rfl
    · exact settles_stored (onlyPushes_pushPublished _ _ _ _ _ _)

/-! ### The window -/

variable {lib} {p : String} {h : List (BrokerEvent α)} {b : Broker α}

/-- What the window takes for a duplicate of the producer is not above a number that was
handled. -/
def WindowBelow (lib : Libraries) (p : String) (h : List (BrokerEvent α)) (b : Broker α) : Prop :=
  ∀ s, b.dedupWindow.isDuplicate p s = true → ∃ req ∈ publishesOf lib p h, s ≤ req.sequenceId

omit [TokenCount α] in
theorem WindowBelow.of_dedupWindow_eq {b' : Broker α} (hb : WindowBelow lib p h b)
    (hwindow : b'.dedupWindow = b.dedupWindow) (e : BrokerEvent α) :
    WindowBelow lib p (h ++ [e]) b' := by
  intro s hdup
  rw [hwindow] at hdup
  obtain ⟨req, hreq, hs⟩ := hb s hdup
  exact ⟨req, by rw [publishesOf, List.filterMap_append]; exact List.mem_append_left _ hreq, hs⟩

/-- Every step keeps the window below. -/
theorem WindowBelow.step (hb : WindowBelow lib p h b) (op : BrokerOp) :
    WindowBelow lib p (h ++ [(broker α lib).event b op]) ((broker α lib).step b op).1 := by
  by_cases hpublish : IsFrame .publish op
  · obtain ⟨connId, frame, env, rfl, htype⟩ := hpublish
    have hstep := b.step_publish lib connId env htype
    rcases b.handlePublish_cases lib connId (lib.parsePublishRequest frame.payload) env
      with ⟨hwindow, -⟩ | ⟨req, -, -, hwindow, -⟩ | ⟨req, msgId, hparse, -, -, hwindow, -⟩
    · exact hb.of_dedupWindow_eq (by rw [hstep, hwindow]) _
    · exact hb.of_dedupWindow_eq (by rw [hstep, hwindow]) _
    · rw [dedupWindow_markProcessed] at hwindow
      split at hwindow
      · intro s hdup
        rw [hstep, hwindow, DedupWindow.isDuplicate_markProcessed] at hdup
        rw [publishesOf, List.filterMap_append]
        rcases hdup with hdup | ⟨-, rfl, hs⟩
        · obtain ⟨req', hreq', hs⟩ := hb s hdup
          exact ⟨req', List.mem_append_left _ hreq', hs⟩
        · -- the request just marked is one of the producer
          refine ⟨req, List.mem_append_right _ (List.mem_filterMap.mpr ⟨_, List.mem_cons_self, ?_⟩),
            hs⟩
          exact (publishOf?_eq_some lib).mpr ⟨connId, frame, env, rfl, htype, hparse, rfl⟩
      · exact hb.of_dedupWindow_eq (by rw [hstep, hwindow]) _
  by_cases hbatch : IsFrame .batchPublish op
  · obtain ⟨connId, frame, env, rfl, htype⟩ := hbatch
    refine hb.of_dedupWindow_eq ?_ _
    rw [step_batchPublish lib b connId env htype]
    split
    · exact (b.handleBatchPublish_cases lib connId _ env).1
    · rfl
  · exact hb.of_dedupWindow_eq (b.step_other lib hpublish hbatch).1 _

/-- The window after a run that starts without the producer. -/
theorem windowBelow_run (hnew : ∀ s, b.dedupWindow.isDuplicate p s = false) (ops : List BrokerOp) :
    WindowBelow lib p ((broker α lib).trace b ops) ((broker α lib).run b ops) := by
  refine (broker α lib).history_induction (P := WindowBelow lib p) (fun s hdup => ?_)
    (fun h b op hb => hb.step op) ops
  rw [hnew s] at hdup
  cases hdup

/-! ### Every run -/

/-- The numbers of the requests increase. -/
def Increasing (reqs : List PublishRequest) : Prop :=
  reqs.Pairwise fun req req' => req.sequenceId < req'.sequenceId

/-- What a step stores of a producer is its own request. -/
theorem storedOf_step (hp : p ≠ "") (b : Broker α) {op : BrokerOp} (hop : NoBatchOf lib p op) :
    ((storedOf p [(broker α lib).event b op]).map StoredRequest.req).Sublist
      (publishOf? lib p op).toList := by
  have hother : ∀ {stored : List StoredRequest}, (∀ r ∈ stored, r.req.producerId ≠ p) →
      ((stored.filter fun r => r.req.producerId = p).map StoredRequest.req).Sublist
        (publishOf? lib p op).toList := fun hother => by
    rw [List.filter_eq_nil_iff.mpr fun r hr => by simpa using hother r hr]
    exact List.nil_sublist _
  rw [storedOf, List.flatMap_singleton, StepMachine.event_output]
  by_cases hpublish : IsFrame .publish op
  · obtain ⟨connId, frame, env, rfl, htype⟩ := hpublish
    rw [b.step_publish lib connId env htype]
    rcases b.handlePublish_cases lib connId (lib.parsePublishRequest frame.payload) env
      with ⟨-, hstored, -⟩ | ⟨req, -, -, -, hstored⟩ | ⟨req, msgId, hparse, -, -, -, hstored⟩
    · rw [hstored]
      exact hother nofun
    · rw [hstored]
      exact hother nofun
    · rw [hstored]
      by_cases heq : req.producerId = p
      · have hof : publishOf? lib p (.frame connId frame env) = some req :=
          (publishOf?_eq_some lib).mpr ⟨connId, frame, env, rfl, htype, hparse, heq⟩
        have hown : [(⟨req, msgId⟩ : StoredRequest)].filter (fun r => r.req.producerId = p) =
            [⟨req, msgId⟩] := List.filter_cons_of_pos (decide_eq_true heq)
        rw [hof, hown]
        exact List.Sublist.refl _
      · refine hother fun r hr => ?_
        rwa [List.mem_singleton.mp hr]
  by_cases hbatch : IsFrame .batchPublish op
  · obtain ⟨connId, frame, env, rfl, htype⟩ := hbatch
    rw [step_batchPublish lib b connId env htype]
    split
    · rcases (b.handleBatchPublish_cases lib connId _ env).2
        with hstored | ⟨req, hparse, -, -, hsub⟩
      · rw [hstored]
        exact hother nofun
      · refine hother fun r hr => ?_
        exact hop connId frame env rfl htype req hparse r.req
          (hsub.subset (List.mem_map_of_mem hr))
    · exact hother nofun
  · exact hother fun r hr => by
      rw [(b.step_other lib hpublish hbatch).2 r hr]
      exact hp.symm

/-- A request with a number above those that were handled is settled. -/
theorem settles_step (hb : WindowBelow lib p h b) {connId : ConnectionId} {frame : Frame}
    {env : HandlerEnv} {req : PublishRequest}
    (hreq : publishOf? lib p (.frame connId frame env) = some req)
    (habove : ∀ req' ∈ publishesOf lib p h, req'.sequenceId < req.sequenceId) :
    Settles connId req ((broker α lib).step b (.frame connId frame env)).2 := by
  obtain ⟨htype, hparse, hproducer⟩ := (publishIn?_eq_some lib).mp hreq
  have hnew : b.isDuplicateRequest req = false := by
    rw [isDuplicateRequest, hproducer]
    cases hdup : b.dedupWindow.isDuplicate p req.sequenceId with
    | false => exact Bool.and_false _
    | true =>
      obtain ⟨req', hreq', hle⟩ := hb req.sequenceId hdup
      exact absurd (habove req' hreq') (Nat.not_lt.mpr hle)
  rw [b.step_publish lib connId env htype, hparse]
  exact settles_handlePublish lib b connId env hnew

variable (lib) in
/-- **Requests in order.** Let the publish requests of a producer, which is new to the
deduplication window, be handled in the order of their numbers, on any connections and with any
other steps in between that are no batches with a message of the producer. Then each of them is
stored once and answered with its identifier, or refused with an error and not stored, and what
is stored of the producer are some of these requests, in this order. -/
theorem settled (hp : p ≠ "") (hnew : ∀ s, b.dedupWindow.isDuplicate p s = false)
    {ops : List BrokerOp} (hbatch : ∀ op ∈ ops, NoBatchOf lib p op)
    (horder : Increasing (publishesOf lib p ((broker α lib).trace b ops))) :
    let h := (broker α lib).trace b ops
    (∀ e ∈ h, ∀ connId frame env req, e.input = .frame connId frame env →
      publishOf? lib p e.input = some req → Settles connId req e.output) ∧
    ((storedOf p h).map StoredRequest.req).Sublist (publishesOf lib p h) := by
  intro h
  induction ops using List.reverseRecOn with
  | nil => exact ⟨fun e he => absurd he List.not_mem_nil, List.Sublist.refl _⟩
  | append_singleton ops op ih =>
    have hh : h = (broker α lib).trace b ops ++
        [(broker α lib).event ((broker α lib).run b ops) op] :=
      (broker α lib).trace_concat b ops op
    rw [StepMachine.trace_concat, publishesOf, List.filterMap_append, Increasing,
      List.pairwise_append] at horder
    obtain ⟨hsettled, hstored⟩ := ih (fun op hop => hbatch op (List.mem_append_left _ hop)) horder.1
    refine ⟨fun e he => ?_, ?_⟩
    · rw [hh] at he
      rcases List.mem_append.mp he with he | he
      · exact hsettled e he
      · rw [List.mem_singleton.mp he]
        rintro connId frame env req rfl hreq
        exact settles_step (windowBelow_run hnew ops) hreq fun req' hreq' =>
          horder.2.2 req' hreq' req (List.mem_filterMap.mpr ⟨_, List.mem_cons_self, hreq⟩)
    · have hlast := storedOf_step hp ((broker α lib).run b ops)
        (hbatch op (List.mem_append_right _ List.mem_cons_self))
      have hrequests : publishesOf lib p h = publishesOf lib p ((broker α lib).trace b ops) ++
          (publishOf? lib p op).toList := by
        rw [hh, publishesOf, List.filterMap_append, ← publishesOf]
        refine congrArg _ ?_
        rw [List.filterMap_eq_flatMap_toList, List.flatMap_singleton, StepMachine.event_input]
      rw [hrequests, hh, storedOf, List.flatMap_append, List.filter_append, List.map_append]
      exact List.Sublist.append hstored hlast

end Broker

end ProtoMsgQueue
