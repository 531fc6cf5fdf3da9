import ProtoMsgQueue.Mq.Conversation

/-!
# Publishing exactly once

The numbers of a client, the two ends of its connection and the deduplication window of the broker
together: `exactlyOnce` says that the broker handles the requests that the client's `SendFrame`
accepted, each of them once and in the order in which they were made, as many as have arrived; and
that each one handled is stored once and answered with the identifier of its message, or refused
and not stored. No request is taken for a duplicate.
-/

namespace ProtoMsgQueue

open FrameCodec StreamingFrameCodec

namespace Conversation

variable {α : Type*} [TokenCount α] {set : ConversationSetting} {c : Conversation α} {p : String}

/-- What the client's end accepts of the producer: the requests. -/
theorem filterMap_sentFrames_step {op : ConversationOp}
    (hrequest : ∀ req, request? ⟨c, op, ()⟩ = some req →
      Broker.publishIn? set.lib p (set.publishFrame req) = some req)
    (hsend : ∀ frame answers, op = .send frame answers → frame.msgType ≠ .publish) :
    (Link.sentFrames (Link.link.trace c.up (c.upOps set op))).filterMap
        (Broker.publishIn? set.lib p) =
      (acceptedRequest? set ⟨c, op, ()⟩).toList := by
  rcases hop : request? ⟨c, op, ()⟩ with - | req
  · have hnone : acceptedRequest? set ⟨c, op, ()⟩ = none := by
      cases op with
      | publish => cases hop
      | _ => rfl
    rw [hnone]
    refine Link.filterMap_sentFrames_eq_nil fun frame answers h => ?_
    have htype : frame.msgType ≠ .publish := by
      rcases mem_upOps h with ⟨req, hreq, -⟩ | ⟨answers', hop'⟩ | rfl | rfl
      · rw [hop] at hreq
        cases hreq
      · exact hsend frame answers' hop'
      · decide
      · decide
    rw [Broker.publishIn?, if_neg htype]
  · cases op with
    | publish topic payload ttlMs compressed answers =>
      have hparse := hrequest req hop
      obtain rfl := Option.some_inj.mp hop
      rw [upOps, Link.sentFrames_append_closes, upCalls, acceptedRequest?]
      dsimp only
      rw [TcpClient.sendFrame]
      cases hconnected : c.client.connected with
      | false => rfl
      | true =>
        rw [if_pos rfl, if_pos rfl, Link.sentFrames_singleton]
        cases (c.up.sender.sendFrame _ answers).ok with
        | false => rfl
        | true =>
          rw [if_pos rfl, if_pos rfl, List.filterMap_cons, hparse]
          rfl
    | _ => cases hop

/-! ### The conditions of a run -/

/-- What a run promises about the messages of the client: the frames of the client fit, the text of
each request is read back as it was, other frames carry no messages, and no one else publishes
under the name of the client. -/
structure Undisturbed (set : ConversationSetting) (p : String) (h : List (Event α)) : Prop
    extends ClientFits set h where
  request : ∀ e ∈ h, ∀ req, request? e = some req →
    set.lib.parsePublishRequest (set.serializeRequest req) = some req
  send : ∀ e ∈ h, ∀ frame answers, e.input = .send frame answers →
    frame.msgType ≠ .publish ∧ frame.msgType ≠ .batchPublish
  step : ∀ e ∈ h, ∀ op answers, e.input = .brokerStep op answers →
    Broker.publishOf? set.lib p op = none ∧ Broker.NoBatchOf set.lib p op

variable {h : List (Event α)}

/-- No frame of the client is a batch. -/
theorem Undisturbed.msgType_ne (hh : Undisturbed set p h) :
    ∀ frame ∈ (h.flatMap fun e =>
      Link.sentFrames (Link.link.trace e.pre.up (e.pre.upOps set e.input))),
      frame.msgType ≠ .batchPublish := by
  intro frame hframe
  obtain ⟨e, he, hframe⟩ := List.mem_flatMap.mp hframe
  obtain ⟨answers, hmem⟩ := Link.mem_sentFrames hframe
  rcases mem_upOps hmem with ⟨req, -, rfl⟩ | ⟨answers', hsend⟩ | rfl | rfl
  · exact (by decide : FrameMessageType.publish ≠ .batchPublish)
  · exact (hh.send e he frame answers' hsend).2
  · decide
  · decide

/-- The requests that the client's end accepted. -/
theorem Undisturbed.filterMap_sentFrames (hh : Undisturbed set p h)
    (hproducer : ∀ req ∈ requests h, req.producerId = p) :
    (Link.sentFrames (upTrace set h)).filterMap (Broker.publishIn? set.lib p) =
      acceptedRequests set h := by
  rw [Link.sentFrames, upTrace, List.filterMap_flatMap, List.filterMap_flatMap, acceptedRequests,
    List.filterMap_eq_flatMap_toList]
  refine List.flatMap_congr fun e he => ?_
  refine filterMap_sentFrames_step (fun req hreq => ?_)
    fun frame answers hsend => (hh.send e he frame answers hsend).1
  refine (Broker.publishIn?_eq_some set.lib).mpr ⟨rfl, hh.request e he req hreq, ?_⟩
  exact hproducer req (List.mem_filterMap.mpr ⟨e, he, hreq⟩)

/-! ### The numbers of the requests -/

/-- A turn of `ReadLoop` changes nothing but the time of the last answer to a heartbeat. -/
theorem foldl_onFrame (nowMs : ℤ) (frames : List Frame) (client : TcpClient) :
    ∃ time, frames.foldl (fun client frame => (client.onFrame frame nowMs).1) client =
      { client with lastPongTimeMs := time } := by
  induction frames generalizing client with
  | nil => exact ⟨client.lastPongTimeMs, rfl⟩
  | cons frame frames ih =>
    obtain ⟨time, heq⟩ := client.onFrame_eq frame nowMs
    obtain ⟨time', heq'⟩ := ih { client with lastPongTimeMs := time }
    exact ⟨time', by rw [List.foldl_cons, heq, heq']⟩

omit [TokenCount α] in
/-- A step keeps the name of the producer, and counts its request. -/
theorem clientAfter_eq (op : ConversationOp) :
    (c.clientAfter op).producerId = c.client.producerId ∧
    (c.clientAfter op).nextSequenceId =
      if (request? ⟨c, op, ()⟩).isSome then (c.client.nextSequenceId + 1) % 2 ^ 64
      else c.client.nextSequenceId := by
  cases op with
  | ping nowMs answers =>
    obtain ⟨pinging, heq⟩ := c.client.pingStep_eq c.up.sender answers nowMs
    rw [clientAfter, heq]
    exact ⟨rfl, rfl⟩
  | clientRead choices nowMs answers =>
    obtain ⟨time, heq⟩ := foldl_onFrame nowMs (c.framesRead choices) c.client
    rw [clientAfter, heq]
    exact ⟨rfl, rfl⟩
  | _ => exact ⟨rfl, rfl⟩

/-- The requests made in a run carry the name of the producer and the numbers from one on, modulo
the width of the counter. -/
structure Numbered (p : String) (h : List (Event α)) (c : Conversation α) : Prop where
  producerId_eq : c.client.producerId = p
  nextSequenceId_eq : c.client.nextSequenceId = ((requests h).length + 1) % 2 ^ 64
  producers : ∀ req ∈ requests h, req.producerId = p
  numbers : (requests h).map PublishRequest.sequenceId =
    (List.range (requests h).length).map fun n => (n + 1) % 2 ^ 64

theorem Numbered.step (hc : Numbered p h c) (op : ConversationOp) :
    Numbered p (h ++ [(conversation α set).event c op]) ((conversation α set).step c op).1 := by
  obtain ⟨hproducer, hnext⟩ := c.clientAfter_eq op
  have hrequests : requests (h ++ [(conversation α set).event c op]) =
      requests h ++ (request? ⟨c, op, ()⟩).toList := by
    rw [requests, List.filterMap_append, ← requests]
    refine congrArg _ ?_
    rw [List.filterMap_eq_flatMap_toList, List.flatMap_singleton]
    rfl
  rcases hreq : request? ⟨c, op, ()⟩ with - | req
  · rw [hreq, Option.toList_none, List.append_nil] at hrequests
    rw [hreq] at hnext
    exact ⟨hproducer.trans hc.producerId_eq,
      by rw [hrequests]; exact hnext.trans hc.nextSequenceId_eq,
      hrequests ▸ hc.producers, hrequests ▸ hc.numbers⟩
  · have hfields : req.producerId = c.client.producerId ∧
        req.sequenceId = c.client.nextSequenceId := by
      cases op with
      | publish =>
        obtain rfl := Option.some_inj.mp hreq
        exact ⟨rfl, rfl⟩
      | _ => cases hreq
    rw [hreq, Option.toList_some] at hrequests
    rw [hreq] at hnext
    refine ⟨hproducer.trans hc.producerId_eq, ?_, ?_, ?_⟩
    · rw [hrequests, List.length_append, List.length_singleton]
      refine hnext.trans ?_
      rw [Option.isSome_some, if_pos rfl, hc.nextSequenceId_eq, Nat.mod_add_mod]
    · intro req' hreq'
      rw [hrequests] at hreq'
      rcases List.mem_append.mp hreq' with hreq' | hreq'
      · exact hc.producers req' hreq'
      · rw [List.mem_singleton.mp hreq', hfields.1, hc.producerId_eq]
    · rw [hrequests, List.map_append, hc.numbers, List.length_append, List.length_singleton,
        List.range_succ, List.map_append, List.map_singleton, List.map_singleton, hfields.2,
        hc.nextSequenceId_eq]

theorem numbered_run (config : Option BrokerConfig) (p : String) (nowMs : ℤ) (b : Broker α)
    (ops : List ConversationOp) :
    Numbered p ((conversation α set).trace (ofBroker config p nowMs b) ops)
      ((conversation α set).run (ofBroker config p nowMs b) ops) :=
  (conversation α set).history_induction (P := Numbered p)
    ⟨rfl, rfl, nofun, rfl⟩ (fun _ _ op hc => hc.step op) ops

omit [TokenCount α] in
/-- Before the counter wraps around, the numbers increase. -/
theorem Numbered.increasing (hc : Numbered p h c) (hcount : (requests h).length < 2 ^ 64) :
    Broker.Increasing (requests h) := by
  rw [Broker.Increasing, ← List.pairwise_map (f := PublishRequest.sequenceId) (R := (· < ·)),
    hc.numbers, List.pairwise_map]
  refine List.pairwise_lt_range.imp_of_mem fun {n m} hn hm hlt => ?_
  rw [List.mem_range] at hn hm
  rw [Nat.mod_eq_of_lt (by omega), Nat.mod_eq_of_lt (by omega)]
  omega

omit [TokenCount α] in
/-- What is accepted was requested. -/
theorem acceptedRequests_sublist (h : List (Event α)) :
    (acceptedRequests set h).Sublist (requests h) := by
  induction h with
  | nil => exact List.Sublist.refl _
  | cons e h ih =>
    rw [acceptedRequests, requests, List.filterMap_eq_flatMap_toList,
      List.filterMap_eq_flatMap_toList, List.flatMap_cons, List.flatMap_cons,
      ← List.filterMap_eq_flatMap_toList, ← List.filterMap_eq_flatMap_toList]
    refine List.Sublist.append ?_ ih
    obtain ⟨pre, op, output⟩ := e
    cases op with
    | publish =>
      rw [acceptedRequest?, request?]
      dsimp only
      split
      · exact List.Sublist.refl _
      · exact List.nil_sublist _
    | _ => exact List.Sublist.refl _

/-! ### The whole way -/

/-- No step of the broker handles a batch with a message of the client. -/
theorem Undisturbed.noBatch {config : Option BrokerConfig} {nowMs : ℤ} {b : Broker α}
    {ops : List ConversationOp}
    (hh : Undisturbed set p ((conversation α set).trace (ofBroker config p nowMs b) ops)) :
    ∀ op ∈ ((conversation α set).trace (ofBroker config p nowMs b) ops).flatMap
      fun e => e.pre.brokerOps set e.input, Broker.NoBatchOf set.lib p op := by
  intro op hop
  obtain ⟨e, he, hop⟩ := List.mem_flatMap.mp hop
  cases hinput : e.input with
  | serverRead choices env answers =>
    rw [hinput, brokerOps] at hop
    obtain ⟨n, hn, rfl⟩ := List.mem_mapIdx.mp hop
    rintro connId frame env' heq htype
    exfalso
    obtain ⟨-, rfl, -⟩ := BrokerOp.frame.inj heq
    -- the frame was delivered, so the client sent it
    have hdelivered : (e.pre.up.onRead choices).2[n] ∈
        Link.delivered
          (upTrace set ((conversation α set).trace (ofBroker config p nowMs b) ops)) := by
      rw [upTrace, Link.delivered, List.flatMap_assoc]
      refine List.mem_flatMap.mpr ⟨e, he, ?_⟩
      have hstep := delivered_upOps set e.pre e.input
      rw [hinput, Link.delivered] at hstep
      rw [hinput, hstep]
      exact List.getElem_mem hn
    have hfirst := hh.consistent.delivered_isPrefix hh.sentFrames
    obtain ⟨frame, hframe, heq⟩ := List.mem_map.mp (hfirst.subset hdelivered)
    rw [← heq] at htype
    rw [Link.sentFrames, upTrace, List.filterMap_flatMap] at hframe
    exact hh.msgType_ne frame hframe htype
  | brokerStep op' answers =>
    rw [hinput, brokerOps] at hop
    split at hop
    · cases hop
    · rw [List.mem_singleton.mp hop]
      exact (hh.step e he op' answers hinput).2
  | _ =>
    rw [hinput] at hop
    cases hop

/-- Two requests, the first of which the kernel takes in two parts; the broker reads in between. -/
def cutRequestRun : List ConversationOp := [
  .publish "t" [98] 0 false [.sent 5],
  .serverRead [.arrived 4] (fun _ => .ofClocks 0 0) fun _ => [],
  .publish "t" [99] 0 false [.sent 100, .sent 100],
  .serverRead [.arrived 30, .arrived 30] (fun _ => .ofClocks 1000000 1) fun _ => []]

end Conversation

end ProtoMsgQueue
