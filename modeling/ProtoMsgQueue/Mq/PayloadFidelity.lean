import ProtoMsgQueue.Common.Compression
import ProtoMsgQueue.Mq.GroupFrames
import ProtoMsgQueue.Storage.Provenance

/-!
# What a client makes of a payload

A payload is stored compressed if the producer compressed it or the broker does. The store does
not keep which of its payloads are, and of the handlers that send messages only the one of a
publish request knows: the pushes of a batch and the answers to a pull never mark a payload as
compressed. `exists_storedAs_of_mem_sent` finds the step that stored a message, for every
message that is sent. So a client reads what was published iff the message is pushed by a
publish request or was stored as it was written.
-/

namespace ProtoMsgQueue

open UnorderedMap

/-- What the client program shows for a payload it cannot decompress. -/
def decompressFailed : Payload := "[decompress_failed]".toUTF8.toList

/-- The payload of a push as the client program reads it. -/
def PushMessage.decode (uncompress : Payload → ℕ → UncompressResult) (msg : PushMessage) :
    Payload :=
  if msg.compressed then
    let decompressed := decompress uncompress msg.payload
    if decompressed ≠ [] then decompressed else decompressFailed
  else msg.payload

/-- A request brings the payload `x`, compressed by the producer if it says so. -/
def PublishRequest.Carries (lib : Libraries) (req : PublishRequest) (x : Payload) : Prop :=
  req.payload = if req.compressed then lib.compress x else x

/-- Is the operation a frame of this type? -/
def BrokerOp.isFrame (msgType : FrameMessageType) : BrokerOp → Bool
  | .frame _ received _ => received.msgType = msgType
  | _ => false

/-- A frame has one type. -/
theorem BrokerOp.isFrame_eq_false {op : BrokerOp} {msgType msgType' : FrameMessageType}
    (h : op.isFrame msgType = true) (hne : msgType ≠ msgType') : op.isFrame msgType' = false := by
  cases op with
  | frame connId received env =>
    rw [isFrame, decide_eq_true_eq] at h
    rw [isFrame, decide_eq_false_iff_not, h]
    exact hne
  | _ => rfl

namespace Broker

variable {α : Type*} (lib : Libraries)

/-! ### Stored payloads -/

/-- The broker compresses the payload of a request: it is asked to, the producer has not done
so, and the payload gets smaller. -/
def compresses (b : Broker α) (req : PublishRequest) : Bool :=
  b.shouldCompress req.topic req.payload.length && !req.compressed &&
    (lib.compress req.payload ≠ [] && (lib.compress req.payload).length < req.payload.length)

/-- The step stores the payload of a request compressed. What an application publishes is
stored as it is. -/
def storesCompressed (e : BrokerEvent α) (req : PublishRequest) : Bool :=
  req.compressed ||
    match e.input with
    | .frame _ _ _ => e.pre.compresses lib req
    | _ => false

theorem compressPayload_eq (b : Broker α) (req : PublishRequest) :
    b.compressPayload lib req =
      if b.compresses lib req then (lib.compress req.payload, true)
      else (req.payload, req.compressed) := by
  rw [compressPayload, compresses]
  dsimp only
  rcases b.shouldCompress req.topic req.payload.length && !req.compressed with - | -
  · rfl
  · rw [Bool.true_and, if_pos rfl]

theorem compressed_eq_false_of_compresses {b : Broker α} {req : PublishRequest}
    (h : b.compresses lib req = true) : req.compressed = false := by
  simp only [compresses, Bool.and_eq_true, Bool.not_eq_true'] at h
  exact h.1.2

/-- A payload that the broker compresses is stored as another one. -/
theorem compress_ne_of_compresses {b : Broker α} {req : PublishRequest}
    (h : b.compresses lib req = true) : lib.compress req.payload ≠ req.payload := by
  simp only [compresses, Bool.and_eq_true, decide_eq_true_eq] at h
  intro heq
  rw [heq] at h
  exact absurd h.2.2 (lt_irrefl _)

variable {uncompress : Payload → ℕ → UncompressResult} {x : Payload}

/-- **Publish.** With its flag, the payload of a request is read as what was published. -/
theorem decode_compressPayload (hzlib : decompress uncompress (lib.compress x) = x)
    (hne : x ≠ []) {b : Broker α} {req : PublishRequest} (hcarries : req.Carries lib x)
    {p : PushMessage} (hpayload : (b.compressPayload lib req).1 = p.payload)
    (hflag : p.compressed = (b.compressPayload lib req).2) : p.decode uncompress = x := by
  rw [compressPayload_eq] at hpayload hflag
  rw [PublishRequest.Carries] at hcarries
  have hdecode : p.compressed = true → p.payload = lib.compress x → p.decode uncompress = x := by
    intro hcompressed hp
    rw [PushMessage.decode, if_pos hcompressed, hp, hzlib]
    exact if_pos hne
  cases hcompresses : b.compresses lib req with
  | true =>
    have hreq := compressed_eq_false_of_compresses lib hcompresses
    rw [hcompresses, if_pos rfl] at hpayload hflag
    rw [hreq, if_neg Bool.false_ne_true] at hcarries
    exact hdecode hflag (hcarries ▸ hpayload.symm)
  | false =>
    rw [hcompresses, if_neg Bool.false_ne_true] at hpayload hflag
    cases hreq : req.compressed with
    | true =>
      rw [hreq, if_pos rfl] at hcarries
      exact hdecode (hflag.trans hreq) (hpayload.symm.trans hcarries)
    | false =>
      rw [hreq, if_neg Bool.false_ne_true] at hcarries
      rw [PushMessage.decode, hflag, hreq, if_neg Bool.false_ne_true, ← hpayload]
      exact hcarries

/-- **Storage.** A payload is stored as what was published iff it is not stored compressed. -/
theorem storedPayload_eq_iff (e : BrokerEvent α) {req : PublishRequest}
    (hcarries : req.Carries lib x) : e.pre.storedPayload lib e.input req = x ↔
      storesCompressed lib e req = false ∨ lib.compress x = x := by
  rw [PublishRequest.Carries] at hcarries
  cases hreq : req.compressed with
  | true =>
    -- the broker leaves the payload alone
    have hstored : e.pre.storedPayload lib e.input req = req.payload := by
      rw [storedPayload.eq_def]
      split
      · rw [compressPayload_eq, if_neg]
        intro hcompresses
        rw [compressed_eq_false_of_compresses lib hcompresses] at hreq
        cases hreq
      · rfl
    rw [hreq, if_pos rfl] at hcarries
    simp [storesCompressed, hreq, hstored, hcarries]
  | false =>
    rw [hreq, if_neg Bool.false_ne_true] at hcarries
    obtain ⟨pre, op, output⟩ := e
    cases op with
    | frame connId frame env =>
      simp only [storesCompressed, storedPayload, hreq, Bool.false_or, compressPayload_eq]
      cases hcompresses : pre.compresses lib req with
      | true =>
        have hdiffers := compress_ne_of_compresses lib hcompresses
        rw [hcarries] at hdiffers
        simp [hcarries, hdiffers]
      | false => simp [hcarries]
    | _ => simp [storesCompressed, storedPayload, hreq, hcarries]

/-! ### Where a message was stored -/

/-- The messages that a step stored, as they are in the store. -/
def storedBy [TokenCount α] (e : BrokerEvent α) : List (TopicName × MessageId × Payload) :=
  e.output.stored.map fun r => (r.req.topic, r.msgId, e.pre.storedPayload lib e.input r.req)

/-- The step stored the message under this topic and identifier, with this payload. -/
structure StoredAs (e : BrokerEvent α) (r : StoredRequest) (p : PushMessage) : Prop where
  mem : r ∈ e.output.stored
  topic : r.req.topic = p.topic
  msgId : r.msgId = p.messageId
  payload : e.pre.storedPayload lib e.input r.req = p.payload

/-- The steps that stored what a step sends: a pull sends what was stored before it, and all
other steps send what they store themselves. -/
def origins (H : List (BrokerEvent α)) (e : BrokerEvent α) : List (BrokerEvent α) :=
  if e.input.isFrame .pull then H else [e]

/-- Is the message marked as compressed? Only a publish request does that. -/
def marksCompressed (e : BrokerEvent α) (req : PublishRequest) : Bool :=
  e.input.isFrame .publish && (e.pre.compressPayload lib req).2

theorem mem_messages_publishPushes {req : PublishRequest} {payload : Payload} {compressed : Bool}
    {msgId : MessageId} {env : HandlerEnv} {tm : TopicManager} {f : TaggedSent}
    (hf : f ∈ publishPushes req payload compressed msgId env tm) {p : PushMessage}
    (hp : p ∈ f.sent.frame.messages) : req.topic = p.topic ∧ msgId = p.messageId ∧
      payload = p.payload ∧ p.compressed = compressed := by
  have hframe : ∃ n, f.sent.frame.messages = [⟨msgId, req.topic, payload, n, 0, compressed⟩] := by
    rcases List.mem_append.mp hf with hf | hf
    · obtain ⟨sub, -, rfl⟩ := List.mem_map.mp hf
      exact ⟨_, rfl⟩
    · obtain ⟨n, -, rfl⟩ := List.exists_of_mem_mapIdx hf
      exact ⟨_, rfl⟩
  obtain ⟨n, hmessages⟩ := hframe
  rw [hmessages, List.mem_singleton] at hp
  rw [hp]
  exact ⟨rfl, rfl, rfl, rfl⟩

/-- The pushes of a batch hold stored messages, none of them marked as compressed. -/
theorem mem_messages_topicsPushes {flag : Bool} {env : HandlerEnv}
    {topicMessages : UnorderedMap TopicName (List StoredMessage)} {topics : List TopicName}
    {tm : TopicManager} {f : TaggedSent}
    (hf : f ∈ topicsPushes flag env topicMessages topics tm) {p : PushMessage}
    (hp : p ∈ f.sent.frame.messages) : ∃ topic, ∃ msg ∈ valueAt topicMessages topic [],
      p = .ofStored msg topic false := by
  induction topics generalizing tm with
  | nil => cases hf
  | cons topic topics ih =>
    rw [topicsPushes] at hf
    rcases List.mem_append.mp hf with hf | hf
    swap
    · exact ih hf
    obtain ⟨receiver, -, hf⟩ := List.mem_flatMap.mp hf
    obtain ⟨frame, hframe, rfl⟩ := List.mem_map.mp hf
    refine ⟨topic, ?_⟩
    rw [topicFrames] at hframe
    split at hframe
    · rw [List.mem_singleton.mp hframe] at hp
      obtain ⟨msg, hmsg, rfl⟩ := List.mem_map.mp hp
      exact ⟨msg, hmsg, rfl⟩
    · obtain ⟨msg, hmsg, rfl⟩ := List.mem_map.mp hframe
      exact ⟨msg, List.mem_of_mem_take hmsg, List.mem_singleton.mp hp⟩

variable [TokenCount α]

/-- A pushed message was stored by the step that pushes it. -/
theorem exists_storedAs_of_mem_pushedFrames {b : Broker α} {op : BrokerOp} {f : TaggedSent}
    (hf : f ∈ b.pushedFrames lib op) {p : PushMessage} (hp : p ∈ f.sent.frame.messages) :
    op.isFrame .pull = false ∧ ∃ r, StoredAs lib ((broker α lib).event b op) r p ∧
      p.compressed = marksCompressed lib ((broker α lib).event b op) r.req := by
  cases op with
  | frame connId frame env =>
    rw [pushedFrames] at hf
    split at hf
    · rename_i hpublish
      obtain ⟨r, hr, hf⟩ := List.mem_flatMap.mp hf
      obtain ⟨htopic, hid, hpayload, hflag⟩ := mem_messages_publishPushes hf hp
      refine ⟨BrokerOp.isFrame_eq_false (decide_eq_true hpublish) (by decide), r,
        ⟨?_, htopic, hid, hpayload⟩, ?_⟩
      · rw [StepMachine.event_output, step_publish lib b connId env hpublish]
        exact hr
      · simpa [marksCompressed, BrokerOp.isFrame, hpublish] using hflag
    rename_i hpublish
    split at hf
    · rename_i hbatch
      rcases hparse : lib.parseBatchPublishRequest frame.payload with - | req
      · rw [hparse] at hf
        cases hf
      rw [hparse] at hf
      dsimp only at hf
      split at hf
      swap
      · cases hf
      rename_i henabled
      obtain ⟨topic, msg, hmsg, rfl⟩ := mem_messages_topicsPushes hf hp
      -- the message is one of those the handler has stored
      rw [valueAt_groupByTopic, List.mem_filter] at hmsg
      have hcontent := List.mem_map_of_mem (f := StoredMessage.content) hmsg.1
      rw [← map_stored_handleBatchPublish] at hcontent
      obtain ⟨r, hr, heq⟩ := List.mem_map.mp hcontent
      obtain ⟨hname, hid, hpayload⟩ : r.req.topic = msg.topicName ∧ r.msgId = msg.id ∧
          (b.compressPayload lib r.req).1 = msg.payload := by
        simpa [StoredMessage.content] using heq
      have hfrom := of_decide_eq_true hmsg.2
      refine ⟨BrokerOp.isFrame_eq_false (decide_eq_true hbatch) (by decide), r,
        ⟨?_, hname.trans hfrom, hid, hpayload⟩, ?_⟩
      · rw [StepMachine.event_output, step_batchPublish lib b connId env hbatch, if_pos henabled,
          hparse]
        exact hr
      · simp [marksCompressed, BrokerOp.isFrame, hpublish, PushMessage.ofStored]
    · cases hf
  | _ => cases hf

omit [TokenCount α] in
/-- A pulled message is one that the store returns. -/
theorem exists_mem_pull_of_mem_pulledFrames {b : Broker α} {op : BrokerOp} {f : TaggedSent}
    (hf : f ∈ b.pulledFrames lib op) {p : PushMessage} (hp : p ∈ f.sent.frame.messages) :
    op.isFrame .pull = true ∧ op.isFrame .publish = false ∧ p.compressed = false ∧
      ∃ c maxMessages nowMs steadyNow,
        ∃ msg ∈ (b.store.pull p.topic c maxMessages nowMs steadyNow).2,
          msg.id = p.messageId ∧ msg.payload = p.payload := by
  cases op with
  | frame connId frame env =>
    rw [pulledFrames] at hf
    split at hf
    swap
    · cases hf
    rename_i hpull
    rcases hparse : lib.parsePullRequest frame.payload with - | req
    · rw [hparse] at hf
      cases hf
    rw [hparse] at hf
    obtain ⟨pulled, hpulled, rfl⟩ := List.mem_map.mp hf
    have hmsg : ∃ msg ∈ (b.store.pull req.topic (consumerOf req.subscriberId req.groupId)
        req.maxMessages env.pullNowMs env.pulledAt).2, p = .ofStored msg req.topic false := by
      rw [pullFrames] at hpulled
      split at hpulled
      · rw [List.mem_singleton.mp hpulled] at hp
        obtain ⟨msg, hmsg, rfl⟩ := List.mem_map.mp hp
        exact ⟨msg, hmsg, rfl⟩
      · obtain ⟨pushed, hpushed, rfl⟩ := List.mem_map.mp hpulled
        obtain ⟨msg, hmsg, rfl⟩ := List.mem_map.mp hpushed
        exact ⟨msg, hmsg, List.mem_singleton.mp hp⟩
    obtain ⟨msg, hmem, rfl⟩ := hmsg
    have htype : BrokerOp.isFrame .pull (.frame connId frame env) = true := decide_eq_true hpull
    exact ⟨htype, BrokerOp.isFrame_eq_false htype (by decide), rfl, _, _, _, _, msg, hmem, rfl, rfl⟩
  | _ => cases hf

/-- Everything in the store of the broker was stored by a step before. -/
def HoldsStored (store : StoreConfig) (H : List (BrokerEvent α)) (b : Broker α) : Prop :=
  b.store.config = store ∧ b.store.Sourced (H.flatMap (storedBy lib))

theorem holdsStored_step {store : StoreConfig} (hbuffer : store.defaultBufferSize < 2 ^ 32)
    {H : List (BrokerEvent α)} {b : Broker α} (h : HoldsStored lib store H b) (op : BrokerOp) :
    HoldsStored lib store (H ++ [(broker α lib).event b op]) ((broker α lib).step b op).1 := by
  obtain ⟨hstore, hpublished⟩ := b.store_step lib op
  obtain ⟨hconfig, hsourced⟩ := h
  refine ⟨?_, ?_⟩
  · rw [hstore, MemoryMessageStore.config_run, hconfig]
  · have hrun := hsourced.run (hconfig.symm ▸ hbuffer) (b.storeOps lib op)
    rw [hpublished] at hrun
    rw [hstore, List.flatMap_append, List.flatMap_singleton]
    exact hrun

/-- **Origins.** Every message that a step sends was stored by one of the steps it can be from,
and is marked as compressed only by a publish request. -/
theorem exists_storedAs_of_mem_sent {store : StoreConfig} {H : List (BrokerEvent α)}
    {b : Broker α} (h : HoldsStored lib store H b) {op : BrokerOp} {s : Sent}
    (hs : s ∈ ((broker α lib).step b op).2.sent) {p : PushMessage} (hp : p ∈ s.frame.messages) :
    ∃ e₀ ∈ origins H ((broker α lib).event b op), ∃ r, StoredAs lib e₀ r p ∧
      p.compressed = marksCompressed lib ((broker α lib).event b op) r.req := by
  obtain ⟨answers, hsent, hanswers⟩ := b.sent_step lib op
  rw [hsent] at hs
  rcases List.mem_append.mp hs with hs | hs
  swap
  · rw [hanswers s hs] at hp
    cases hp
  obtain ⟨f, hf, rfl⟩ := List.mem_map.mp hs
  rcases List.mem_append.mp hf with hf | hf
  · obtain ⟨hpull, r, hstored, hflag⟩ := exists_storedAs_of_mem_pushedFrames lib hf hp
    refine ⟨_, ?_, r, hstored, hflag⟩
    rw [origins, StepMachine.event_input, hpull, if_neg Bool.false_ne_true]
    exact List.mem_singleton_self _
  · obtain ⟨hpull, hpublish, hflag, c, maxMessages, nowMs, steadyNow, msg, hmsg, hid, hpayload⟩ :=
      exists_mem_pull_of_mem_pulledFrames lib hf hp
    obtain ⟨e₀, he₀, hstored⟩ := List.mem_flatMap.mp (h.2.of_mem_pull hmsg)
    obtain ⟨r, hr, heq⟩ := List.mem_map.mp hstored
    obtain ⟨htopic, hid', hpayload'⟩ : r.req.topic = p.topic ∧ r.msgId = msg.id ∧
        e₀.pre.storedPayload lib e₀.input r.req = msg.payload := by
      simpa using heq
    refine ⟨e₀, ?_, r, ⟨hr, htopic, hid'.trans hid, hpayload'.trans hpayload⟩, ?_⟩
    · rw [origins, StepMachine.event_input, hpull, if_pos rfl]
      exact he₀
    · rw [hflag, marksCompressed, StepMachine.event_input, hpublish, Bool.false_and]

/-- A publish request stores one message at most. -/
theorem req_eq_of_mem_stored {b : Broker α} {op : BrokerOp} (hpublish : op.isFrame .publish = true)
    {r r' : StoredRequest} (hr : r ∈ ((broker α lib).step b op).2.stored)
    (hr' : r' ∈ ((broker α lib).step b op).2.stored) : r.req = r'.req := by
  cases op with
  | frame connId frame env =>
    rw [step_publish lib b connId env (of_decide_eq_true hpublish)] at hr hr'
    rcases handlePublish_cases lib b connId (lib.parsePublishRequest frame.payload) env with
      ⟨-, hstored, -⟩ | ⟨_, -, -, -, hstored⟩ | ⟨_, _, -, -, -, -, hstored⟩
    · rw [hstored] at hr
      cases hr
    · rw [hstored] at hr
      cases hr
    · rw [hstored, List.mem_singleton] at hr hr'
      rw [hr, hr']
  | _ => cases hpublish

variable {uncompress : Payload → ℕ → UncompressResult}

/-- What a client reads in a message that a step sends. -/
theorem decode_eq_iff_of_storedAs {store : StoreConfig} {H : List (BrokerEvent α)}
    {b : Broker α} (h : HoldsStored lib store H b) {op : BrokerOp} {s : Sent}
    (hs : s ∈ ((broker α lib).step b op).2.sent) {p : PushMessage} (hp : p ∈ s.frame.messages)
    {e₀ : BrokerEvent α} (he₀ : e₀ ∈ origins H ((broker α lib).event b op)) {r : StoredRequest}
    (hstored : StoredAs lib e₀ r p) {x : Payload} (hne : x ≠ [])
    (hzlib : decompress uncompress (lib.compress x) = x) (hcarries : r.req.Carries lib x) :
    p.decode uncompress = x ↔ op.isFrame .publish = true ∨
      storesCompressed lib e₀ r.req = false ∨ lib.compress x = x := by
  obtain ⟨e₁, he₁, r₁, hstored₁, hflag⟩ := exists_storedAs_of_mem_sent lib h hs hp
  cases hpublish : op.isFrame .publish with
  | true =>
    refine iff_of_true ?_ (Or.inl rfl)
    have hpull : op.isFrame .pull = false := BrokerOp.isFrame_eq_false hpublish (by decide)
    -- both origins are the request itself
    rw [origins, StepMachine.event_input, hpull, if_neg Bool.false_ne_true,
      List.mem_singleton] at he₀ he₁
    subst he₀ he₁
    have hreq := req_eq_of_mem_stored lib hpublish hstored₁.mem hstored.mem
    rw [marksCompressed, StepMachine.event_input, hpublish, Bool.true_and, hreq] at hflag
    refine decode_compressPayload lib hzlib hne hcarries ?_ hflag
    have hpayload := hstored.payload
    cases op with
    | frame connId frame env => exact hpayload
    | _ => cases hpublish
  | false =>
    rw [marksCompressed, StepMachine.event_input, hpublish, Bool.false_and] at hflag
    have hdecode : p.decode uncompress = e₀.pre.storedPayload lib e₀.input r.req := by
      rw [PushMessage.decode, hflag, if_neg Bool.false_ne_true, hstored.payload]
    rw [hdecode, storedPayload_eq_iff lib e₀ hcarries]
    simp

/-- **Payload fidelity**, exactly if the flag is not needed. Every message that is sent was
stored before, and a client reads what was published in it iff a publish request pushes it or
it was not stored compressed (or compression does not change it). -/
theorem decode_sent_iff (config : BrokerConfig) (store : StoreConfig)
    (hbuffer : store.defaultBufferSize < 2 ^ 32) (steadyNow : ℤ)
    (hzlib : ∀ x, x ≠ [] → decompress uncompress (lib.compress x) = x) (ops : List BrokerOp) :
    (broker α lib).Along (fun H e => ∀ s ∈ e.output.sent, ∀ p ∈ s.frame.messages,
      (∃ e₀ ∈ origins H e, ∃ r, StoredAs lib e₀ r p) ∧
        ∀ e₀ ∈ origins H e, ∀ r, StoredAs lib e₀ r p → ∀ x, x ≠ [] → r.req.Carries lib x →
          (p.decode uncompress = x ↔ e.input.isFrame .publish = true ∨
            storesCompressed lib e₀ r.req = false ∨ lib.compress x = x))
      (ofConfig config store steadyNow) ops := by
  refine (broker α lib).along_of_history (P := HoldsStored lib store)
    ⟨rfl, MemoryMessageStore.sourced_ofConfig hbuffer⟩ ?_ ?_ ops
  · intro H b op h
    exact holdsStored_step lib hbuffer h op
  · intro H b op h s hs p hp
    obtain ⟨e₀, he₀, r, hstored, -⟩ := exists_storedAs_of_mem_sent lib h hs hp
    refine ⟨⟨e₀, he₀, r, hstored⟩, fun e₀ he₀ r hstored x hne hcarries => ?_⟩
    exact decode_eq_iff_of_storedAs lib h hs hp he₀ hstored hne (hzlib x hne) hcarries

/-! ### A compressed payload on the wire -/

/-- A payload of sixteen equal bytes. -/
def repeatedPayload : Payload := List.replicate 16 97

/-- What zlib makes of it. -/
def deflatedPayload : Payload := [120, 156, 75, 76, 68, 5, 0, 51, 152, 6, 17]

/-- Parsers that know a message for topic `t` with the payload and a pull of `c`, and a
compressor that knows the payload and marks all others. -/
def compressLibraries : Libraries where
  parsePublishRequest bytes :=
    if bytes = [10, 1, 116, 18, 16] ++ repeatedPayload then
      some { topic := "t", payload := repeatedPayload }
    else none
  parseBatchPublishRequest _ := none
  parseSubscribeRequest _ := none
  parseUnsubscribeRequest _ := none
  parsePullRequest
    | [10, 1, 116, 18, 1, 99, 32, 10] =>
      some { topic := "t", subscriberId := "c", maxMessages := 10 }
    | _ => none
  parseAckRequest _ := none
  parseAdminRequest _ := none
  compress2 data := some (if data = repeatedPayload then deflatedPayload else 0 :: data)

/-- The other direction of this compressor. -/
def uncompressMarked (data : Payload) (size : ℕ) : UncompressResult :=
  let contents? : Option Payload :=
    if data = deflatedPayload then some repeatedPayload
    else
      match data with
      | 0 :: contents => some contents
      | _ => none
  match contents? with
  | none => .error
  | some contents => if contents.length ≤ size then .ok contents else .bufError

theorem decompress_compressLibraries (x : Payload) (hne : x ≠ []) :
    decompress uncompressMarked (compressLibraries.compress x) = x := by
  rw [Libraries.compress, if_neg hne]
  by_cases hx : x = repeatedPayload
  · rw [hx]
    decide +kernel
  · have hcompress : (compressLibraries.compress2 x).getD [] = 0 :: x := by
      simp [compressLibraries, hx]
    rw [hcompress]
    refine decompress_eq (List.cons_ne_nil _ _) (fun size => ?_) ?_
    · simp [uncompressMarked, deflatedPayload]
    · simp
      omega

/-- The frame of the message. -/
def repeatedFrame : Frame :=
  { msgType := .publish, payload := [10, 1, 116, 18, 16] ++ repeatedPayload }

/-- The frame of the pull. -/
def plainPullFrame : Frame := { msgType := .pull, payload := [10, 1, 116, 18, 1, 99, 32, 10] }

/-- A configuration with compression. -/
def compressConfig : BrokerConfig := { compressionEnabled := true, compressionThresholdBytes := 8 }

/-- A message is published and pulled. -/
def publishThenPullRun : List BrokerOp := [
  .frame 2 repeatedFrame (.ofClocks 0 0), .frame 1 plainPullFrame (.ofClocks 1000000 1)]

/-- Without compression the pulled message is read as it was published. -/
theorem decode_sent_plain : ∃ s ∈ ((broker ℚ compressLibraries).step
      ((broker ℚ compressLibraries).run (ofConfig {} { defaultBufferSize := 128 } 0)
        [.frame 2 repeatedFrame (.ofClocks 0 0)])
      (.frame 1 plainPullFrame (.ofClocks 1000000 1))).2.sent,
    ∃ p ∈ s.frame.messages, p.decode uncompressMarked = repeatedPayload := by
  set p : PushMessage := ⟨1, "t", repeatedPayload, 0, 0, false⟩
  have hsent : (⟨1, .push p⟩ : Sent) ∈ ((broker ℚ compressLibraries).step
      ((broker ℚ compressLibraries).run (ofConfig {} { defaultBufferSize := 128 } 0)
        [.frame 2 repeatedFrame (.ofClocks 0 0)])
      (.frame 1 plainPullFrame (.ofClocks 1000000 1))).2.sent := by decide +kernel
  refine ⟨_, hsent, p, List.mem_singleton_self _, ?_⟩
  have halong := decode_sent_iff (α := ℚ) compressLibraries {} { defaultBufferSize := 128 }
    (by decide) 0 decompress_compressLibraries publishThenPullRun
  obtain ⟨⟨e₀, he₀, r, hstored⟩, hiff⟩ := halong [_] _ [] rfl _ hsent p (List.mem_singleton_self _)
  obtain rfl := List.mem_singleton.mp he₀
  have hreq : ∀ r' ∈ ((broker ℚ compressLibraries).step
      (ofConfig {} { defaultBufferSize := 128 } 0)
      (.frame 2 repeatedFrame (.ofClocks 0 0))).2.stored,
      r'.req = { topic := "t", payload := repeatedPayload } := by decide +kernel
  have hr := hreq r hstored.mem
  refine (hiff _ he₀ r hstored repeatedPayload (by decide) ?_).mpr (Or.inr (Or.inl ?_))
  · rw [hr]
    rfl
  · rw [hr]
    decide +kernel

/-- With compression the pulled message is read as the compressed bytes. -/
theorem not_decode_sent_compressed :
    (∀ x, x ≠ [] → decompress uncompressMarked (compressLibraries.compress x) = x) ∧
      ¬(broker ℚ compressLibraries).Along (fun H e => ∀ s ∈ e.output.sent, ∀ p ∈ s.frame.messages,
          ∀ e₀ ∈ origins H e, ∀ r, StoredAs compressLibraries e₀ r p → ∀ x, x ≠ [] →
            r.req.Carries compressLibraries x → p.decode uncompressMarked = x)
        (ofConfig compressConfig { defaultBufferSize := 128 } 0) publishThenPullRun := by
  refine ⟨decompress_compressLibraries, fun halong => ?_⟩
  set p : PushMessage := ⟨1, "t", deflatedPayload, 0, 0, false⟩
  set r : StoredRequest := ⟨{ topic := "t", payload := repeatedPayload }, 1⟩
  have hsent : (⟨1, .push p⟩ : Sent) ∈ ((broker ℚ compressLibraries).step
      ((broker ℚ compressLibraries).run (ofConfig compressConfig { defaultBufferSize := 128 } 0)
        [.frame 2 repeatedFrame (.ofClocks 0 0)])
      (.frame 1 plainPullFrame (.ofClocks 1000000 1))).2.sent := by decide +kernel
  have hstored : StoredAs compressLibraries ((broker ℚ compressLibraries).event
      (ofConfig compressConfig { defaultBufferSize := 128 } 0)
      (.frame 2 repeatedFrame (.ofClocks 0 0))) r p :=
    ⟨by decide +kernel, rfl, rfl, by decide +kernel⟩
  have hread := halong [_] _ [] rfl _ hsent p (List.mem_singleton_self _) _
    (List.mem_singleton_self _) r hstored repeatedPayload (by decide) rfl
  exact absurd hread (by decide)

end Broker

end ProtoMsgQueue
