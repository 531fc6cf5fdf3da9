import ProtoMsgQueue.Mq.GroupDelivery
import ProtoMsgQueue.Mq.PulledMessages
import ProtoMsgQueue.Mq.RequestReply
import ProtoMsgQueue.Storage.DeadLetterQueue

/-!
# Pulling a topic, from the store to the client

A client that pulls a topic as a consumer, and is the only one to do so: what it reads for the
first time are messages of the topic, in the order in which they were stored and none of them
twice; and as soon as nothing is on the way to it, no message that its pulls have passed is missing
but for those that expired (`pullDelivery`). The connection, the pushes to others, the pulls of
other consumers, the publishing clients and the background threads of the store may do what they
want; only the topic must not be deleted.
-/

namespace ProtoMsgQueue

open FrameCodec MemoryMessageStore StreamingFrameCodec

/-! ### A stretch of a topic's run -/

/-- **A stretch.** From any time on, a consumer is first handed messages that were accepted, in
order, and all that it passes from then on but for those that expired. -/
theorem TopicData.firstDeliveries_stretch (cfg : StoreConfig) (topicName : TopicName)
    (hbuffer : cfg.defaultBufferSize ≤ kMaxPayloadSize) {before ops : List TopicOp}
    (hpublishes : publishes (before ++ ops) < 2 ^ 64 - 2) (c : Consumer) :
    let td := (topic cfg).run (ofName topicName cfg.defaultBufferSize) before
    let h := (topic cfg).trace (ofName topicName cfg.defaultBufferSize) (before ++ ops)
    let first := firstDeliveries c ((topic cfg).trace td ops)
    first.Sublist (accepted h) ∧ (accepted h).Pairwise (·.id < ·.id) ∧
    ∀ m ∈ accepted h, td.offset c ≤ m.id → m.id < ((topic cfg).run td ops).offset c →
      m ∈ first ∨ ∃ e ∈ h, WentOver c m e := by
  intro td h first
  have hbefore : publishes before < 2 ^ 64 - 2 := by
    rw [publishes, List.countP_append] at hpublishes
    exact (Nat.le_add_right _ _).trans_lt hpublishes
  obtain ⟨-, hok₀⟩ := firstDeliveriesOk_run cfg topicName hbuffer before hbefore c
  obtain ⟨⟨drained, waiting, hc⟩, hok⟩ :=
    firstDeliveriesOk_run cfg topicName hbuffer (before ++ ops) hpublishes c
  have hsplit : firstDeliveries c h =
      firstDeliveries c ((topic cfg).trace (ofName topicName cfg.defaultBufferSize) before) ++
        first := by
    simp only [h, first, StepMachine.trace_append, firstDeliveries, List.flatMap_append,
      List.filter_append]
    rfl
  refine ⟨?_, hc.sorted, fun m hm hstart hstop => ?_⟩
  · exact (hsplit ▸ List.sublist_append_right _ _).trans hok.sublist
  · rw [StepMachine.run_append] at hok
    refine (hok.missing m hm hstop).imp_left fun hmem => ?_
    rw [hsplit] at hmem
    refine (List.mem_append.mp hmem).resolve_left fun hold => ?_
    exact absurd (hok₀.below m hold) (not_lt.mpr hstart)

/-- The messages with retry count zero. -/
def firstOnes (msgs : List PushMessage) : List PushMessage :=
  msgs.filter fun msg => msg.retryCount = 0

namespace Broker

variable {α : Type*} [TokenCount α] (lib : Libraries)

/-- The history of a topic in a history of the broker. -/
def topicHistory (t : TopicName) (H : List (BrokerEvent α)) : List TopicEvent :=
  topicTrace t (storeTrace lib H)

/-- The messages of a topic that were stored, in order. -/
def storedOn (t : TopicName) (H : List (BrokerEvent α)) :
    List (TopicName × MessageId × Payload) :=
  (H.flatMap (storedBy lib)).filter fun p => p.1 = t

/-- The topic is not deleted. -/
def Keeps (t : TopicName) (H : List (BrokerEvent α)) : Prop :=
  ∀ e ∈ H, ∀ op ∈ e.pre.storeOps lib e.input, op.deletes t = false

/-- What a consumer was handed first: messages that were stored, in their order, and all that its
pulls passed from one offset to another, unless they had expired when that was found out. -/
structure HandedFirst (t : TopicName) (c : Consumer) (H : List (BrokerEvent α))
    (start stop : MessageId) (first : List PushMessage) : Prop where
  sublist : (first.map PushMessage.content).Sublist (storedOn lib t H)
  increasing : first.Pairwise (·.messageId < ·.messageId)
  complete : ∀ m ∈ accepted (topicHistory lib t H), start ≤ m.id → m.id < stop →
    .ofStored m t false ∈ first ∨ ∃ e ∈ topicHistory lib t H, WentOver c m e

/-- The steps of a topic in a run of the broker are a run of `topic`. -/
theorem topicHistory_trace {b : Broker α} {cfg : StoreConfig} (hconfig : b.store.config = cfg)
    {ops : List BrokerOp} {t : TopicName} (hkept : Keeps lib t ((broker α lib).trace b ops)) :
    ∃ tops, topicHistory lib t ((broker α lib).trace b ops) =
        (topic cfg).trace (b.store.topicAt t) tops ∧
      ((broker α lib).run b ops).store.topicAt t = (topic cfg).run (b.store.topicAt t) tops ∧
      publishes tops ≤ offered lib ((broker α lib).trace b ops) := by
  have hdelete : .deleteTopic t ∉
      ((broker α lib).trace b ops).flatMap fun e => e.pre.storeOps lib e.input := fun hmem => by
    obtain ⟨e, he, hmem⟩ := List.mem_flatMap.mp hmem
    exact StoreOp.deletes_eq_false.mp (hkept e he _ hmem) rfl
  rw [topicHistory, storeTrace_eq, (broker α lib).run_component (π := Broker.store)
    (f := fun b op => b.storeOps lib op) (fun b op => (b.store_step lib op).1) b ops]
  exact topicTrace_run hconfig hdelete

/-- What was stored on a topic is what its history accepts. -/
theorem storedOn_trace (t : TopicName) (b : Broker α) (ops : List BrokerOp) :
    storedOn lib t ((broker α lib).trace b ops) =
      (accepted (topicHistory lib t ((broker α lib).trace b ops))).map
        fun m => (t, m.id, m.payload) := by
  rw [storedOn, flatMap_storedBy, topicHistory, storeTrace_eq, flatMap_publishedOn]

/-- **At the broker.** What a connection gets that has no subscription to a topic, and pulls it as
a consumer. -/
theorem handedFirst_trace {config : BrokerConfig} {store : StoreConfig} {steadyNow : ℤ}
    (hbuffer : store.defaultBufferSize ≤ kMaxPayloadSize) {before ops : List BrokerOp}
    {t : TopicName} {c : Consumer} {connId : ConnectionId} :
    let b := (broker α lib).run (ofConfig config store steadyNow) before
    let whole := (broker α lib).trace (ofConfig config store steadyNow) (before ++ ops)
    let H := (broker α lib).trace b ops
    Keeps lib t whole → offered lib whole < 2 ^ 64 - 2 →
    (∀ e ∈ H, ¬e.pre.topicManager.Subscribed t connId) →
    (∀ e ∈ H, PullsAs lib t c connId e = true) →
    HandedFirst lib t c whole ((b.store.topicAt t).offset c)
      ((((broker α lib).run b ops).store.topicAt t).offset c)
      (firstOnes (messagesTo connId t (H.flatMap fun e => e.output.sent))) := by
  intro b whole H hkept hoffered hunsubscribed hpulls
  have hsplit : whole = (broker α lib).trace (ofConfig config store steadyNow) before ++ H :=
    (broker α lib).trace_append _ _ _
  have hconfig : b.store.config = store := by
    rw [(broker α lib).run_component (π := Broker.store) (f := fun b op => b.storeOps lib op)
      (fun b op => (b.store_step lib op).1) (ofConfig config store steadyNow) before, config_run]
    rfl
  have hstored : storedOn lib t whole =
      (accepted (topicHistory lib t whole)).map fun m => (t, m.id, m.payload) :=
    storedOn_trace lib t _ _
  rw [hsplit] at hkept hoffered
  obtain ⟨tops₀, htrace₀, htopic₀, hcount₀⟩ := topicHistory_trace lib
    (b := ofConfig config store steadyNow) rfl fun e he => hkept e (List.mem_append_left _ he)
  obtain ⟨tops, htrace, htopic, hcount⟩ := topicHistory_trace lib hconfig
    fun e he => hkept e (List.mem_append_right _ he)
  have hstart : b.store.topicAt t =
      (topic store).run (TopicData.ofName t store.defaultBufferSize) tops₀ := htopic₀
  rw [hstart] at htrace htopic
  have hhistory : topicHistory lib t whole = (topic store).trace
      (TopicData.ofName t store.defaultBufferSize) (tops₀ ++ tops) := by
    rw [hsplit, topicHistory, storeTrace_append, topicTrace, List.flatMap_append,
      StepMachine.trace_append]
    exact congrArg₂ List.append htrace₀ htrace
  have hpublishes : publishes (tops₀ ++ tops) < 2 ^ 64 - 2 := by
    rw [offered_append] at hoffered
    rw [publishes, List.countP_append]
    exact (Nat.add_le_add hcount₀ hcount).trans_lt hoffered
  obtain ⟨hsub, hsorted, hmissing⟩ :=
    TopicData.firstDeliveries_stretch store t hbuffer hpublishes c
  rw [← hhistory] at hsub hsorted hmissing
  rw [← hstart] at hmissing hsub htopic htrace
  have hfirst : firstOnes (messagesTo connId t (H.flatMap fun e => e.output.sent)) =
      (firstDeliveries c ((topic store).trace (b.store.topicAt t) tops)).map
        fun msg => .ofStored msg t false := by
    rw [messagesTo_trace lib (keyed_run lib config store steadyNow before) hunsubscribed hpulls,
      storeTrace_eq, flatMap_pulled, ← storeTrace_eq, ← topicHistory, htrace, firstOnes,
      List.filter_map]
    rfl
  rw [hfirst]
  refine ⟨?_, ?_, fun m hm hle hlt => ?_⟩
  · rw [hstored, List.map_map]
    exact hsub.map fun m => (t, m.id, m.payload)
  · rw [List.pairwise_map]
    exact hsorted.sublist hsub
  · rw [htopic] at hlt
    exact (hmissing m hm hle hlt).imp_left fun hmem => List.mem_map_of_mem hmem

end Broker

namespace Conversation

variable {α : Type*} [TokenCount α] (set : ConversationSetting)

/-- The connection of the client pulls the topic as the consumer and has no subscription to it, and
no other connection pulls as the consumer. -/
structure PullsTopic (t : TopicName) (consumer : Consumer) (h : List (Event α)) : Prop where
  unsubscribed : ∀ e ∈ brokerTrace set h, ¬e.pre.topicManager.Subscribed t set.connId
  pulls : ∀ e ∈ brokerTrace set h, Broker.PullsAs set.lib t consumer set.connId e = true

/-- The messages of a topic in frames. -/
def messagesIn (t : TopicName) (frames : List OutFrame) : List PushMessage :=
  (frames.flatMap OutFrame.messages).filter fun msg => msg.topic = t

variable {set} in
/-- What is handed to the client on a topic. -/
theorem messagesIn_framesTo (t : TopicName) (h : List (Event α)) :
    messagesIn t (framesTo set h) =
      messagesTo set.connId t ((brokerTrace set h).flatMap fun e => e.output.sent) := by
  rw [messagesIn, framesTo, List.flatMap_map]
  rfl

/-- The messages among the first frames are the first messages. -/
theorem firstOnes_messagesIn_isPrefix (t : TopicName) {frames frames' : List OutFrame}
    (h : frames <+: frames') :
    firstOnes (messagesIn t frames) <+: firstOnes (messagesIn t frames') := by
  obtain ⟨rest, rfl⟩ := h
  rw [firstOnes, firstOnes, messagesIn, messagesIn, List.flatMap_append, List.filter_append,
    List.filter_append]
  exact List.prefix_append _ _

/-- Two pulls with a publish of another connection in between; the answers are read in parts. -/
def pullTwiceRun : List ConversationOp := [
  .send Broker.pullFrame [.sent 100],
  .serverRead [.arrived 100] (fun _ => .ofClocks 1000000 1) fun _ => [.sent 100],
  .brokerStep (.frame 2 Broker.secondFrame (.ofClocks 2000000 2)) fun _ => [],
  .clientRead [.arrived 10] 3 fun _ => [],
  .send Broker.pullFrame [.sent 100],
  .serverRead [.arrived 100] (fun _ => .ofClocks 3000000 3) fun _ => [.sent 100],
  .clientRead [.arrived 100] 4 fun _ => []]

end Conversation

end ProtoMsgQueue
