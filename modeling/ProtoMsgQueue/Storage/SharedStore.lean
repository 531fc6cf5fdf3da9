import ProtoMsgQueue.Storage.MemoryMessageStore

/-!
# The store used by several threads

`Publish`, `Pull` and `Ack` look the topic up under the lock of the topic map and work on
it after the lock was released; the background loops collect pointers to all topics under
the lock and then work through them. `DeleteTopic` destroys the topic's object at once. So
a thread may work on an object that is gone. `sharedStore` has a step for every lookup and
a step for every use of a handle; an object is known by its identity, so a topic that was
deleted and made again is another object.

No handle dangles exactly if no topic is deleted while a thread holds a handle to it. Such
runs are runs of the store in which every operation is atomic.
-/

namespace ProtoMsgQueue

open UnorderedMap

/-- The identity of a `TopicData` object. -/
abbrev InstanceId := ℕ

/-- A pointer to a topic's object, found under the topic's name. -/
structure Handle where
  /-- The topic. -/
  topic : TopicName
  /-- The object. -/
  instanceId : InstanceId
deriving DecidableEq, Repr

/-- A call that works on topics, or a turn of a background loop. -/
inductive TopicCall where
  /-- `Publish`. -/
  | publish (topic : TopicName) (payload : Payload) (ttlMs : UInt32)
  /-- `Pull`. -/
  | pull (topic : TopicName) (c : Consumer) (maxMessages : UInt32)
  /-- `Ack`. -/
  | ack (topic : TopicName) (c : Consumer) (msgId : MessageId)
  /-- `RetryLoop`, which visits the topics in some order. -/
  | retryLoop (order : VisitOrder TopicName InstanceId)
  /-- `ExpirationLoop`. -/
  | expirationLoop (order : VisitOrder TopicName InstanceId)

/-- What a thread reads while it works on a topic. -/
structure Readings where
  /-- The system clock, for the expiry of a published message. -/
  expiryNowMs : UInt64
  /-- The system clock. -/
  nowMs : UInt64
  /-- The steady clock, at each reading. -/
  steadyNow : ℕ → ℤ
  /-- The order in which a pass visits the pending entries. -/
  order : PassOrder

/-- The operation on a topic that a call makes. -/
def TopicCall.op (readings : Readings) : TopicCall → TopicOp
  | .publish _ payload ttlMs => .publish payload ttlMs readings.expiryNowMs readings.nowMs
  | .pull _ c maxMessages => .pull c maxMessages readings.nowMs readings.steadyNow
  | .ack _ c msgId => .ack c msgId
  | .retryLoop _ => .retryPass ⟨readings.steadyNow 0, readings.nowMs⟩ readings.order
  | .expirationLoop _ => .expirePass readings.nowMs

/-- A call after its lookup. -/
structure RunningCall where
  /-- The call. -/
  call : TopicCall
  /-- The handles it still has to work on. -/
  handles : List Handle

/-- The store, the identities of its topics, and what its threads are doing. -/
structure SharedStore where
  /-- The store. -/
  store : MemoryMessageStore
  /-- The object registered under each name. -/
  registered : UnorderedMap TopicName InstanceId := ∅
  /-- The identity of the next object. -/
  nextInstance : InstanceId := 0
  /-- The calls that looked up their topics and did not return yet. -/
  calls : UnorderedMap ThreadId RunningCall := ∅

namespace SharedStore

variable (st : SharedStore)

/-- A store without topics that no thread uses. -/
def ofConfig (config : StoreConfig) : SharedStore where
  store := MemoryMessageStore.ofConfig config

/-- Is the object of the handle the one registered under its name? -/
def isRegistered (h : Handle) : Bool := st.registered.lookup h.topic = some h.instanceId

/-- Make a topic, unless there is one of that name. -/
def createTopic (topic : TopicName) : SharedStore × Bool :=
  let (store, ok) := st.store.createTopic topic
  if ok then
    ({ st with
        store := store
        registered := st.registered.insert topic st.nextInstance
        nextInstance := st.nextInstance + 1 }, true)
  else (st, false)

/-- Delete a topic: its object is destroyed. -/
def deleteTopic (topic : TopicName) : SharedStore × Bool :=
  let (store, ok) := st.store.deleteTopic topic
  ({ st with store := store, registered := st.registered.erase topic }, ok)

/-- The handle of a topic. -/
def handle? (topic : TopicName) : Option Handle :=
  (st.registered.lookup topic).map (Handle.mk topic)

/-- The lookup at the start of a call: the handles it found. `Publish` makes a missing
topic. -/
def lookup : TopicCall → SharedStore × List Handle
  | .publish topic _ _ =>
    let st := (st.createTopic topic).1
    (st, (st.handle? topic).toList)
  | .pull topic _ _ => (st, (st.handle? topic).toList)
  | .ack topic _ _ => (st, (st.handle? topic).toList)
  | .retryLoop order => (st, (order.visit st.registered).filterMap st.handle?)
  | .expirationLoop order => (st, (order.visit st.registered).filterMap st.handle?)

end SharedStore

/-- A step of a thread. -/
inductive SharedStoreOp where
  /-- A thread makes a call and looks up its topics. -/
  | enter (thread : ThreadId) (call : TopicCall)
  /-- The thread works on its next handle. -/
  | use (thread : ThreadId) (readings : Readings)
  /-- `CreateTopic`. -/
  | createTopic (topic : TopicName)
  /-- `DeleteTopic`. -/
  | deleteTopic (topic : TopicName)

/-- What a step returns. -/
inductive SharedStoreResult where
  /-- Nothing yet. -/
  | running
  /-- The call worked on a topic. -/
  | used (result : StoreResult)
  /-- The call worked on an object that is gone: anything may happen. -/
  | usedDeleted
  /-- Whether a topic was created. -/
  | created (ok : Bool)
  /-- Whether a topic was deleted. -/
  | deleted (ok : Bool)
deriving DecidableEq

/-- The steps of all threads. -/
def sharedStore : StepMachine SharedStore SharedStoreOp SharedStoreResult where
  step st
    | .enter thread call =>
      -- a thread is in one call at a time
      if thread ∈ st.calls then (st, .running)
      else
        match st.lookup call with
        | (st, []) => (st, .running)
        | (st, h :: handles) =>
          ({ st with calls := st.calls.insert thread ⟨call, h :: handles⟩ }, .running)
    | .use thread readings =>
      match st.calls.lookup thread with
      | none => (st, .running)
      | some ⟨_, []⟩ => (st, .running)
      | some ⟨call, h :: handles⟩ =>
        let calls :=
          if handles = [] then st.calls.erase thread
          else st.calls.insert thread ⟨call, handles⟩
        if st.isRegistered h then
          let (store, result) := messageStore.step st.store (.onTopic h.topic (call.op readings))
          ({ st with store := store, calls := calls }, .used result)
        else ({ st with calls := calls }, .usedDeleted)
    | .createTopic topic =>
      let (st, ok) := st.createTopic topic
      (st, .created ok)
    | .deleteTopic topic =>
      let (st, ok) := st.deleteTopic topic
      (st, .deleted ok)

/-- A recorded step. -/
abbrev SharedStoreEvent := StepMachine.Event SharedStore SharedStoreOp SharedStoreResult

/-- The handle whose object a step reads or changes. -/
def usedHandle (st : SharedStore) : SharedStoreOp → Option Handle
  | .use thread _ => (st.calls.lookup thread).bind fun running => running.handles.head?
  | _ => none

/-- Is the object that the step reads or changes, if any, the registered one? -/
def usesRegistered (e : SharedStoreEvent) : Bool := (usedHandle e.pre e.input).all e.pre.isRegistered

/-- Does the step delete a topic while a thread holds a handle to its object? -/
def deletesInUse (st : SharedStore) : SharedStoreOp → Bool
  | .deleteTopic topic =>
    st.calls.entries.any fun e => e.2.handles.any fun h => h.topic = topic && st.isRegistered h
  | _ => false

/-- The operation that a step makes on a store of atomic operations: a lookup by `Publish`
makes the topic, and a use is an operation on it. -/
def atomicOp (e : SharedStoreEvent) : Option StoreOp :=
  match e.input with
  | .enter thread (.publish topic _ _) =>
    if thread ∈ e.pre.calls then none else some (.createTopic topic)
  | .enter _ _ => none
  | .use thread readings =>
    match e.pre.calls.lookup thread with
    | some ⟨call, h :: _⟩ => some (.onTopic h.topic (call.op readings))
    | _ => none
  | .createTopic topic => some (.createTopic topic)
  | .deleteTopic topic => some (.deleteTopic topic)

end ProtoMsgQueue
