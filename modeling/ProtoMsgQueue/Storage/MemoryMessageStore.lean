import ProtoMsgQueue.Storage.TopicData

/-!
# The memory message store

`MemoryMessageStore` of `storage/memory_message_store.cpp`: a map from names to topics, and
the dead-letter queues. Every operation that names a topic acts on that topic alone, as the
machine `topic` does; publishing and `CreateTopic` make a topic, `DeleteTopic` removes it.
The background threads are runs of their passes over single topics.

The main result is `run_topic`: as long as a topic is not deleted, its state and everything
it returns come from a run of `topic` on the operations that name it.
-/

namespace ProtoMsgQueue

open UnorderedMap

/-- The store. -/
structure MemoryMessageStore where
  /-- The arguments of the constructor. -/
  config : StoreConfig
  /-- The topics. -/
  topics : UnorderedMap TopicName TopicData := ∅
  /-- The dead-letter queues, by their own names. -/
  dlqStorage : UnorderedMap TopicName (List StoredMessage) := ∅

/-- The name of a topic's dead-letter queue. -/
def makeDlqName (topic : TopicName) : TopicName := "__dlq." ++ topic

/-- Different topics have different dead-letter queues. -/
theorem makeDlqName_injective : Function.Injective makeDlqName := by
  intro t t' h
  have hlist := congrArg String.toList h
  simp only [makeDlqName, String.toList_append, List.append_cancel_left_eq] at hlist
  exact String.toList_injective hlist

namespace MemoryMessageStore

variable (store : MemoryMessageStore)

/-- A store without topics. -/
def ofConfig (config : StoreConfig) : MemoryMessageStore := { config := config }

/-- A new topic of this store. -/
def newTopic (topic : TopicName) : TopicData :=
  TopicData.ofName topic store.config.defaultBufferSize

/-- Create a topic; false if there is one of that name. -/
def createTopic (topic : TopicName) : MemoryMessageStore × Bool :=
  if topic ∈ store.topics then (store, false)
  else ({ store with topics := store.topics.insert topic (store.newTopic topic) }, true)

/-- Delete a topic and its dead-letter queue; false if there is none of that name. -/
def deleteTopic (topic : TopicName) : MemoryMessageStore × Bool :=
  if topic ∈ store.topics then
    ({ store with
        topics := store.topics.erase topic
        dlqStorage := store.dlqStorage.erase (makeDlqName topic) }, true)
  else (store, false)

/-- Is there a topic of that name? -/
def hasTopic (topic : TopicName) : Bool := topic ∈ store.topics

/-- Publish a message, into a new topic if there is none of that name. -/
def publish (topic : TopicName) (payload : Payload) (ttlMs : UInt32) (expiryNowMs nowMs : UInt64) :
    MemoryMessageStore × MessageId × Bool :=
  let td := (store.topics.lookup topic).getD (store.newTopic topic)
  let (td, msgId, ok) := td.publish payload ttlMs expiryNowMs nowMs
  ({ store with topics := store.topics.insert topic td }, msgId, ok)

/-- Pull messages of a topic; none without the topic. -/
def pull (topic : TopicName) (c : Consumer) (maxMessages : UInt32) (nowMs : UInt64)
    (steadyNow : ℕ → ℤ) : MemoryMessageStore × List StoredMessage :=
  match store.topics.lookup topic with
  | none => (store, [])
  | some td =>
    let (td, msgs) := td.pull c maxMessages nowMs steadyNow
    ({ store with topics := store.topics.insert topic td }, msgs)

/-- Acknowledge a message of a topic; false without the topic. -/
def ack (topic : TopicName) (c : Consumer) (msgId : MessageId) : MemoryMessageStore × Bool :=
  match store.topics.lookup topic with
  | none => (store, false)
  | some td =>
    let (td, ok) := td.ack c msgId
    ({ store with topics := store.topics.insert topic td }, ok)

/-- Take messages from the dead-letter queue of a topic. -/
def pullDlq (topic : TopicName) (maxMessages : UInt32) : MemoryMessageStore × List StoredMessage :=
  match store.dlqStorage.lookup (makeDlqName topic) with
  | none => (store, [])
  | some dlq =>
    let count := min maxMessages.toNat dlq.length
    ({ store with dlqStorage := store.dlqStorage.insert (makeDlqName topic) (dlq.drop count) },
      dlq.take count)

/-- Put a message into a dead-letter queue. -/
def pushDlq (dlqName : TopicName) (dlqStorage : UnorderedMap TopicName (List StoredMessage))
    (msg : StoredMessage) : UnorderedMap TopicName (List StoredMessage) :=
  dlqStorage.insert dlqName (valueAt dlqStorage dlqName [] ++ [msg])

/-- The retry pass over a topic. -/
def processPendingRetries (topic : TopicName) (clock : TopicData.PassClock) (order : PassOrder) :
    MemoryMessageStore × List StoredMessage :=
  match store.topics.lookup topic with
  | none => (store, [])
  | some td =>
    let dlqName := makeDlqName td.topicName
    let (td, dlq) := td.processPendingRetries store.config clock order
    ({ store with
        topics := store.topics.insert topic td
        dlqStorage := dlq.foldl (pushDlq dlqName) store.dlqStorage }, dlq)

/-- The expiration pass over a topic. -/
def expireTopicMessages (topic : TopicName) (nowMs : UInt64) : MemoryMessageStore :=
  match store.topics.lookup topic with
  | none => store
  | some td => { store with topics := store.topics.insert topic (td.expireTopicMessages nowMs) }

end MemoryMessageStore

/-! ### Runs -/

/-- An operation on the store. -/
inductive StoreOp where
  /-- An operation on a topic. -/
  | onTopic (topic : TopicName) (op : TopicOp)
  /-- `CreateTopic`. -/
  | createTopic (topic : TopicName)
  /-- `DeleteTopic`. -/
  | deleteTopic (topic : TopicName)
  /-- `PullDlq`. -/
  | pullDlq (topic : TopicName) (maxMessages : UInt32)

/-- What an operation on the store returns. -/
inductive StoreResult where
  /-- The result of an operation on a topic. -/
  | onTopic (result : TopicResult)
  /-- Whether a topic was created. -/
  | created (ok : Bool)
  /-- Whether a topic was deleted. -/
  | deleted (ok : Bool)
  /-- Messages from a dead-letter queue. -/
  | pulledDlq (msgs : List StoredMessage)
deriving DecidableEq

/-- The store as a machine. -/
def messageStore : StepMachine MemoryMessageStore StoreOp StoreResult where
  step store
    | .onTopic topic (.publish payload ttlMs expiryNowMs nowMs) =>
      let (store, msgId, ok) := store.publish topic payload ttlMs expiryNowMs nowMs
      (store, .onTopic (.published msgId ok))
    | .onTopic topic (.pull c maxMessages nowMs steadyNow) =>
      let (store, msgs) := store.pull topic c maxMessages nowMs steadyNow
      (store, .onTopic (.pulled msgs))
    | .onTopic topic (.ack c msgId) =>
      let (store, ok) := store.ack topic c msgId
      (store, .onTopic (.acked ok))
    | .onTopic topic (.retryPass clock order) =>
      let (store, dlq) := store.processPendingRetries topic clock order
      (store, .onTopic (.retried dlq))
    | .onTopic topic (.expirePass nowMs) =>
      (store.expireTopicMessages topic nowMs, .onTopic .expired)
    | .createTopic topic =>
      let (store, ok) := store.createTopic topic
      (store, .created ok)
    | .deleteTopic topic =>
      let (store, ok) := store.deleteTopic topic
      (store, .deleted ok)
    | .pullDlq topic maxMessages =>
      let (store, msgs) := store.pullDlq topic maxMessages
      (store, .pulledDlq msgs)

/-- The operation on the topic `t` that an operation on the store is, if any. -/
def StoreOp.onTopic? (t : TopicName) : StoreOp → Option TopicOp
  | .onTopic topic op => if topic = t then some op else none
  | _ => none

/-- A recorded operation on the store. -/
abbrev StoreEvent := StepMachine.Event MemoryMessageStore StoreOp StoreResult

/-- What an event shows of the topic `t`: the operation on it and what it returned. -/
def StoreEvent.onTopic? (t : TopicName) (e : StoreEvent) : Option (TopicOp × TopicResult) :=
  match e.input, e.output with
  | .onTopic topic op, .onTopic result => if topic = t then some (op, result) else none
  | _, _ => none

/-- An operation is an operation on the topic `t` only in the one way. -/
theorem StoreOp.onTopic?_eq_some {t : TopicName} {op : StoreOp} {top : TopicOp} :
    op.onTopic? t = some top ↔ op = .onTopic t top := by
  cases op with
  | onTopic topic op =>
    rw [StoreOp.onTopic?]
    split <;> simp_all
  | _ => simp [StoreOp.onTopic?]

/-- An event of another operation shows nothing of the topic `t`. -/
theorem StoreEvent.onTopic?_eq_none {t : TopicName} {e : StoreEvent}
    (h : e.input.onTopic? t = none) : StoreEvent.onTopic? t e = none := by
  rw [StoreEvent.onTopic?]
  split
  · rename_i topic op result hinput houtput
    rw [hinput] at h
    rw [if_neg]
    rintro rfl
    simp [StoreOp.onTopic?] at h
  · rfl

namespace MemoryMessageStore

/-! ### One topic of a run -/

variable {store : MemoryMessageStore}

/-- No operation changes the configuration. -/
@[simp] theorem config_step (store : MemoryMessageStore) (op : StoreOp) :
    (messageStore.step store op).1.config = store.config := by
  cases op with
  | onTopic topic op =>
    cases op <;>
      simp only [messageStore, publish, pull, ack, processPendingRetries, expireTopicMessages] <;>
      first | rfl | (split <;> rfl)
  | createTopic topic => simp only [messageStore, createTopic]; split <;> rfl
  | deleteTopic topic => simp only [messageStore, deleteTopic]; split <;> rfl
  | pullDlq topic maxMessages => simp only [messageStore, pullDlq]; split <;> rfl

/-- An operation on an existing topic is a step of that topic, and changes no other one. -/
theorem step_onTopic {t : TopicName} {td : TopicData} (ht : store.topics.lookup t = some td)
    (op : TopicOp) :
    (messageStore.step store (.onTopic t op)).1.topics =
        store.topics.insert t ((topic store.config).step td op).1 ∧
      (messageStore.step store (.onTopic t op)).2 =
        .onTopic ((topic store.config).step td op).2 := by
  cases op with
  | publish payload ttlMs expiryNowMs nowMs =>
    simp only [messageStore, topic, publish, ht, Option.getD_some, and_self]
  | pull c maxMessages nowMs steadyNow => simp only [messageStore, topic, pull, ht, and_self]
  | ack c msgId => simp only [messageStore, topic, ack, ht, and_self]
  | retryPass clock order =>
    simp only [messageStore, topic, processPendingRetries, ht, and_self]
  | expirePass nowMs => simp only [messageStore, topic, expireTopicMessages, ht, and_self]

/-- The first publish to a topic makes it. -/
theorem step_publish_new {t : TopicName} (ht : store.topics.lookup t = none) (payload : Payload)
    (ttlMs : UInt32) (expiryNowMs nowMs : UInt64) :
    let op := TopicOp.publish payload ttlMs expiryNowMs nowMs
    (messageStore.step store (.onTopic t op)).1.topics =
        store.topics.insert t ((topic store.config).step (store.newTopic t) op).1 ∧
      (messageStore.step store (.onTopic t op)).2 =
        .onTopic ((topic store.config).step (store.newTopic t) op).2 := by
  simp only [messageStore, topic, publish, ht, Option.getD_none, and_self]

/-- Other operations on a missing topic do nothing to the store. -/
theorem step_onTopic_missing {t : TopicName} (ht : store.topics.lookup t = none) {op : TopicOp}
    (hop : ∀ payload ttlMs expiryNowMs nowMs, op ≠ .publish payload ttlMs expiryNowMs nowMs) :
    (messageStore.step store (.onTopic t op)).1 = store := by
  cases op with
  | publish payload ttlMs expiryNowMs nowMs => exact absurd rfl (hop _ _ _ _)
  | pull c maxMessages nowMs steadyNow => simp only [messageStore, pull, ht]
  | ack c msgId => simp only [messageStore, ack, ht]
  | retryPass clock order => simp only [messageStore, processPendingRetries, ht]
  | expirePass nowMs => simp only [messageStore, expireTopicMessages, ht]

/-- **Frame.** An operation that does not name the topic `t` leaves it as it is. -/
theorem lookup_step_of_onTopic?_eq_none {t : TopicName} {op : StoreOp}
    (hop : op.onTopic? t = none) (hcreate : op ≠ .createTopic t) (hdelete : op ≠ .deleteTopic t) :
    (messageStore.step store op).1.topics.lookup t = store.topics.lookup t := by
  cases op with
  | onTopic topic op =>
    have hne : t ≠ topic := by
      rintro rfl
      simp [StoreOp.onTopic?] at hop
    rcases htopic : store.topics.lookup topic with - | td
    · by_cases hpub : ∃ payload ttlMs expiryNowMs nowMs,
          op = .publish payload ttlMs expiryNowMs nowMs
      · obtain ⟨payload, ttlMs, expiryNowMs, nowMs, rfl⟩ := hpub
        rw [(step_publish_new htopic payload ttlMs expiryNowMs nowMs).1, AList.lookup_insert_ne hne]
      · rw [step_onTopic_missing htopic fun p t e n h => hpub ⟨p, t, e, n, h⟩]
    · rw [(step_onTopic htopic op).1, AList.lookup_insert_ne hne]
  | createTopic topic =>
    have hne : t ≠ topic := fun h => hcreate (by rw [h])
    simp only [messageStore, createTopic]
    split
    · rfl
    · exact AList.lookup_insert_ne hne
  | deleteTopic topic =>
    have hne : t ≠ topic := fun h => hdelete (by rw [h])
    simp only [messageStore, deleteTopic]
    split
    · exact AList.lookup_erase_ne hne
    · rfl
  | pullDlq topic maxMessages =>
    simp only [messageStore, pullDlq]
    split <;> rfl

/-- Creating a topic that exists changes nothing. -/
theorem step_createTopic_of_lookup {t : TopicName} {td : TopicData}
    (ht : store.topics.lookup t = some td) : messageStore.step store (.createTopic t) =
      (store, .created false) := by
  have hmem : t ∈ store.topics := mem_iff_exists_lookup.mpr ⟨td, ht⟩
  simp only [messageStore, createTopic, if_pos hmem]

/-- **One topic of a run.** While the topic `t` is not deleted, its state is that after the
run of `topic` on the operations that name `t`, and these return what they return there. -/
theorem run_topic {t : TopicName} {td : TopicData} (ht : store.topics.lookup t = some td)
    {ops : List StoreOp} (hdelete : .deleteTopic t ∉ ops) :
    (messageStore.run store ops).topics.lookup t =
        some ((topic store.config).run td (ops.filterMap (StoreOp.onTopic? t))) ∧
      (messageStore.trace store ops).filterMap (StoreEvent.onTopic? t) =
        ((topic store.config).trace td (ops.filterMap (StoreOp.onTopic? t))).map
          fun e => (e.input, e.output) := by
  induction ops generalizing store td with
  | nil => exact ⟨ht, rfl⟩
  | cons op ops ih =>
    have hops : .deleteTopic t ∉ ops := fun h => hdelete (List.mem_cons_of_mem _ h)
    have hop : op ≠ .deleteTopic t := fun h => hdelete (by rw [h]; exact List.mem_cons_self)
    rw [StepMachine.run_cons, StepMachine.trace_cons, List.filterMap_cons, List.filterMap_cons]
    rcases hon : op.onTopic? t with - | top
    · -- The step is about another topic.
      have hlook : (messageStore.step store op).1.topics.lookup t = some td := by
        by_cases hcreate : op = .createTopic t
        · rw [hcreate, step_createTopic_of_lookup ht]
          exact ht
        · rw [lookup_step_of_onTopic?_eq_none hon hcreate hop, ht]
      rw [StoreEvent.onTopic?_eq_none (e := messageStore.event store op) hon]
      simpa only [config_step] using ih hlook hops
    · -- The step is a step of the topic.
      obtain rfl := StoreOp.onTopic?_eq_some.mp hon
      obtain ⟨htopics, hout⟩ := step_onTopic ht top
      have hlook : (messageStore.step store (.onTopic t top)).1.topics.lookup t =
          some ((topic store.config).step td top).1 := by
        rw [htopics, AList.lookup_insert]
      have hshow : StoreEvent.onTopic? t (messageStore.event store (.onTopic t top)) =
          some (top, ((topic store.config).step td top).2) := by
        simp only [StoreEvent.onTopic?, StepMachine.event_input, StepMachine.event_output, hout,
          if_true]
      have ih := ih hlook hops
      rw [config_step] at ih
      rw [hshow]
      exact ⟨ih.1, by rw [ih.2]; rfl⟩

/-! ### The dead-letter queue of one topic -/

/-- No operation renames a topic. -/
theorem topicName_step (cfg : StoreConfig) (td : TopicData) (op : TopicOp) :
    ((topic cfg).step td op).1.topicName = td.topicName := by
  cases op with
  | pull c maxMessages nowMs steadyNow =>
    simp only [topic, TopicData.pull, TopicData.setOffset]
    split <;> rfl
  | ack c msgId =>
    simp only [topic, TopicData.ack]
    split <;> rfl
  | _ => rfl

/-- Every topic is filed under its own name. -/
def Named (store : MemoryMessageStore) : Prop :=
  ∀ t td, store.topics.lookup t = some td → td.topicName = t

theorem Named.insert (h : store.Named) {t : TopicName} {td : TopicData} (htd : td.topicName = t)
    {topics : UnorderedMap TopicName TopicData} (htopics : topics = store.topics.insert t td) :
    ∀ u td', topics.lookup u = some td' → td'.topicName = u := by
  intro u td' hu
  rw [htopics] at hu
  rcases eq_or_ne u t with rfl | hne
  · rw [AList.lookup_insert, Option.some_inj] at hu
    exact hu ▸ htd
  · rw [AList.lookup_insert_ne hne] at hu
    exact h u td' hu

/-- Topics stay filed under their own names. -/
theorem Named.step (h : store.Named) (op : StoreOp) : (messageStore.step store op).1.Named := by
  cases op with
  | onTopic t op =>
    rcases ht : store.topics.lookup t with - | td
    · by_cases hpub : ∃ payload ttlMs expiryNowMs nowMs,
          op = .publish payload ttlMs expiryNowMs nowMs
      · obtain ⟨payload, ttlMs, expiryNowMs, nowMs, rfl⟩ := hpub
        exact h.insert (t := t) (topicName_step _ (store.newTopic t) _)
          (step_publish_new ht payload ttlMs expiryNowMs nowMs).1
      · rw [step_onTopic_missing ht fun p t e n hop => hpub ⟨p, t, e, n, hop⟩]
        exact h
    · exact h.insert ((topicName_step _ _ _).trans (h t td ht)) (step_onTopic ht op).1
  | createTopic t =>
    simp only [messageStore, createTopic]
    split
    · exact h
    · exact h.insert (show (store.newTopic t).topicName = t from rfl) rfl
  | deleteTopic t =>
    simp only [messageStore, deleteTopic]
    split
    · intro u td hu
      rcases eq_or_ne u t with rfl | hne
      · rw [AList.lookup_erase] at hu
        cases hu
      · exact h u td (by rwa [AList.lookup_erase_ne hne] at hu)
    · exact h
  | pullDlq t maxMessages =>
    simp only [messageStore, pullDlq]
    split <;> exact h

/-- Messages put into one dead-letter queue leave the others as they are. -/
theorem lookup_foldl_pushDlq_ne {dlqName dlqName' : TopicName} (hne : dlqName' ≠ dlqName)
    (msgs : List StoredMessage) (dlqs : UnorderedMap TopicName (List StoredMessage)) :
    (msgs.foldl (pushDlq dlqName) dlqs).lookup dlqName' = dlqs.lookup dlqName' := by
  induction msgs generalizing dlqs with
  | nil => rfl
  | cons msg msgs ih =>
    rw [List.foldl_cons, ih, pushDlq, AList.lookup_insert_ne hne]

/-- What is put into a dead-letter queue comes behind what was there. -/
theorem lookup_foldl_pushDlq_congr {dlqName : TopicName} (msgs : List StoredMessage)
    {dlqs dlqs' : UnorderedMap TopicName (List StoredMessage)}
    (h : dlqs.lookup dlqName = dlqs'.lookup dlqName) :
    (msgs.foldl (pushDlq dlqName) dlqs).lookup dlqName =
      (msgs.foldl (pushDlq dlqName) dlqs').lookup dlqName := by
  induction msgs generalizing dlqs dlqs' with
  | nil => exact h
  | cons msg msgs ih =>
    refine ih ?_
    rw [pushDlq, pushDlq, AList.lookup_insert, AList.lookup_insert, valueAt, valueAt, h]

/-- **Frame.** Only retry passes over a topic, its deletion and pulls from its dead-letter
queue change that queue. -/
theorem lookup_dlqStorage_step (h : store.Named) {t : TopicName} {op : StoreOp}
    (hretry : ∀ clock order, op ≠ .onTopic t (.retryPass clock order))
    (hdelete : op ≠ .deleteTopic t) (hpull : ∀ maxMessages, op ≠ .pullDlq t maxMessages) :
    (messageStore.step store op).1.dlqStorage.lookup (makeDlqName t) =
      store.dlqStorage.lookup (makeDlqName t) := by
  cases op with
  | onTopic topic op =>
    cases op with
    | retryPass clock order =>
      have hne : t ≠ topic := fun heq => hretry clock order (by rw [heq])
      simp only [messageStore, processPendingRetries]
      split
      · rfl
      · rename_i td hlook
        rw [h topic td hlook]
        exact lookup_foldl_pushDlq_ne (makeDlqName_injective.ne hne) _ _
    | publish payload ttlMs expiryNowMs nowMs => rfl
    | pull c maxMessages nowMs steadyNow => simp only [messageStore, pull]; split <;> rfl
    | ack c msgId => simp only [messageStore, ack]; split <;> rfl
    | expirePass nowMs => simp only [messageStore, expireTopicMessages]; split <;> rfl
  | createTopic topic => simp only [messageStore, createTopic]; split <;> rfl
  | deleteTopic topic =>
    have hne : t ≠ topic := fun heq => hdelete (by rw [heq])
    simp only [messageStore, deleteTopic]
    split
    · exact AList.lookup_erase_ne (makeDlqName_injective.ne hne)
    · rfl
  | pullDlq topic maxMessages =>
    have hne : t ≠ topic := fun heq => hpull maxMessages (by rw [heq])
    simp only [messageStore, pullDlq]
    split
    · rfl
    · exact AList.lookup_insert_ne (makeDlqName_injective.ne hne)

end MemoryMessageStore

end ProtoMsgQueue
