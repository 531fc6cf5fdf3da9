import ProtoMsgQueue.Storage.Backpressure
import ProtoMsgQueue.Storage.Waiting

/-!
# What a refused publish leaves

A publish that finds no room has made its topic and taken an identifier. What the topics hold is
as before, so that nothing of the message is in what waits for a consumer.
-/

namespace ProtoMsgQueue

open UnorderedMap

/-- A refused publish takes an identifier. -/
theorem TopicData.publish_fst_of_refused {td : TopicData} {payload : Payload} {ttlMs : UInt32}
    {expiryNowMs nowMs : UInt64}
    (hrefused : (td.publish payload ttlMs expiryNowMs nowMs).2.2 = false) :
    (td.publish payload ttlMs expiryNowMs nowMs).1 =
      { td with nextMsgId := (td.nextMsgId + 1) % 2 ^ 64 } := by
  rw [publish, SpscRingBuffer.push] at hrefused ⊢
  dsimp only at hrefused ⊢
  split at hrefused
  · rfl
  · cases hrefused

namespace MemoryMessageStore

/-- All topics hold the same in both stores. Only identifiers may have been taken. -/
def SameMessages (store store' : MemoryMessageStore) : Prop :=
  ∀ t, ∃ nextMsgId, store'.topicAt t = { store.topicAt t with nextMsgId := nextMsgId }

theorem SameMessages.refl (store : MemoryMessageStore) : SameMessages store store :=
  fun t => ⟨(store.topicAt t).nextMsgId, rfl⟩

theorem SameMessages.trans {store store' store'' : MemoryMessageStore}
    (h : SameMessages store store') (h' : SameMessages store' store'') :
    SameMessages store store'' := by
  intro t
  obtain ⟨next, heq⟩ := h t
  obtain ⟨next', heq'⟩ := h' t
  exact ⟨next', by rw [heq', heq]⟩

/-- A refused publish leaves all topics as they were. -/
theorem sameMessages_publish {store : MemoryMessageStore} {topic : TopicName} {payload : Payload}
    {ttlMs : UInt32} {expiryNowMs nowMs : UInt64}
    (hrefused : (store.publish topic payload ttlMs expiryNowMs nowMs).2.2 = false) :
    SameMessages store (store.publish topic payload ttlMs expiryNowMs nowMs).1 := by
  have htopic : ((store.topicAt topic).publish payload ttlMs expiryNowMs nowMs).1 =
      { store.topicAt topic with nextMsgId := ((store.topicAt topic).nextMsgId + 1) % 2 ^ 64 } :=
    TopicData.publish_fst_of_refused hrefused
  intro t
  rcases eq_or_ne t topic with rfl | hne
  · refine ⟨((store.topicAt t).nextMsgId + 1) % 2 ^ 64, ?_⟩
    rw [← htopic]
    exact topicAt_of_lookup _ (AList.lookup_insert _)
  · have hother : (store.publish topic payload ttlMs expiryNowMs nowMs).1.topicAt t =
        store.topicAt t :=
      @topicAt_step_other store t (.onTopic topic (.publish payload ttlMs expiryNowMs nowMs))
        (if_neg hne.symm) nofun
    exact ⟨(store.topicAt t).nextMsgId, hother⟩

/-- What waits in a topic, made or not. -/
theorem waitingFor_eq_topicAt (store : MemoryMessageStore) (topic : TopicName) (c : Consumer)
    (nowMs : UInt64) : store.waitingFor topic c nowMs = (store.topicAt topic).waitingFor c nowMs := by
  rw [waitingFor, topicAt]
  cases store.topics.lookup topic <;> rfl

/-- Where the topics hold the same, a pull returns the same. -/
theorem SameMessages.pull_eq {store store' : MemoryMessageStore} (h : SameMessages store store')
    (topic : TopicName) (c : Consumer) (maxMessages : UInt32) (nowMs : UInt64)
    (steadyNow : ℕ → ℤ) : (store'.pull topic c maxMessages nowMs steadyNow).2 =
      (store.pull topic c maxMessages nowMs steadyNow).2 := by
  obtain ⟨nextMsgId, heq⟩ := h topic
  rw [pull_eq_take, pull_eq_take, waitingFor_eq_topicAt, waitingFor_eq_topicAt, heq]
  rfl

end MemoryMessageStore

end ProtoMsgQueue
