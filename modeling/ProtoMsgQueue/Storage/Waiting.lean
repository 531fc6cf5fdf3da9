import ProtoMsgQueue.Storage.MemoryMessageStore
import ProtoMsgQueue.Storage.Pull

/-!
# What waits for a consumer

`waitingFor` lists what a topic has to hand out to a consumer: the messages of the log from its
offset on, then the records of the retry queue, without those that have expired and those that
are pending. Neither the limit of a pull nor its clock readings enter. `pull_eq_take` says that a
pull returns the front of this list, whatever the identifiers are.
-/

namespace ProtoMsgQueue

open UnorderedMap

namespace TopicData

/-! ### The messages that wait -/

/-- The messages of a log that wait for a consumer with this offset, for which the identifiers
`held` are pending. -/
def waitingLog (nowMs : UInt64) :
    MessageId → List MessageId → List StoredMessage → List StoredMessage
  | _, _, [] => []
  | offset, held, msg :: log =>
    if offset ≤ msg.id then
      if msg.isExpired nowMs then waitingLog nowMs ((msg.id + 1) % 2 ^ 64) held log
      else if msg.id ∈ held then waitingLog nowMs offset held log
      else msg :: waitingLog nowMs ((msg.id + 1) % 2 ^ 64) (msg.id :: held) log
    else waitingLog nowMs offset held log

/-- The records of a retry queue that wait for a consumer for which `held` is pending. -/
def waitingRetries (nowMs : UInt64) : List MessageId → List StoredMessage → List StoredMessage
  | _, [] => []
  | held, msg :: queue =>
    if msg.isExpired nowMs then waitingRetries nowMs held queue
    else if msg.id ∈ held then waitingRetries nowMs held queue
    else msg :: waitingRetries nowMs (msg.id :: held) queue

variable (td : TopicData)

/-- The messages of the log that wait for a consumer. -/
def waitingInLog (c : Consumer) (nowMs : UInt64) : List StoredMessage :=
  waitingLog nowMs (td.startOffset c) (td.pendingOf c.key).keys td.drainRingBuffer.messageLog

/-- All that waits for a consumer. -/
def waitingFor (c : Consumer) (nowMs : UInt64) : List StoredMessage :=
  td.waitingInLog c nowMs ++ waitingRetries nowMs
    ((td.waitingInLog c nowMs).map StoredMessage.id ++ (td.pendingOf c.key).keys) td.retryQueue

/-! ### The loop over the log -/

/-- What the loop over the log returns. If it comes to the end, exactly the messages that waited
have become pending. -/
structure LogHands (args : PullArgs) (held : List MessageId) (log : List StoredMessage)
    (st st' : PullState) : Prop where
  result_eq : st'.result =
    st.result ++ (waitingLog args.nowMs st.offset held log).take (st.room args)
  pending_iff : st'.full args = false → ∀ id, id ∈ st'.pendingMap args ↔
    id ∈ (waitingLog args.nowMs st.offset held log).map StoredMessage.id ∨ id ∈ held

theorem pullLog_hands {args : PullArgs} {log : List StoredMessage} {st : PullState}
    {held : List MessageId} (hheld : ∀ id, id ∈ st.pendingMap args ↔ id ∈ held) :
    LogHands args held log st (pullLog args log st) := by
  induction log generalizing st held with
  | nil => exact ⟨by simp [pullLog, waitingLog], fun _ id => by simp [pullLog, waitingLog, hheld]⟩
  | cons msg log ih =>
    rw [pullLog]
    split
    · -- full: nothing happens
      rename_i hfull
      refine ⟨?_, fun h => ?_⟩
      · rw [PullState.room_eq_zero hfull, List.take_zero, List.append_nil]
      · rw [h] at hfull
        cases hfull
    rename_i hroom
    split
    swap
    · -- below the offset
      rename_i hlt
      obtain ⟨hresult, hpending⟩ := @ih st held hheld
      exact ⟨by rw [waitingLog, if_neg hlt]; exact hresult,
        by rw [waitingLog, if_neg hlt]; exact hpending⟩
    rename_i hle
    split
    · -- expired: only the offset moves
      rename_i hexp
      obtain ⟨hresult, hpending⟩ := @ih { st with offset := (msg.id + 1) % 2 ^ 64 } held hheld
      exact ⟨by rw [waitingLog, if_pos hle, if_pos hexp]; exact hresult,
        by rw [waitingLog, if_pos hle, if_pos hexp]; exact hpending⟩
    rename_i hlive
    dsimp only
    split
    · -- pending: passed over
      rename_i hmem
      rw [PullState.touchPending_pendingMap, hheld] at hmem
      obtain ⟨hresult, hpending⟩ := @ih (st.touchPending args) held fun id => by
        rw [PullState.touchPending_pendingMap, hheld]
      exact ⟨by rw [waitingLog, if_pos hle, if_neg hlive, if_pos hmem]; exact hresult,
        by rw [waitingLog, if_pos hle, if_neg hlive, if_pos hmem]; exact hpending⟩
    · -- delivered
      rename_i hnew
      rw [PullState.touchPending_pendingMap, hheld] at hnew
      obtain ⟨hresult, hpending⟩ := @ih
        { (st.touchPending args).deliver args msg with offset := (msg.id + 1) % 2 ^ 64 }
        (msg.id :: held) fun id => by
          change id ∈ ((st.touchPending args).deliver args msg).pendingMap args ↔ _
          rw [PullState.deliver_pendingMap, AList.mem_insert, PullState.touchPending_pendingMap,
            hheld, List.mem_cons]
      have hroom' : st.room args =
          ((st.touchPending args).deliver args msg).room args + 1 :=
        @PullState.room_deliver (st.touchPending args) args hroom msg
      refine ⟨?_, fun hfull id => ?_⟩
      · rw [waitingLog, if_pos hle, if_neg hlive, if_neg hnew, hroom', List.take_succ_cons]
        exact hresult.trans (List.append_assoc _ _ _)
      · rw [waitingLog, if_pos hle, if_neg hlive, if_neg hnew, hpending hfull, List.map_cons,
          List.mem_cons, List.mem_cons]
        tauto

/-! ### The loop over the retry queue -/

theorem pullRetry_hands {args : PullArgs} {queue : List StoredMessage} {st : PullState}
    {held : List MessageId} (hheld : ∀ id, id ∈ st.pendingMap args ↔ id ∈ held) :
    (pullRetry args queue st).2.result =
      st.result ++ (waitingRetries args.nowMs held queue).take (st.room args) := by
  induction queue generalizing st held with
  | nil => simp [pullRetry, waitingRetries]
  | cons msg queue ih =>
    rw [pullRetry]
    split
    · rename_i hfull
      rw [PullState.room_eq_zero hfull, List.take_zero, List.append_nil]
    rename_i hroom
    rw [waitingRetries]
    split
    · exact ih hheld
    dsimp only
    split
    · -- pending: the record stays
      rename_i hmem
      rw [PullState.touchPending_pendingMap, hheld] at hmem
      rw [if_pos hmem]
      exact @ih (st.touchPending args) held fun id => by
        rw [PullState.touchPending_pendingMap, hheld]
    · -- delivered
      rename_i hnew
      rw [PullState.touchPending_pendingMap, hheld] at hnew
      have hresult := @ih ((st.touchPending args).deliver args msg) (msg.id :: held) fun id => by
        rw [PullState.deliver_pendingMap, AList.mem_insert, PullState.touchPending_pendingMap,
          hheld, List.mem_cons]
      have hroom' : st.room args =
          ((st.touchPending args).deliver args msg).room args + 1 :=
        @PullState.room_deliver (st.touchPending args) args hroom msg
      rw [if_neg hnew, hroom', List.take_succ_cons]
      exact hresult.trans (List.append_assoc _ _ _)

/-! ### The whole pull -/

/-- **A pull** returns the front of what waits for the consumer. -/
theorem pull_eq_take (c : Consumer) (maxMessages : UInt32) (nowMs : UInt64) (steadyNow : ℕ → ℤ) :
    (td.pull c maxMessages nowMs steadyNow).2 =
      (td.waitingFor c nowMs).take maxMessages.toNat := by
  set args : PullArgs := ⟨c.key, maxMessages, nowMs, steadyNow⟩ with hargs
  obtain ⟨hlog, hpending⟩ := @pullLog_hands args td.drainRingBuffer.messageLog
    (td.drainRingBuffer.pullStart c) (td.pendingOf c.key).keys fun id => Iff.rfl
  have hlog : (td.pulledLog c maxMessages nowMs steadyNow).result =
      (td.waitingInLog c nowMs).take maxMessages.toNat := hlog
  rw [pull_result, waitingFor, List.take_append]
  cases hfull : (td.pulledLog c maxMessages nowMs steadyNow).full args with
  | true =>
    -- the loop over the log returned as much as asked for
    rw [pulledRetry, pullRetry_of_full _ hfull, hlog]
    rw [PullState.full, decide_eq_true_iff, hlog, List.length_take] at hfull
    have hle : maxMessages.toNat ≤ (td.waitingInLog c nowMs).length :=
      hfull.trans (min_le_right _ _)
    rw [Nat.sub_eq_zero_of_le hle, List.take_zero, List.append_nil]
  | false =>
    have hresult := @pullRetry_hands args td.retryQueue
      (td.pulledLog c maxMessages nowMs steadyNow) _ fun id =>
      (hpending hfull id).trans List.mem_append.symm
    rw [PullState.full, decide_eq_false_iff_not, not_le, hlog, List.length_take] at hfull
    have hle : (td.waitingInLog c nowMs).length ≤ maxMessages.toNat :=
      ((min_lt_iff.mp hfull).resolve_left (lt_irrefl maxMessages.toNat)).le
    have hroom : (td.pulledLog c maxMessages nowMs steadyNow).room args =
        maxMessages.toNat - (td.waitingInLog c nowMs).length := by
      rw [PullState.room, hlog, List.length_take, min_eq_right hle]
    rw [← hroom, ← hlog]
    exact hresult

end TopicData

namespace MemoryMessageStore

/-- What waits in a topic of the store; nothing without the topic. -/
def waitingFor (store : MemoryMessageStore) (topic : TopicName) (c : Consumer) (nowMs : UInt64) :
    List StoredMessage :=
  match store.topics.lookup topic with
  | none => []
  | some td => td.waitingFor c nowMs

theorem pull_eq_take (store : MemoryMessageStore) (topic : TopicName) (c : Consumer)
    (maxMessages : UInt32) (nowMs : UInt64) (steadyNow : ℕ → ℤ) :
    (store.pull topic c maxMessages nowMs steadyNow).2 =
      (store.waitingFor topic c nowMs).take maxMessages.toNat := by
  rcases hlookup : store.topics.lookup topic with - | td
  · simp [pull, waitingFor, hlookup]
  · simp only [pull, waitingFor, hlookup]
    exact td.pull_eq_take c maxMessages nowMs steadyNow

end MemoryMessageStore

end ProtoMsgQueue
