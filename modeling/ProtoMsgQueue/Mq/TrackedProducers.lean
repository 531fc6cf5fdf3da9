import ProtoMsgQueue.Common.DedupHistory
import ProtoMsgQueue.Mq.HandlerCases
import ProtoMsgQueue.Storage.Backpressure

/-!
# How many producers the broker tracks

The deduplication window has a size and a way of forgetting the least recently active
producers, but marking a message does not shrink the window, and the broker, which is to clean it
up in the background, has no step that does. So a producer is tracked from its first stored
message on. `window_bounded_iff` says that the window stays within its size iff no publish request
of a new producer is stored while as many producers are tracked as the window has room for.
-/

namespace ProtoMsgQueue

open UnorderedMap

namespace DedupWindow

/-- From one window to the next at most `n` producers are left, and none of those forgotten on the
way was more recently active than one that is left. -/
def Keeps (n : ℕ) (window window' : DedupWindow) : Prop :=
  window'.producerCount ≤ n ∧
    ∀ q ∈ window.producers, q ∉ window'.producers → ∀ p ∈ window'.producers,
      lastActive window.producers q ≤ lastActive window'.producers p

/-- A mark makes its producer known and forgets none. -/
theorem mem_markProcessed {window : DedupWindow} {q : String} (hq : q ≠ "") (s : ℕ) (t : ℤ)
    (p : String) :
    p ∈ (window.markProcessed q s t).producers ↔ p = q ∨ p ∈ window.producers := by
  rw [markProcessed, if_neg hq]
  exact AList.mem_insert _

/-- A mark of a new producer adds one. -/
theorem producerCount_markProcessed {window : DedupWindow} {q : String} (hq : q ≠ "") (s : ℕ)
    (t : ℤ) : (window.markProcessed q s t).producerCount =
      if q ∈ window.producers then window.producerCount else window.producerCount + 1 := by
  rw [markProcessed, if_neg hq, producerCount, producerCount, AList.keys_insert, List.length_cons]
  split
  · next hmem =>
    rw [List.length_erase_of_mem (AList.mem_keys.mp hmem)]
    have hpos : 0 < window.producers.keys.length := List.length_pos_of_mem (AList.mem_keys.mp hmem)
    omega
  · next hmem => rw [List.erase_of_not_mem (fun h => hmem (AList.mem_keys.mpr h))]

end DedupWindow

namespace Broker

variable {α : Type*} [TokenCount α] (lib : Libraries)

/-! ### Which steps mark -/

/-- The publish request of a producer that a step stores, with the time at which it is noted in the
window: it is no duplicate, passes the limits, and there is room in its topic. -/
def markedRequest (b : Broker α) : BrokerOp → Option (PublishRequest × ℤ)
  | .frame connId frame env =>
    if frame.msgType = .publish then
      (lib.parsePublishRequest frame.payload).bind fun req =>
        if !b.isDuplicateRequest req && (b.checkRateLimits connId 1 env).2.isNone &&
            (b.deduplicates req.producerId &&
              (b.store.roomAt req.topic).accepts (b.compressPayload lib req).1) then
          some (req, env.markedAt)
        else none
    else none
  | _ => none

omit [TokenCount α] in
/-- A request that passed the checks is noted if there is room for its message. -/
theorem dedupWindow_storePublish (b : Broker α) (connId : ConnectionId) (req : PublishRequest)
    (env : HandlerEnv) : (b.storePublish lib connId req env).1.dedupWindow =
      if b.deduplicates req.producerId &&
          (b.store.roomAt req.topic).accepts (b.compressPayload lib req).1 then
        b.dedupWindow.markProcessed req.producerId req.sequenceId env.markedAt
      else b.dedupWindow := by
  have haccepts := (MemoryMessageStore.publish_roomAt b.store req.topic
    (b.compressPayload lib req).1 (b.requestTtlMs req) (env.expiryNowMs 0) (env.publishNowMs 0)).2.1
  rw [storePublish]
  dsimp only
  split
  · next hrefused =>
    rw [Bool.not_eq_true'] at hrefused
    rw [← haccepts, hrefused, Bool.and_false, if_neg Bool.false_ne_true]
  · next hstored =>
    rw [Bool.not_eq_true', Bool.not_eq_false] at hstored
    rw [← haccepts, hstored, Bool.and_true, dedupWindow_markProcessed]
    rfl

/-- The window after a step. -/
theorem dedupWindow_step (b : Broker α) (op : BrokerOp) :
    ((broker α lib).step b op).1.dedupWindow =
      match b.markedRequest lib op with
      | none => b.dedupWindow
      | some (req, markedAt) =>
        b.dedupWindow.markProcessed req.producerId req.sequenceId markedAt := by
  by_cases hpublish : IsFrame .publish op
  swap
  · -- no other step marks
    have hnone : b.markedRequest lib op = none := by
      unfold markedRequest
      split
      · next connId frame env =>
        exact if_neg fun htype => hpublish ⟨connId, frame, env, rfl, htype⟩
      · rfl
    rw [hnone]
    by_cases hbatch : IsFrame .batchPublish op
    · obtain ⟨connId, frame, env, rfl, htype⟩ := hbatch
      rw [step_batchPublish lib b connId env htype]
      split
      · exact (b.handleBatchPublish_cases lib connId _ env).1
      · rfl
    · exact (b.step_other lib hpublish hbatch).1
  obtain ⟨connId, frame, env, rfl, htype⟩ := hpublish
  rw [step_publish lib b connId env htype, markedRequest, if_pos htype]
  rcases lib.parsePublishRequest frame.payload with - | req
  · rfl
  rw [Option.bind_some]
  have houtcome := b.publishOutcome lib connId req env
  generalize b.handlePublish lib connId (some req) env = out at houtcome ⊢
  cases houtcome with
  | duplicate hdup =>
    rw [hdup, Bool.not_true, Bool.false_and, Bool.false_and, if_neg Bool.false_ne_true]
  | refused hnew hcheck =>
    rw [hcheck, Option.isNone_some, Bool.and_false, Bool.false_and, if_neg Bool.false_ne_true]
  | admitted hnew hcheck =>
    rw [dedupWindow_storePublish, hcheck, hnew, Option.isNone_none, Bool.not_false, Bool.true_and,
      Bool.true_and]
    change (if b.deduplicates req.producerId &&
      (b.store.roomAt req.topic).accepts (b.compressPayload lib req).1 then _ else _) = _
    split <;> rfl

/-- A request that is noted has a producer. -/
theorem producerId_ne_of_markedRequest {b : Broker α} {op : BrokerOp} {req : PublishRequest}
    {markedAt : ℤ} (h : b.markedRequest lib op = some (req, markedAt)) : req.producerId ≠ "" := by
  unfold markedRequest at h
  split at h
  swap
  · cases h
  split at h
  swap
  · cases h
  obtain ⟨req', -, hreq⟩ := Option.bind_eq_some_iff.mp h
  split at hreq
  · next hmarked =>
    obtain ⟨rfl, -⟩ := Prod.ext_iff.mp (Option.some_inj.mp hreq)
    simp only [Bool.and_eq_true, deduplicates, decide_eq_true_eq] at hmarked
    exact hmarked.2.1.2
  · cases hreq

/-! ### The size of the window -/

/-- A step that notes a message notes one of a known producer, or finds the window smaller than
`n`. -/
def HasRoomFor (n : ℕ) (e : BrokerEvent α) : Prop :=
  ∀ req markedAt, e.pre.markedRequest lib e.input = some (req, markedAt) →
    req.producerId ∈ e.pre.dedupWindow.producers ∨ e.pre.dedupWindow.producerCount < n

/-- The window after the step. -/
def windowAfter (e : BrokerEvent α) : DedupWindow :=
  ((broker α lib).step e.pre e.input).1.dedupWindow

/-- A step adds at most the producer of the request it notes, and forgets none. -/
theorem producerCount_windowAfter (e : BrokerEvent α) :
    (windowAfter lib e).producerCount =
        e.pre.dedupWindow.producerCount +
          (match e.pre.markedRequest lib e.input with
            | none => 0
            | some (req, _) => if req.producerId ∈ e.pre.dedupWindow.producers then 0 else 1) ∧
      ∀ p ∈ e.pre.dedupWindow.producers, p ∈ (windowAfter lib e).producers := by
  rw [windowAfter, dedupWindow_step]
  rcases hmarked : e.pre.markedRequest lib e.input with - | ⟨req, markedAt⟩
  · exact ⟨rfl, fun p hp => hp⟩
  · have hne := producerId_ne_of_markedRequest lib hmarked
    refine ⟨?_, fun p hp => (DedupWindow.mem_markProcessed hne _ _ p).mpr (Or.inr hp)⟩
    dsimp only
    rw [DedupWindow.producerCount_markProcessed hne]
    split <;> rfl

/-- From a window within the size, a step keeps it so iff there is room for what it notes. -/
theorem keeps_windowAfter_iff {n : ℕ} {e : BrokerEvent α}
    (hn : e.pre.dedupWindow.producerCount ≤ n) :
    DedupWindow.Keeps n e.pre.dedupWindow (windowAfter lib e) ↔ HasRoomFor lib n e := by
  obtain ⟨hcount, hkept⟩ := producerCount_windowAfter lib e
  rw [DedupWindow.Keeps, and_iff_left fun q hq hq' => absurd (hkept q hq) hq', hcount, HasRoomFor]
  rcases hmarked : e.pre.markedRequest lib e.input with - | ⟨req, markedAt⟩
  · simp [hn]
  · by_cases hmem : req.producerId ∈ e.pre.dedupWindow.producers
    · simp [hmem, hn]
    · dsimp only
      rw [if_neg hmem]
      exact ⟨fun h _ _ _ => Or.inr h, fun h => (h req markedAt rfl).resolve_left hmem⟩

/-- **The window stays within its size** in a run of the broker iff every request that is noted is
of a known producer or finds room in the window. A run has frames of any kind, with the passes of
the background threads in between; it is the broker's configuration that says how many producers
the window may hold. -/
theorem window_bounded_iff (config : BrokerConfig) (store : StoreConfig) (steadyNow : ℤ)
    (ops : List BrokerOp) :
    (broker α lib).Along (fun _ e => DedupWindow.Keeps config.dedupWindowSize.toNat
        e.pre.dedupWindow (windowAfter lib e)) (ofConfig config store steadyNow) ops ↔
      (broker α lib).Along (fun _ e => HasRoomFor lib config.dedupWindowSize.toNat e)
        (ofConfig config store steadyNow) ops := by
  -- in both directions the window is within its size before every step
  let P (_ : List (BrokerEvent α)) (b : Broker α) : Prop :=
    b.dedupWindow.producerCount ≤ config.dedupWindowSize.toNat
  have hstart : P [] (ofConfig config store steadyNow) := Nat.zero_le _
  have hiff (b : Broker α) (op : BrokerOp) (hb : P [] b) :=
    keeps_windowAfter_iff lib (e := (broker α lib).event b op) hb
  constructor
  · intro h
    refine StepMachine.Along.of_history _ (P := P) hstart (fun _ b op _ hkeeps => hkeeps.1) ?_ h
    exact fun _ b op hb hkeeps => (hiff b op hb).mp hkeeps
  · intro h
    refine StepMachine.Along.of_history _ (P := P) hstart ?_ ?_ h
    · exact fun _ b op hb hroom => ((hiff b op hb).mpr hroom).1
    · exact fun _ b op hb hroom => (hiff b op hb).mpr hroom

/-! ### Two producers -/

/-- Parsers that know two publish requests of topic `t`, one each of the producers `p` and `q`. -/
def producerLibraries : Libraries where
  parsePublishRequest
    | [10, 1, 116, 18, 1, 98, 42, 1, 112, 48, 1] =>
      some { topic := "t", payload := [98], producerId := "p", sequenceId := 1 }
    | [10, 1, 116, 18, 1, 99, 42, 1, 113, 48, 1] =>
      some { topic := "t", payload := [99], producerId := "q", sequenceId := 1 }
    | _ => none
  parseBatchPublishRequest _ := none
  parsePullRequest _ := none
  parseSubscribeRequest _ := none
  parseUnsubscribeRequest _ := none
  parseAckRequest _ := none
  parseAdminRequest _ := none
  compress2 _ := none

/-- Two clients publish, each as a producer of its own; then both background threads visit the
topic. -/
def twoProducersRun : List BrokerOp := [
  .frame 1 { msgType := .publish, payload := [10, 1, 116, 18, 1, 98, 42, 1, 112, 48, 1] }
    (.ofClocks 0 0),
  .frame 2 { msgType := .publish, payload := [10, 1, 116, 18, 1, 99, 42, 1, 113, 48, 1] }
    (.ofClocks 1000000 1),
  .retryPass "t" ⟨2000000, 2⟩ .canonical, .expirePass "t" 2]

/-- A window of size one holds two producers, and after the passes it still does. -/
theorem not_window_bounded_twoProducers :
    ¬ (broker ℚ producerLibraries).Along
      (fun _ e => DedupWindow.Keeps 1 e.pre.dedupWindow (windowAfter producerLibraries e))
      (ofConfig { dedupWindowSize := 1 } {} 0) twoProducersRun := by
  intro h
  have hlast := h _ _ [] (StepMachine.trace_concat _ _ (twoProducersRun.take 3)
    (.expirePass "t" 2))
  exact absurd hlast.1 (by decide +kernel)

end Broker

end ProtoMsgQueue
