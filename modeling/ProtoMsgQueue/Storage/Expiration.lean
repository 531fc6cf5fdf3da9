import ProtoMsgQueue.Storage.FirstDelivery
import ProtoMsgQueue.Storage.Isolation

/-!
# A topic without its expiration passes

Pulls and retry passes skip expired messages themselves, so an expiration pass removes
only what they would skip. `Unswept` relates a run with the run without its expiration
passes: both accepted the same messages, and logs, offsets, pending entries and retry
queues agree as far as messages have not expired. `unswept_run` says so of every run. The
retry passes must visit entries in a fixed order, since removing an entry may change the
order of an unordered map.
-/

namespace ProtoMsgQueue

open UnorderedMap

/-- Is the operation an expiration pass? -/
def TopicOp.isExpirePass : TopicOp → Bool
  | .expirePass _ => true
  | _ => false

/-- Is the operation an acknowledgement? -/
def TopicOp.isAck : TopicOp → Bool
  | .ack _ _ => true
  | _ => false

/-- A pass visits consumers and entries in a fixed order. -/
structure PassOrder.Fixed (order : PassOrder) : Prop where
  consumers : order.consumers.Fixed
  entries : order.entries.Fixed

/-- The assumptions on the operations of one topic: identifiers do not wrap, the system
clock does not go back, and retry passes visit entries in a fixed order. -/
structure Admissible (ops : List TopicOp) : Prop where
  publishes_lt : publishes ops < 2 ^ 64 - 2
  clock : (ops.filterMap TopicOp.clock?).Pairwise (· ≤ ·)
  fixed : ∀ clock order, .retryPass clock order ∈ ops → order.Fixed

/-- Fewer operations are admissible as well. -/
theorem Admissible.sublist {ops ops' : List TopicOp} (h : Admissible ops) (hsub : ops'.Sublist ops) :
    Admissible ops' where
  publishes_lt := lt_of_le_of_lt (hsub.countP_le) h.publishes_lt
  clock := h.clock.sublist (hsub.filterMap _)
  fixed clock order hmem := h.fixed clock order (hsub.subset hmem)

namespace TopicData

/-- Two consumers' maps have the same entries that are live at `nowMs`. -/
def SameLive (nowMs : UInt64) (pendingMap pendingMap' : PendingMap) : Prop :=
  ∀ msgId p, p.msg.isExpired nowMs = false →
    (pendingMap.lookup msgId = some p ↔ pendingMap'.lookup msgId = some p)

theorem SameLive.insert {nowMs : UInt64} {pendingMap pendingMap' : PendingMap}
    (h : SameLive nowMs pendingMap pendingMap') (msgId : MessageId) (p : PendingMessage) :
    SameLive nowMs (pendingMap.insert msgId p) (pendingMap'.insert msgId p) := by
  intro id q hlive
  rcases eq_or_ne id msgId with rfl | hne
  · rw [AList.lookup_insert, AList.lookup_insert]
  · rw [AList.lookup_insert_ne hne, AList.lookup_insert_ne hne]
    exact h id q hlive

theorem SameLive.addPending {nowMs : UInt64} {pendingMap pendingMap' : PendingMap}
    (h : SameLive nowMs pendingMap pendingMap') (steadyNow : ℕ → ℤ) (n : ℕ)
    (msgs : List StoredMessage) :
    SameLive nowMs (addPending steadyNow n msgs pendingMap)
      (addPending steadyNow n msgs pendingMap') := by
  induction msgs generalizing n pendingMap pendingMap' with
  | nil => exact h
  | cons m msgs ih => exact ih (h.insert m.id ⟨m, steadyNow n⟩) (n + 1)

/-! ### The loop over the retry queue -/

/-- Two states of a pull that agree on what is live. -/
structure PullState.AgreesLive (args : PullArgs) (st st' : PullState) : Prop where
  result_eq : st.result = st'.result
  pendingMap_live : SameLive args.nowMs (st.pendingMap args) (st'.pendingMap args)

namespace PullState.AgreesLive

variable {args : PullArgs} {st st' : PullState}

theorem full_eq (h : AgreesLive args st st') : st.full args = st'.full args := by
  rw [PullState.full, PullState.full, h.result_eq]

theorem touch (h : AgreesLive args st st') :
    AgreesLive args (st.touchPending args) (st'.touchPending args) := by
  refine ⟨h.result_eq, ?_⟩
  rw [PullState.touchPending_pendingMap, PullState.touchPending_pendingMap]
  exact h.pendingMap_live

theorem deliver (h : AgreesLive args st st') (msg : StoredMessage) :
    AgreesLive args (st.deliver args msg) (st'.deliver args msg) := by
  refine ⟨?_, ?_⟩
  · rw [PullState.deliver_result, PullState.deliver_result, h.result_eq]
  · rw [PullState.deliver_pendingMap, PullState.deliver_pendingMap, h.result_eq]
    exact h.pendingMap_live.insert _ _

end PullState.AgreesLive

/-- No entry under the identifier of a queued record has expired. -/
def PullState.LiveFor (st : PullState) (args : PullArgs) (queue : List StoredMessage) : Prop :=
  ∀ r ∈ queue, ∀ p, (st.pendingMap args).lookup r.id = some p → p.msg.isExpired args.nowMs = false

theorem PullState.LiveFor.deliver {st : PullState} {args : PullArgs} {queue : List StoredMessage}
    (h : st.LiveFor args queue) {msg : StoredMessage} (hlive : msg.isExpired args.nowMs = false) :
    (st.deliver args msg).LiveFor args queue := by
  intro r hr p hp
  rw [PullState.deliver_pendingMap] at hp
  rcases eq_or_ne r.id msg.id with heq | hne
  · rw [heq, AList.lookup_insert, Option.some_inj] at hp
    rw [← hp]
    exact hlive
  · rw [AList.lookup_insert_ne hne] at hp
    exact h r hr p hp

/-- Pulls that agree on what is live deliver the same from live records. -/
theorem pullRetry_live (args : PullArgs) {queue : List StoredMessage} {st st' : PullState}
    (hqueue : ∀ r ∈ queue, r.isExpired args.nowMs = false) (hagree : st.AgreesLive args st')
    (hst : st.LiveFor args queue) (hst' : st'.LiveFor args queue) :
    (pullRetry args queue st).1 = (pullRetry args queue st').1 ∧
      (pullRetry args queue st).2.AgreesLive args (pullRetry args queue st').2 := by
  induction queue generalizing st st' with
  | nil => exact ⟨rfl, hagree⟩
  | cons msg queue ih =>
    have hlive := hqueue msg List.mem_cons_self
    have hqueue' : ∀ r ∈ queue, r.isExpired args.nowMs = false :=
      fun r hr => hqueue r (List.mem_cons_of_mem _ hr)
    have htail : st.LiveFor args queue := fun r hr => hst r (List.mem_cons_of_mem _ hr)
    have htail' : st'.LiveFor args queue := fun r hr => hst' r (List.mem_cons_of_mem _ hr)
    cases hfull : st.full args with
    | true =>
      rw [pullRetry_of_full _ hfull, pullRetry_of_full _ (hagree.full_eq ▸ hfull)]
      exact ⟨rfl, hagree⟩
    | false =>
      have hfull' : st'.full args = false := hagree.full_eq ▸ hfull
      -- an entry under the identifier of a live record is live, hence in both maps
      have hmem : msg.id ∈ st.pendingMap args ↔ msg.id ∈ st'.pendingMap args := by
        rw [mem_iff_exists_lookup, mem_iff_exists_lookup]
        constructor
        · rintro ⟨p, hp⟩
          have hp' := hst msg List.mem_cons_self p hp
          exact ⟨p, (hagree.pendingMap_live msg.id p hp').mp hp⟩
        · rintro ⟨p, hp⟩
          have hp' := hst' msg List.mem_cons_self p hp
          exact ⟨p, (hagree.pendingMap_live msg.id p hp').mpr hp⟩
      rw [pullRetry_of_live queue hfull hlive, pullRetry_of_live queue hfull' hlive]
      have htouch : (st.touchPending args).LiveFor args queue := by
        intro r hr p hp
        rw [PullState.touchPending_pendingMap] at hp
        exact htail r hr p hp
      have htouch' : (st'.touchPending args).LiveFor args queue := by
        intro r hr p hp
        rw [PullState.touchPending_pendingMap] at hp
        exact htail' r hr p hp
      by_cases hin : msg.id ∈ st.pendingMap args
      · rw [if_pos hin, if_pos (hmem.mp hin)]
        obtain ⟨hkept, hagree'⟩ := ih hqueue' hagree.touch htouch htouch'
        exact ⟨congrArg (msg :: ·) hkept, hagree'⟩
      · rw [if_neg hin, if_neg fun h => hin (hmem.mpr h)]
        exact ih hqueue' (hagree.touch.deliver msg) (htouch.deliver hlive) (htouch'.deliver hlive)

/-! ### The retry pass -/

/-- Requeueing the same entries keeps two queues equal as far as they satisfy `live`. -/
theorem filter_requeueAll {live : StoredMessage → Bool} {queue queue' : List StoredMessage}
    (h : queue.filter live = queue'.filter live) (dues : List Due) :
    (requeueAll queue dues).filter live = (requeueAll queue' dues).filter live := by
  induction dues generalizing queue queue' with
  | nil => exact h
  | cons d dues ih =>
    refine ih ?_
    dsimp only [requeue]
    rw [List.filter_append, List.filter_append, List.filter_comm, h, List.filter_comm]

section FixedOrder

variable {cfg : StoreConfig} {clock : PassClock} {order : PassOrder} {s t : TopicData}

/-- **Fixed order.** If the live entries are the same, a pass finds the same live entries
timed out, in the same order. -/
theorem duePass_live (hfixed : order.Fixed)
    (h : ∀ key, SameLive clock.nowMs (s.pendingOf key) (t.pendingOf key)) :
    (duePass cfg clock order s).filter (fun d => !d.pending.msg.isExpired clock.nowMs) =
      (duePass cfg clock order t).filter fun d => !d.pending.msg.isExpired clock.nowMs := by
  obtain ⟨r, hasymm, hr⟩ := hfixed.consumers
  obtain ⟨r', hasymm', hr'⟩ := hfixed.entries
  set rel : Due → Due → Prop :=
    fun d d' => r d.key d'.key ∨ d.key = d'.key ∧ r' d.msgId d'.msgId with hrel
  have hanti : ∀ d d', rel d d' → ¬ rel d' d := by
    rintro d d' (hkey | ⟨heq, hid⟩) (hkey' | ⟨heq', hid'⟩)
    · exact hasymm _ _ hkey hkey'
    · exact hasymm _ _ hkey (heq' ▸ hkey)
    · exact hasymm _ _ hkey' (heq ▸ hkey')
    · exact hasymm' _ _ hid hid'
  have hpairwise : ∀ td, ((duePass cfg clock order td).filter
      fun d => !d.pending.msg.isExpired clock.nowMs).Pairwise rel :=
    fun td => (pairwise_duePass (hr _) fun key => hr' _).sublist List.filter_sublist
  have hnodup : ∀ td, ((duePass cfg clock order td).filter
      fun d => !d.pending.msg.isExpired clock.nowMs).Nodup := by
    intro td
    refine (hpairwise td).imp fun hd heq => ?_
    subst heq
    exact hanti _ _ hd hd
  refine List.Perm.eq_of_pairwise (fun d d' _ _ hd hd' => absurd hd' (hanti d d' hd))
    (hpairwise s) (hpairwise t) ?_
  refine (List.perm_ext_iff_of_nodup (hnodup s) (hnodup t)).mpr fun d => ?_
  rw [List.mem_filter, List.mem_filter, mem_duePass, mem_duePass]
  refine and_congr_left fun hlive => and_congr_left fun _ => ?_
  exact h d.key d.msgId d.pending (by simpa using hlive)

/-- What a pass requeues or takes for dead is live. -/
private theorem filter_duePass_eq (hfixed : order.Fixed)
    (h : ∀ key, SameLive clock.nowMs (s.pendingOf key) (t.pendingOf key)) {p : Due → Bool}
    (hp : ∀ d, p d = true → d.pending.msg.isExpired clock.nowMs = false) :
    (duePass cfg clock order s).filter p = (duePass cfg clock order t).filter p := by
  have hlive : ∀ l : List Due, l.filter p =
      (l.filter fun d => !d.pending.msg.isExpired clock.nowMs).filter p := by
    intro l
    rw [List.filter_filter]
    refine List.filter_congr fun d _ => ?_
    cases hd : p d with
    | false => rfl
    | true => rw [hp d hd]; rfl
  rw [hlive, duePass_live hfixed h, ← hlive]

/-- So it requeues the same entries and takes the same for dead. -/
theorem filter_requeued_eq (cfg : StoreConfig) (hfixed : order.Fixed)
    (h : ∀ key, SameLive clock.nowMs (s.pendingOf key) (t.pendingOf key)) :
    (duePass cfg clock order s).filter (Due.requeued cfg clock) =
        (duePass cfg clock order t).filter (Due.requeued cfg clock) ∧
      (duePass cfg clock order s).filter (Due.dead cfg clock) =
        (duePass cfg clock order t).filter (Due.dead cfg clock) := by
  constructor
  · refine filter_duePass_eq hfixed h fun d hd => ?_
    simp only [Due.requeued, Bool.and_eq_true, Bool.not_eq_true'] at hd
    exact hd.1
  · refine filter_duePass_eq hfixed h fun d hd => ?_
    simp only [Due.dead, Bool.and_eq_true, Bool.not_eq_true'] at hd
    exact hd.1

end FixedOrder

/-! ### Topics that look alike -/

/-- Of the messages `msgs`, two topics show the same ones that are live at `nowMs`, and
their live retry records and pending entries are the same. -/
structure LooksAlike (nowMs : UInt64) (msgs : List StoredMessage) (s t : TopicData) : Prop where
  pending_live : ∀ key, SameLive nowMs (s.pendingOf key) (t.pendingOf key)
  offset_iff : ∀ c, ∀ m ∈ msgs, m.isExpired nowMs = false → (s.offset c ≤ m.id ↔ t.offset c ≤ m.id)
  queue_eq : s.retryQueue.filter (fun r => !r.isExpired nowMs) =
    t.retryQueue.filter fun r => !r.isExpired nowMs

namespace LooksAlike

variable {cfg : StoreConfig} {h h' : List TopicEvent} {s t : TopicData} {nowMs later : UInt64}
  {msgs : List StoredMessage}

/-- Topics that look alike do so later. -/
theorem mono (ha : LooksAlike nowMs msgs s t) (hle : nowMs ≤ later) :
    LooksAlike later msgs s t where
  pending_live key id p hlive := ha.pending_live key id p (isExpired_anti hle hlive)
  offset_iff c m hm hlive := ha.offset_iff c m hm (isExpired_anti hle hlive)
  queue_eq := by
    have hlater : ∀ l : List StoredMessage, l.filter (fun r => !r.isExpired later) =
        (l.filter fun r => !r.isExpired nowMs).filter fun r => !r.isExpired later := by
      intro l
      rw [List.filter_filter]
      refine List.filter_congr fun r _ => ?_
      cases hexp : r.isExpired later with
      | true => rfl
      | false => rw [isExpired_anti hle hexp]; rfl
    rw [hlater, ha.queue_eq, ← hlater]

/-- A pending entry under the identifier of a live retry record is live: both are the same
message of the log. -/
private theorem liveFor_retryQueue {drained waiting : List StoredMessage}
    (hc : Consistent h s drained waiting) (c : Consumer) (maxMessages : UInt32)
    (steadyNow : ℕ → ℤ) :
    (s.pulledLog c maxMessages nowMs steadyNow).LiveFor ⟨c.key, maxMessages, nowMs, steadyNow⟩
      (s.retryQueue.filter fun r => !r.isExpired nowMs) := by
  intro r hr p hp
  obtain ⟨hr, hlive⟩ := List.mem_filter.mp hr
  obtain ⟨new, hdelivers⟩ := pullLog_delivers ⟨c.key, maxMessages, nowMs, steadyNow⟩
    s.drainRingBuffer.messageLog (s.drainRingBuffer.pullStart c)
  rcases hdelivers.lookup_new r.id p hp with hold | ⟨hmem, -⟩
  · obtain ⟨hid, hlog⟩ := hc.pending c.key r.id p hold
    have hsame := hc.log_injOn hlog (hc.queue r hr).2 hid
    rw [← StoredMessage.isExpired_firstDelivery, hsame, StoredMessage.isExpired_firstDelivery]
    simpa using hlive
  · exact (hdelivers.mem_source p.msg hmem).2

/-- A pull returns the same from both topics, and leaves them looking alike. -/
theorem pull {drained waiting drained' waiting' : List StoredMessage}
    (hc : Consistent h s drained waiting) (hc' : Consistent h' t drained' waiting')
    (hb : Bounded h) (hb' : Bounded h') (hacc : accepted h = accepted h')
    (hnow : NotBefore h nowMs) (hnow' : NotBefore h' nowMs)
    (ha : LooksAlike nowMs (accepted h) s t) (c : Consumer) (maxMessages : UInt32)
    (steadyNow : ℕ → ℤ) :
    LooksAlike nowMs (accepted h) (s.pull c maxMessages nowMs steadyNow).1
        (t.pull c maxMessages nowMs steadyNow).1 ∧
      (s.pull c maxMessages nowMs steadyNow).2 = (t.pull c maxMessages nowMs steadyNow).2 := by
  set args : PullArgs := ⟨c.key, maxMessages, nowMs, steadyNow⟩ with hargs
  set s₁ := s.pulledLog c maxMessages nowMs steadyNow with hs₁
  set t₁ := t.pulledLog c maxMessages nowMs steadyNow with ht₁
  have hlog : LogPull args _ (s.drainRingBuffer.pullStart c) s₁ :=
    hc.pulledLog_spec c maxMessages nowMs steadyNow hb
  have hlog' : LogPull args _ (t.drainRingBuffer.pullStart c) t₁ :=
    hc'.pulledLog_spec c maxMessages nowMs steadyNow hb'
  -- the loop over the log delivers the same messages
  have hdue := dueMessages_eq_of_offset_iff hc hc' hacc hnow hnow' (ha.offset_iff c)
  have hagree : s₁.AgreesLive args t₁ := by
    refine ⟨hlog.result_eq.trans (Eq.trans ?_ hlog'.result_eq.symm), ?_⟩
    · exact congrArg (fun l => [] ++ List.take maxMessages.toNat l) hdue
    · rw [hlog.pending_eq, hlog'.pending_eq]
      change SameLive nowMs
        (addPending steadyNow 0 (List.take maxMessages.toNat _) (s.pendingOf c.key))
        (addPending steadyNow 0 (List.take maxMessages.toNat _) (t.pendingOf c.key))
      have hpending := (ha.pending_live c.key).addPending steadyNow 0
        (List.take maxMessages.toNat
          (dueMessages nowMs (s.startOffset c) s.drainRingBuffer.messageLog))
      rwa [show dueMessages nowMs (t.drainRingBuffer.pullStart c).offset
        t.drainRingBuffer.messageLog = _ from hdue.symm]
  -- and so does the loop over the live retry records
  have hleft := pullRetry_filter args (fun _ => true) s.retryQueue
    (⟨rfl, rfl⟩ : s₁.Agrees args s₁) fun _ _ => rfl
  have hright := pullRetry_filter args (fun _ => true) t.retryQueue
    (⟨rfl, rfl⟩ : t₁.Agrees args t₁) fun _ _ => rfl
  dsimp only at hleft hright
  simp only [Bool.true_and] at hleft hright
  have hqueue : ∀ r ∈ s.retryQueue.filter fun r => !r.isExpired nowMs,
      r.isExpired args.nowMs = false := by
    intro r hr
    simpa using (List.mem_filter.mp hr).2
  have hlive' : t₁.LiveFor args (s.retryQueue.filter fun r => !r.isExpired nowMs) := by
    rw [ha.queue_eq]
    exact liveFor_retryQueue hc' c maxMessages steadyNow
  obtain ⟨hkept, hst⟩ := pullRetry_live args hqueue hagree
    (liveFor_retryQueue hc c maxMessages steadyNow) hlive'
  rw [← ha.queue_eq] at hright
  have hresult := hleft.2.result_eq.trans (hst.result_eq.trans hright.2.result_eq.symm)
  refine ⟨⟨fun key => ?_, fun c' m hm hlive => ?_, ?_⟩, hresult⟩
  · rcases eq_or_ne key c.key with rfl | hne
    · have hpending := hst.pendingMap_live
      rw [← hleft.2.pendingMap_eq, ← hright.2.pendingMap_eq] at hpending
      exact hpending
    · rw [s.pull_pendingOf_ne c maxMessages nowMs steadyNow hne,
        t.pull_pendingOf_ne c maxMessages nowMs steadyNow hne]
      exact ha.pending_live key
  · rcases eq_or_ne c' c with rfl | hne
    · exact offset_iff_pull hc hc' hb hb' hacc hnow hnow' (ha.offset_iff c') maxMessages steadyNow
        hm hlive
    · rw [s.pull_offset_ne c maxMessages nowMs steadyNow hne,
        t.pull_offset_ne c maxMessages nowMs steadyNow hne]
      exact ha.offset_iff c' m hm hlive
  · exact hleft.1.trans (hkept.trans hright.1.symm)

/-- An acknowledgement leaves the topics looking alike, whatever it returns. -/
theorem ack (ha : LooksAlike nowMs msgs s t) (c : Consumer) (msgId : MessageId) :
    LooksAlike nowMs msgs (s.ack c msgId).1 (t.ack c msgId).1 := by
  obtain ⟨_, hframe⟩ := ack_frame s c msgId
  obtain ⟨_, hframe'⟩ := ack_frame t c msgId
  refine ⟨fun key id p hlive => ?_, ?_, ?_⟩
  · rw [ack_lookup, ack_lookup, ha.pending_live key id p hlive]
  · rw [hframe, hframe']
    exact ha.offset_iff
  · rw [hframe, hframe']
    exact ha.queue_eq

/-- A retry pass moves the same messages to the dead-letter queue. -/
theorem retryPass {clock : PassClock} {order : PassOrder}
    (ha : LooksAlike clock.nowMs msgs s t) (cfg : StoreConfig) (hfixed : order.Fixed) :
    LooksAlike clock.nowMs msgs (s.processPendingRetries cfg clock order).1
        (t.processPendingRetries cfg clock order).1 ∧
      (s.processPendingRetries cfg clock order).2 =
        (t.processPendingRetries cfg clock order).2 := by
  obtain ⟨hrequeued, hdead⟩ := filter_requeued_eq cfg hfixed ha.pending_live
  obtain ⟨-, hqueue, hdlq⟩ := processPendingRetries_spec cfg clock order s
  obtain ⟨-, hqueue', hdlq'⟩ := processPendingRetries_spec cfg clock order t
  refine ⟨⟨fun key id p hlive => ?_, ha.offset_iff, ?_⟩, ?_⟩
  · rw [processPendingRetries_lookup, processPendingRetries_lookup, ha.pending_live key id p hlive]
  · rw [hqueue, hqueue', hrequeued]
    exact filter_requeueAll ha.queue_eq _
  · rw [hdlq, hdlq', hdead]

/-- An expiration pass over one topic changes nothing that is live. -/
theorem expirePass (ha : LooksAlike nowMs msgs s t) :
    LooksAlike nowMs msgs (s.expireTopicMessages nowMs) t := by
  refine ⟨fun key id p hlive => ?_, ha.offset_iff, ?_⟩
  · rw [expireTopicMessages_lookup, ← ha.pending_live key id p hlive]
    exact and_iff_left hlive
  · change (s.retryQueue.filter fun r => !r.isExpired nowMs).filter _ = _
    rw [List.filter_filter]
    simp only [Bool.and_self]
    exact ha.queue_eq

end LooksAlike

/-! ### The relation between the two runs -/

/-- What an event shows to the clients: the results of all operations but acknowledgements
and expiration passes. -/
def visible (e : TopicEvent) : Option TopicResult :=
  match e.input with
  | .ack _ _ => none
  | .expirePass _ => none
  | _ => some e.output

/-- A run and the same run without its expiration passes: the ring buffers are equal, the
same messages were accepted, and the topics look alike from now on. -/
structure Unswept (h : List TopicEvent) (s : TopicData) (h' : List TopicEvent) (t : TopicData) :
    Prop where
  full : ∃ drained waiting, Consistent h s drained waiting
  thinned : ∃ drained waiting, Consistent h' t drained waiting
  bounded : Bounded h
  accepted_eq : accepted h = accepted h'
  count_eq : publishCount h = publishCount h'
  ring_eq : s.ringBuffer = t.ringBuffer
  clock : ∀ nowMs, NotBefore h nowMs → NotBefore h' nowMs
  alike : ∀ nowMs, NotBefore h nowMs → LooksAlike nowMs (accepted h) s t

namespace Unswept

variable {cfg : StoreConfig} {h h' : List TopicEvent} {s t : TopicData}

/-- The thinned run is within the bounds as well. -/
theorem bounded' (hu : Unswept h s h' t) : Bounded h' :=
  ⟨hu.count_eq ▸ hu.bounded.publishes_lt, hu.accepted_eq ▸ hu.bounded.size_lt⟩

theorem next_eq (hu : Unswept h s h' t) : s.nextMsgId = t.nextMsgId := by
  obtain ⟨_, _, hc⟩ := hu.full
  obtain ⟨_, _, hc'⟩ := hu.thinned
  rw [hc.next_eq, hc'.next_eq, hu.count_eq]

theorem init (topicName : TopicName) (bufferSize : ℕ) :
    Unswept [] (ofName topicName bufferSize) [] (ofName topicName bufferSize) where
  full := ⟨[], [], consistent_ofName _ _⟩
  thinned := ⟨[], [], consistent_ofName _ _⟩
  bounded := ⟨by decide, by simp [accepted]⟩
  accepted_eq := rfl
  count_eq := rfl
  ring_eq := rfl
  clock := fun _ h => h
  alike := fun _ _ => ⟨fun _ _ _ _ => Iff.rfl, fun _ _ _ _ => Iff.rfl, rfl⟩

/-- An operation outside the publishes, done in both runs. -/
private theorem concat_both (hu : Unswept h s h' t) {op : TopicOp} (hpub : op.isPublish = false)
    (hring : ((topic cfg).step s op).1.ringBuffer = ((topic cfg).step t op).1.ringBuffer)
    (halike : ∀ later, NotBefore (h ++ [(topic cfg).event s op]) later →
      LooksAlike later (accepted h) ((topic cfg).step s op).1 ((topic cfg).step t op).1) :
    Unswept (h ++ [(topic cfg).event s op]) ((topic cfg).step s op).1
      (h' ++ [(topic cfg).event t op]) ((topic cfg).step t op).1 := by
  obtain ⟨drained, waiting, hc⟩ := hu.full
  obtain ⟨drained', waiting', hc'⟩ := hu.thinned
  obtain ⟨hacc, hcount⟩ := accepted_concat_of_not_publish h (e := (topic cfg).event s op) hpub
  obtain ⟨hacc', hcount'⟩ := accepted_concat_of_not_publish h' (e := (topic cfg).event t op) hpub
  have hb : Bounded (h ++ [(topic cfg).event s op]) :=
    ⟨hcount ▸ hu.bounded.publishes_lt, hacc ▸ hu.bounded.size_lt⟩
  have hb' : Bounded (h' ++ [(topic cfg).event t op]) :=
    ⟨hcount' ▸ hu.bounded'.publishes_lt, hacc' ▸ hu.bounded'.size_lt⟩
  exact
    { full := hc.step op hb
      thinned := hc'.step op hb'
      bounded := hb
      accepted_eq := by rw [hacc, hacc', hu.accepted_eq]
      count_eq := by rw [hcount, hcount', hu.count_eq]
      ring_eq := hring
      clock := fun nowMs hn => (hu.clock nowMs hn.of_concat).concat fun u hu => hn.last hu
      alike := by
        rw [hacc]
        exact halike }

/-- A publish is accepted by both or by neither. -/
theorem publish (hu : Unswept h s h' t) (payload : Payload) (ttlMs : UInt32)
    (expiryNowMs nowMs : UInt64)
    (hb : Bounded (h ++ [(topic cfg).event s (.publish payload ttlMs expiryNowMs nowMs)])) :
    Unswept (h ++ [(topic cfg).event s (.publish payload ttlMs expiryNowMs nowMs)])
        ((topic cfg).step s (.publish payload ttlMs expiryNowMs nowMs)).1
        (h' ++ [(topic cfg).event t (.publish payload ttlMs expiryNowMs nowMs)])
        ((topic cfg).step t (.publish payload ttlMs expiryNowMs nowMs)).1 ∧
      ((topic cfg).step s (.publish payload ttlMs expiryNowMs nowMs)).2 =
        ((topic cfg).step t (.publish payload ttlMs expiryNowMs nowMs)).2 := by
  set op := TopicOp.publish payload ttlMs expiryNowMs nowMs with hop
  obtain ⟨drained, waiting, hc⟩ := hu.full
  obtain ⟨drained', waiting', hc'⟩ := hu.thinned
  have hout : ((topic cfg).step s op).2 = ((topic cfg).step t op).2 := by
    change TopicResult.published s.nextMsgId (s.ringBuffer.push _).2 =
      .published t.nextMsgId (t.ringBuffer.push _).2
    rw [hu.ring_eq, hu.next_eq]
  have hmsg : acceptedMessage ((topic cfg).event s op) =
      acceptedMessage ((topic cfg).event t op) := by
    simp only [acceptedMessage, StepMachine.event_input, StepMachine.event_output, hout]
  have hcount : publishCount (h ++ [(topic cfg).event s op]) =
      publishCount (h' ++ [(topic cfg).event t op]) := by
    rw [publishCount_concat, publishCount_concat, hu.count_eq]
    rfl
  have hacc : accepted (h ++ [(topic cfg).event s op]) =
      accepted (h' ++ [(topic cfg).event t op]) := by
    rw [accepted_concat, accepted_concat, hmsg, hu.accepted_eq]
  refine ⟨?_, hout⟩
  exact
    { full := hc.step op hb
      thinned := hc'.step op ⟨hcount ▸ hb.publishes_lt, hacc ▸ hb.size_lt⟩
      bounded := hb
      accepted_eq := hacc
      count_eq := hcount
      ring_eq := by
        change (s.ringBuffer.push _).1 = (t.ringBuffer.push _).1
        rw [hu.ring_eq, hu.next_eq]
      clock := fun nowMs hn => (hu.clock nowMs hn.of_concat).concat fun u hu => by cases hu
      alike := fun nowMs hn => by
        have ha := hu.alike nowMs hn.of_concat
        refine ⟨ha.pending_live, fun c m hm hlive => ?_, ha.queue_eq⟩
        rw [accepted_concat, List.mem_append] at hm
        rcases hm with hm | hm
        · exact ha.offset_iff c m hm hlive
        · -- the new message is above every offset
          have hid := id_of_acceptedMessage (Option.mem_toList.mp hm)
          exact iff_of_true (hid ▸ hc.offset_next c) (hid ▸ hu.next_eq ▸ hc'.offset_next c) }

/-- An expiration pass, done in the full run only. -/
theorem expirePass (hu : Unswept h s h' t) (nowMs : UInt64)
    (hnow : ClockForward h ((topic cfg).event s (.expirePass nowMs))) :
    Unswept (h ++ [(topic cfg).event s (.expirePass nowMs)])
      ((topic cfg).step s (.expirePass nowMs)).1 h' t := by
  obtain ⟨drained, waiting, hc⟩ := hu.full
  obtain ⟨hacc, hcount⟩ :=
    accepted_concat_of_not_publish h (e := (topic cfg).event s (.expirePass nowMs)) rfl
  have hb : Bounded (h ++ [(topic cfg).event s (.expirePass nowMs)]) :=
    ⟨hcount ▸ hu.bounded.publishes_lt, hacc ▸ hu.bounded.size_lt⟩
  exact
    { hu with
      full := hc.step _ hb
      bounded := hb
      accepted_eq := hacc.trans hu.accepted_eq
      count_eq := hcount.trans hu.count_eq
      clock := fun now hn => hu.clock now hn.of_concat
      alike := fun later hn => by
        rw [hacc]
        exact (hu.alike nowMs (hnow nowMs rfl)).expirePass.mono (hn.last rfl) }

/-- **One operation in both runs.** Every operation but an expiration pass returns the same
in both, acknowledgements apart. -/
theorem step (hu : Unswept h s h' t) {op : TopicOp} (hop : op.isExpirePass = false)
    (hb : Bounded (h ++ [(topic cfg).event s op]))
    (hclock : ClockForward h ((topic cfg).event s op))
    (hfixed : ∀ clock order, op = .retryPass clock order → order.Fixed) :
    Unswept (h ++ [(topic cfg).event s op]) ((topic cfg).step s op).1
        (h' ++ [(topic cfg).event t op]) ((topic cfg).step t op).1 ∧
      visible ((topic cfg).event s op) = visible ((topic cfg).event t op) := by
  obtain ⟨drained, waiting, hc⟩ := hu.full
  obtain ⟨drained', waiting', hc'⟩ := hu.thinned
  cases op with
  | publish payload ttlMs expiryNowMs nowMs =>
    obtain ⟨hu', hout⟩ := hu.publish payload ttlMs expiryNowMs nowMs hb
    exact ⟨hu', congrArg some hout⟩
  | pull c maxMessages nowMs steadyNow =>
    have hnow : NotBefore h nowMs := hclock nowMs rfl
    obtain ⟨ha, hresult⟩ := (hu.alike nowMs hnow).pull hc hc' hu.bounded hu.bounded'
      hu.accepted_eq hnow (hu.clock nowMs hnow) c maxMessages steadyNow
    refine ⟨hu.concat_both rfl ?_ fun later hn => ha.mono (hn.last rfl), ?_⟩
    · change (s.pull c maxMessages nowMs steadyNow).1.ringBuffer =
        (t.pull c maxMessages nowMs steadyNow).1.ringBuffer
      rw [pull_ringBuffer, pull_ringBuffer]
      exact drainRingBuffer_ringBuffer_congr hu.ring_eq
    · exact congrArg (fun msgs => some (TopicResult.pulled msgs)) hresult
  | ack c msgId =>
    refine ⟨hu.concat_both rfl ?_ fun later hn => (hu.alike later hn.of_concat).ack c msgId, rfl⟩
    obtain ⟨_, hframe⟩ := ack_frame s c msgId
    obtain ⟨_, hframe'⟩ := ack_frame t c msgId
    change (s.ack c msgId).1.ringBuffer = (t.ack c msgId).1.ringBuffer
    rw [hframe, hframe']
    exact hu.ring_eq
  | retryPass clock order =>
    have hnow : NotBefore h clock.nowMs := hclock clock.nowMs rfl
    obtain ⟨ha, hdlq⟩ := (hu.alike clock.nowMs hnow).retryPass cfg
      (hfixed clock order rfl)
    refine ⟨hu.concat_both rfl hu.ring_eq fun later hn => ha.mono (hn.last rfl), ?_⟩
    exact congrArg (fun dlq => some (TopicResult.retried dlq)) hdlq
  | expirePass nowMs => cases hop

end Unswept

/-! ### Whole runs of a topic -/

section Runs

variable {cfg : StoreConfig}

/-- **One topic.** After every admissible run the topic looks as it does without the
expiration passes, and the other operations returned the same. -/
theorem unswept_run (topicName : TopicName) (hbuffer : cfg.defaultBufferSize ≤ kMaxPayloadSize)
    {ops : List TopicOp} (hadm : Admissible ops) :
    let full := (topic cfg).trace (ofName topicName cfg.defaultBufferSize) ops
    let thinned := (topic cfg).trace (ofName topicName cfg.defaultBufferSize)
      (ops.filter fun op => !op.isExpirePass)
    Unswept full ((topic cfg).run (ofName topicName cfg.defaultBufferSize) ops)
      thinned ((topic cfg).run (ofName topicName cfg.defaultBufferSize)
        (ops.filter fun op => !op.isExpirePass)) ∧
      full.filterMap visible = thinned.filterMap visible := by
  have hC : (topic cfg).Along (fun h e => Bounded (h ++ [e]) ∧ ClockForward h e ∧
      ∀ clock order, e.input = .retryPass clock order → order.Fixed)
      (ofName topicName cfg.defaultBufferSize) ops := by
    intro before e after hsplit
    refine ⟨(bounded_of_publishes hbuffer topicName hadm.publishes_lt).along before e after hsplit,
      along_clockForward _ hadm.clock before e after hsplit, fun clock order hin => ?_⟩
    have hinputs := congrArg (List.map StepMachine.Event.input) hsplit
    rw [StepMachine.trace_map_input] at hinputs
    refine hadm.fixed clock order ?_
    rw [hinputs, List.map_append, List.map_cons, hin]
    exact List.mem_append_right _ List.mem_cons_self
  refine StepMachine.filter_simulation (topic cfg) (D := fun _ _ => True)
    (Unswept.init topicName cfg.defaultBufferSize) ?_ ?_ hC fun _ _ _ _ => trivial
  · rintro h s h' t op hu ⟨hb, hclock, hfixed⟩ - hkeep
    exact hu.step (by simpa using hkeep) hb hclock hfixed
  · rintro h s h' t op hu ⟨-, hclock, -⟩ hdrop
    cases op with
    | expirePass nowMs => exact ⟨hu.expirePass nowMs hclock, rfl⟩
    | _ => cases hdrop

/-- The next operation, no expiration pass, returns what it returns without the passes. -/
theorem visible_run (topicName : TopicName)
    (hbuffer : cfg.defaultBufferSize ≤ kMaxPayloadSize) {ops : List TopicOp} {op : TopicOp}
    (hadm : Admissible (ops ++ [op])) (hop : op.isExpirePass = false) :
    visible ((topic cfg).event ((topic cfg).run (ofName topicName cfg.defaultBufferSize) ops) op) =
      visible ((topic cfg).event ((topic cfg).run (ofName topicName cfg.defaultBufferSize)
        (ops.filter fun op => !op.isExpirePass)) op) := by
  have hu := (unswept_run topicName hbuffer
    (hadm.sublist (List.sublist_append_left ops [op]))).1
  refine (hu.step hop ?_ ?_ fun clock order heq => hadm.fixed clock order (by simp [heq])).2
  · rw [← StepMachine.trace_concat]
    exact bounded_of_publishes hbuffer topicName hadm.publishes_lt
  · exact (along_clockForward _ hadm.clock) _ _ [] (StepMachine.trace_concat _ _ _ _)

end Runs

end TopicData

end ProtoMsgQueue
