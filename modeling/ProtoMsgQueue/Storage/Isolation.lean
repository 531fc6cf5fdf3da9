import ProtoMsgQueue.Storage.Consistency
import ProtoMsgQueue.Storage.RetryOwners

/-!
# When consumers are isolated

Two runs of a topic: one with all operations, one without the pulls and acknowledgements
of every consumer but `c`. Offsets and pending entries belong to a consumer, and draining
the ring buffer earlier or later makes no difference to what `c` finds in the log; the
retry queue is shared. `isolated` shows that `c` sees the same in both runs if no retry
record crosses between `c` and another consumer. The relation between the runs,
`Indistinct`, compares the retry records owned by `c` and whatever has not expired.
-/

namespace ProtoMsgQueue

open UnorderedMap

/-- The system clock reading of a pull or a pass. -/
def TopicOp.clock? : TopicOp → Option UInt64
  | .pull _ _ nowMs _ => some nowMs
  | .retryPass clock _ => some clock.nowMs
  | .expirePass nowMs => some nowMs
  | _ => none

/-- Is the operation one that stays when the pulls and acknowledgements of all consumers
but `c` are deleted? -/
def TopicOp.concerns (c : Consumer) : TopicOp → Bool
  | .pull d _ _ _ => d = c
  | .ack d _ => d = c
  | _ => true

/-- The result of a pull or an acknowledgement of the consumer. -/
def answer (c : Consumer) (e : TopicEvent) : Option TopicResult :=
  match e.input with
  | .pull d _ _ _ => if d = c then some e.output else none
  | .ack d _ => if d = c then some e.output else none
  | _ => none

/-- A publish is accepted. -/
def publishAccepted (e : TopicEvent) : Bool :=
  match e.input, e.output with
  | .publish .., .published _ ok => ok
  | _, _ => true

namespace TopicData

/-- No pull or pass so far read the system clock after `nowMs`. -/
def NotBefore (h : List TopicEvent) (nowMs : UInt64) : Prop :=
  ∀ e ∈ h, ∀ t ∈ e.input.clock?, t ≤ nowMs

/-- The system clock does not go back. -/
def ClockForward (h : List TopicEvent) (e : TopicEvent) : Prop :=
  ∀ nowMs ∈ e.input.clock?, NotBefore h nowMs

/-- No retry record crosses between the consumer and another one: the consumer's pulls take
only records it owns, other pulls take none of them, and a retry pass replaces none of them
by a record of another consumer. -/
structure Uncrossed (cfg : StoreConfig) (c : Consumer) (h : List TopicEvent)
    (e : TopicEvent) : Prop where
  own_pull : ∀ maxMessages nowMs steadyNow, e.input = .pull c maxMessages nowMs steadyNow →
    ∀ m, e.pre.takesRetry c maxMessages nowMs steadyNow m = true → owners cfg h m = some c.key
  other_pull : ∀ d maxMessages nowMs steadyNow, e.input = .pull d maxMessages nowMs steadyNow →
    d ≠ c → ∀ m, e.pre.takesRetry d maxMessages nowMs steadyNow m = true →
      owners cfg h m ≠ some c.key
  replaced : ∀ clock order, e.input = .retryPass clock order →
    ∀ d ∈ (duePass cfg clock order e.pre).filter (Due.requeued cfg clock), d.key ≠ c.key →
      ∀ r ∈ e.pre.retryQueue, r.id = d.msgId → owners cfg h r.id ≠ some c.key
  same_pass : ∀ clock order, e.input = .retryPass clock order →
    ((duePass cfg clock order e.pre).filter (Due.requeued cfg clock)).Pairwise
      fun d d' => d.key = c.key → d'.key ≠ c.key → d.msgId ≠ d'.msgId

variable {cfg : StoreConfig} {c : Consumer} {h h' : List TopicEvent} {s t : TopicData}

theorem NotBefore.of_concat {e : TopicEvent} {nowMs : UInt64} (hn : NotBefore (h ++ [e]) nowMs) :
    NotBefore h nowMs :=
  fun e' he' => hn e' (List.mem_append_left _ he')

theorem NotBefore.last {e : TopicEvent} {nowMs t : UInt64} (hn : NotBefore (h ++ [e]) nowMs)
    (ht : t ∈ e.input.clock?) : t ≤ nowMs :=
  hn e (by simp) t ht

theorem NotBefore.concat {e : TopicEvent} {nowMs : UInt64} (hn : NotBefore h nowMs)
    (he : ∀ t ∈ e.input.clock?, t ≤ nowMs) : NotBefore (h ++ [e]) nowMs := by
  intro e' he' t ht
  rcases List.mem_append.mp he' with he' | he'
  · exact hn e' he' t ht
  · rw [List.mem_singleton.mp he'] at ht
    exact he t ht

/-- What has expired stays expired. -/
theorem isExpired_mono {m : StoredMessage} {t nowMs : UInt64} (hle : t ≤ nowMs)
    (h : m.isExpired t = true) : m.isExpired nowMs = true := by
  simp only [StoredMessage.isExpired, Bool.and_eq_true, decide_eq_true_eq] at h ⊢
  exact ⟨h.1, h.2.trans_le (UInt64.le_iff_toNat_le.mp hle)⟩

/-- What is live was live before. -/
theorem isExpired_anti {m : StoredMessage} {t nowMs : UInt64} (hle : t ≤ nowMs)
    (h : m.isExpired nowMs = false) : m.isExpired t = false := by
  rw [Bool.eq_false_iff] at h ⊢
  exact fun hexp => h (isExpired_mono hle hexp)

/-! ### What a drained log contains -/

/-- The accepted messages that the ring buffer can return. -/
def drainable (h : List TopicEvent) : List StoredMessage :=
  (accepted h).takeWhile StoredMessage.poppable

/-- A sublist of a list without duplicates that has all elements satisfying `p` agrees with
it on `p`. -/
private theorem filter_eq_of_sublist {l₁ l₂ : List StoredMessage} {p : StoredMessage → Bool}
    (hsub : l₁.Sublist l₂) (hnodup : l₂.Nodup) (hall : ∀ m ∈ l₂, p m = true → m ∈ l₁) :
    l₁.filter p = l₂.filter p := by
  refine (hsub.filter p).eq_of_length_le ?_
  refine (List.subperm_of_subset (hnodup.filter p) fun m hm => ?_).length_le
  obtain ⟨hm, hp⟩ := List.mem_filter.mp hm
  exact List.mem_filter.mpr ⟨hall m hm hp, hp⟩

section Consistent

variable {td : TopicData} {drained waiting : List StoredMessage}

/-- After a drain, everything drainable was drained. -/
private theorem drained_eq_drainable (hc : Consistent h td drained waiting) :
    drained ++ waiting.takeWhile StoredMessage.poppable = drainable h := by
  rw [drainable, hc.accepted_eq, List.takeWhile_append_of_pos hc.poppable]

/-- The live part of a drained log does not depend on earlier drains and passes. -/
theorem Consistent.dueMessages_eq (hc : Consistent h td drained waiting) {nowMs : UInt64}
    (hnow : NotBefore h nowMs) (offset : MessageId) :
    dueMessages nowMs offset td.drainRingBuffer.messageLog =
      dueMessages nowMs offset (drainable h) := by
  have hd := hc.drain
  rw [drained_eq_drainable hc] at hd
  have hnodup : (drainable h).Nodup :=
    (hc.sorted.sublist (List.takeWhile_sublist _)).imp fun hlt heq =>
      absurd (congrArg StoredMessage.id heq) hlt.ne
  refine filter_eq_of_sublist hd.log hnodup fun m hm hp => ?_
  refine (hd.gone m hm).resolve_right ?_
  rintro ⟨e, he, t, hin, -, hexp⟩
  have hle : t ≤ nowMs := hnow e he t (by rw [hin]; rfl)
  rw [isExpired_mono hle hexp, Bool.not_true, Bool.and_false] at hp
  cases hp

/-- The first offset of a pull divides the accepted messages like the stored one. -/
theorem Consistent.startOffset_iff (hc : Consistent h td drained waiting) (c : Consumer)
    {m : StoredMessage} (hm : m ∈ accepted h) :
    td.startOffset c ≤ m.id ↔ td.offset c ≤ m.id := by
  rw [startOffset]
  split
  · rename_i hzero
    exact iff_of_true (hc.id_pos m hm) (hzero ▸ Nat.zero_le _)
  · rfl

/-- Where a pull leaves the offset, on live messages. -/
theorem Consistent.pulledLog_offset_iff (hc : Consistent h td drained waiting) (hb : Bounded h)
    (c : Consumer) (maxMessages : UInt32) {nowMs : UInt64} (steadyNow : ℕ → ℤ)
    (hnow : NotBefore h nowMs) {m : StoredMessage} (hm : m ∈ accepted h)
    (hlive : m.isExpired nowMs = false) :
    (td.pulledLog c maxMessages nowMs steadyNow).offset ≤ m.id ↔
      m ∉ drainable h ∨
        m ∈ (dueMessages nowMs (td.startOffset c) (drainable h)).drop maxMessages.toNat := by
  have hlog := hc.pulledLog_spec c maxMessages nowMs steadyNow hb
  have hdue : dueMessages nowMs (td.pulledLog c maxMessages nowMs steadyNow).offset
      (drainable h) = (dueMessages nowMs (td.startOffset c) (drainable h)).drop
        maxMessages.toNat := by
    rw [← hc.dueMessages_eq hnow, ← hc.dueMessages_eq hnow]
    exact hlog.due_eq
  rw [← hdue, dueMessages, List.mem_filter]
  have hpass : (decide ((td.pulledLog c maxMessages nowMs steadyNow).offset ≤ m.id) &&
      !m.isExpired nowMs) = true ↔
        (td.pulledLog c maxMessages nowMs steadyNow).offset ≤ m.id := by
    simp [hlive]
  rw [hpass]
  by_cases hin : m ∈ drainable h
  · simp [hin]
  · refine iff_of_true ?_ (.inl hin)
    -- not drained: waiting, and no offset passes a waiting message
    have hd : Consistent _ ((topic {}).step td (.pull c maxMessages nowMs steadyNow)).1 _ _ :=
      hc.pull c maxMessages nowMs steadyNow hb
    have hwaiting : m ∈ waiting.dropWhile StoredMessage.poppable := by
      have hsplit := hc.drain.accepted_eq
      rw [drained_eq_drainable hc] at hsplit
      rw [hsplit, List.mem_append] at hm
      exact hm.resolve_left hin
    have hle := hd.offset_waiting c m hwaiting
    rw [← td.pull_offset]
    exact hle

end Consistent

/-! ### Two runs with the same accepted messages -/

section TwoRuns

variable {drained waiting drained' waiting' : List StoredMessage} {nowMs : UInt64}

/-- If the offset divides the live messages alike, the same messages are due in both. -/
theorem dueMessages_eq_of_offset_iff (hc : Consistent h s drained waiting)
    (hc' : Consistent h' t drained' waiting') (hacc : accepted h = accepted h')
    (hnow : NotBefore h nowMs) (hnow' : NotBefore h' nowMs)
    (hoffset : ∀ m ∈ accepted h, m.isExpired nowMs = false →
      (s.offset c ≤ m.id ↔ t.offset c ≤ m.id)) :
    dueMessages nowMs (s.startOffset c) s.drainRingBuffer.messageLog =
      dueMessages nowMs (t.startOffset c) t.drainRingBuffer.messageLog := by
  have hdrainable : drainable h = drainable h' := by rw [drainable, drainable, hacc]
  rw [hc.dueMessages_eq hnow, hc'.dueMessages_eq hnow', ← hdrainable]
  refine List.filter_congr fun m hm => ?_
  have hm : m ∈ accepted h := (List.takeWhile_sublist _).subset hm
  cases hlive : m.isExpired nowMs with
  | true => rw [Bool.not_true, Bool.and_false, Bool.and_false]
  | false =>
    have hiff : s.startOffset c ≤ m.id ↔ t.startOffset c ≤ m.id :=
      (hc.startOffset_iff c hm).trans ((hoffset m hm hlive).trans
        (hc'.startOffset_iff c (hacc ▸ hm)).symm)
    simp only [hiff]

/-- And a pull leaves the offset so. -/
theorem offset_iff_pull (hc : Consistent h s drained waiting)
    (hc' : Consistent h' t drained' waiting') (hb : Bounded h) (hb' : Bounded h')
    (hacc : accepted h = accepted h') (hnow : NotBefore h nowMs) (hnow' : NotBefore h' nowMs)
    (hoffset : ∀ m ∈ accepted h, m.isExpired nowMs = false →
      (s.offset c ≤ m.id ↔ t.offset c ≤ m.id))
    (maxMessages : UInt32) (steadyNow : ℕ → ℤ) {m : StoredMessage} (hm : m ∈ accepted h)
    (hlive : m.isExpired nowMs = false) :
    (s.pull c maxMessages nowMs steadyNow).1.offset c ≤ m.id ↔
      (t.pull c maxMessages nowMs steadyNow).1.offset c ≤ m.id := by
  have hdrainable : drainable h = drainable h' := by rw [drainable, drainable, hacc]
  have hdue := dueMessages_eq_of_offset_iff hc hc' hacc hnow hnow' hoffset
  rw [hc.dueMessages_eq hnow, hc'.dueMessages_eq hnow'] at hdue
  rw [pull_offset, pull_offset, hc.pulledLog_offset_iff hb c maxMessages steadyNow hnow hm hlive,
    hc'.pulledLog_offset_iff hb' c maxMessages steadyNow hnow' (hacc ▸ hm) hlive, hdue, hdrainable]

end TwoRuns

/-! ### The relation between the two runs -/

/-- The full and the thinned run are the same to the consumer: the accepted messages and
its pending entries agree, nobody else has entries in the thinned run, and, as far as
messages have not expired, its offset divides the accepted messages alike and its own
retry records are all there is in the thinned run. -/
structure Indistinct (cfg : StoreConfig) (c : Consumer) (h : List TopicEvent) (s : TopicData)
    (h' : List TopicEvent) (t : TopicData) : Prop where
  full : ∃ drained waiting, Consistent h s drained waiting
  thinned : ∃ drained waiting, Consistent h' t drained waiting
  keyed : s.Keyed
  bounded : Bounded h
  accepted_eq : accepted h = accepted h'
  count_eq : publishCount h = publishCount h'
  clock : ∀ nowMs, NotBefore h nowMs → NotBefore h' nowMs
  pending_eq : s.pendingOf c.key = t.pendingOf c.key
  alone : ∀ key, key ≠ c.key → ∀ id, id ∉ t.pendingOf key
  offset_iff : ∀ nowMs, NotBefore h nowMs → ∀ m ∈ accepted h, m.isExpired nowMs = false →
    (s.offset c ≤ m.id ↔ t.offset c ≤ m.id)
  queue_eq : ∀ nowMs, NotBefore h nowMs →
    s.retryQueue.filter (fun r => owners cfg h r.id = some c.key && !r.isExpired nowMs) =
      t.retryQueue.filter fun r => !r.isExpired nowMs

namespace Indistinct

/-- The thinned run is within the bounds as well. -/
theorem bounded' (hi : Indistinct cfg c h s h' t) : Bounded h' :=
  ⟨hi.count_eq ▸ hi.bounded.publishes_lt, hi.accepted_eq ▸ hi.bounded.size_lt⟩

theorem init (topicName : TopicName) (bufferSize : ℕ) :
    Indistinct cfg c [] (ofName topicName bufferSize) [] (ofName topicName bufferSize) where
  full := ⟨[], [], consistent_ofName _ _⟩
  thinned := ⟨[], [], consistent_ofName _ _⟩
  keyed := keyed_ofName _ _
  bounded := ⟨by decide, by simp [accepted]⟩
  accepted_eq := rfl
  count_eq := rfl
  clock := fun _ h => h
  pending_eq := rfl
  alone := fun _ _ id => AList.notMem_empty id
  offset_iff := fun _ _ _ _ _ => Iff.rfl
  queue_eq := fun _ _ => rfl

/-- An operation outside the publishes, done in both runs. -/
private theorem concat_both (hi : Indistinct cfg c h s h' t) {op : TopicOp}
    (hpub : op.isPublish = false) {s' t' : TopicData}
    (hs : ((topic cfg).step s op).1 = s') (ht : ((topic cfg).step t op).1 = t')
    (hpending : s'.pendingOf c.key = t'.pendingOf c.key)
    (halone : ∀ key, key ≠ c.key → ∀ id, id ∉ t'.pendingOf key)
    (hoffset : ∀ nowMs, NotBefore (h ++ [(topic cfg).event s op]) nowMs → ∀ m ∈ accepted h,
      m.isExpired nowMs = false → (s'.offset c ≤ m.id ↔ t'.offset c ≤ m.id))
    (hqueue : ∀ nowMs, NotBefore (h ++ [(topic cfg).event s op]) nowMs →
      s'.retryQueue.filter (fun r => ownersAfter cfg (owners cfg h) ((topic cfg).event s op) r.id
        = some c.key && !r.isExpired nowMs) = t'.retryQueue.filter fun r => !r.isExpired nowMs) :
    Indistinct cfg c (h ++ [(topic cfg).event s op]) ((topic cfg).step s op).1
      (h' ++ [(topic cfg).event t op]) ((topic cfg).step t op).1 := by
  subst hs ht
  obtain ⟨drained, waiting, hc⟩ := hi.full
  obtain ⟨drained', waiting', hc'⟩ := hi.thinned
  obtain ⟨hacc, hcount⟩ := accepted_concat_of_not_publish h (e := (topic cfg).event s op) hpub
  obtain ⟨hacc', hcount'⟩ := accepted_concat_of_not_publish h' (e := (topic cfg).event t op) hpub
  have hb : Bounded (h ++ [(topic cfg).event s op]) :=
    ⟨hcount ▸ hi.bounded.publishes_lt, hacc ▸ hi.bounded.size_lt⟩
  have hb' : Bounded (h' ++ [(topic cfg).event t op]) :=
    ⟨hcount' ▸ hi.bounded'.publishes_lt, hacc' ▸ hi.bounded'.size_lt⟩
  exact
    { full := hc.step op hb
      thinned := hc'.step op hb'
      keyed := hi.keyed.step op
      bounded := hb
      accepted_eq := by rw [hacc, hacc', hi.accepted_eq]
      count_eq := by rw [hcount, hcount', hi.count_eq]
      clock := fun nowMs hn => (hi.clock nowMs hn.of_concat).concat fun u hu => hn.last hu
      pending_eq := hpending
      alone := halone
      offset_iff := by
        rw [hacc]
        exact hoffset
      queue_eq := by
        rw [owners_concat]
        exact hqueue }

/-- An operation outside the publishes, done in the full run only. -/
private theorem concat_full (hi : Indistinct cfg c h s h' t) {op : TopicOp}
    (hpub : op.isPublish = false) {s' : TopicData} (hs : ((topic cfg).step s op).1 = s')
    (hpending : s'.pendingOf c.key = s.pendingOf c.key) (hoffset : s'.offset c = s.offset c)
    (howners : ownersAfter cfg (owners cfg h) ((topic cfg).event s op) = owners cfg h)
    (hqueue : ∀ nowMs, NotBefore (h ++ [(topic cfg).event s op]) nowMs →
      s'.retryQueue.filter (fun r => owners cfg h r.id = some c.key && !r.isExpired nowMs) =
      s.retryQueue.filter fun r => owners cfg h r.id = some c.key && !r.isExpired nowMs) :
    Indistinct cfg c (h ++ [(topic cfg).event s op]) ((topic cfg).step s op).1 h' t := by
  subst hs
  obtain ⟨drained, waiting, hc⟩ := hi.full
  obtain ⟨hacc, hcount⟩ := accepted_concat_of_not_publish h (e := (topic cfg).event s op) hpub
  have hb : Bounded (h ++ [(topic cfg).event s op]) :=
    ⟨hcount ▸ hi.bounded.publishes_lt, hacc ▸ hi.bounded.size_lt⟩
  exact
    { hi with
      full := hc.step op hb
      keyed := hi.keyed.step op
      bounded := hb
      accepted_eq := hacc.trans hi.accepted_eq
      count_eq := hcount.trans hi.count_eq
      clock := fun nowMs hn => hi.clock nowMs hn.of_concat
      pending_eq := hpending.trans hi.pending_eq
      offset_iff := fun nowMs hn m hm hlive => by
        rw [hoffset]
        exact hi.offset_iff nowMs hn.of_concat m (hacc ▸ hm) hlive
      queue_eq := fun nowMs hn => by
        rw [owners_concat, howners, hqueue nowMs hn]
        exact hi.queue_eq nowMs hn.of_concat }

/-! ### One operation in both runs -/

theorem publish (hi : Indistinct cfg c h s h' t) (payload : Payload) (ttlMs : UInt32)
    (expiryNowMs nowMs : UInt64)
    (hb : Bounded (h ++ [(topic cfg).event s (.publish payload ttlMs expiryNowMs nowMs)]))
    (hs : publishAccepted ((topic cfg).event s (.publish payload ttlMs expiryNowMs nowMs)) = true)
    (ht : publishAccepted ((topic cfg).event t (.publish payload ttlMs expiryNowMs nowMs)) = true) :
    Indistinct cfg c (h ++ [(topic cfg).event s (.publish payload ttlMs expiryNowMs nowMs)])
      ((topic cfg).step s (.publish payload ttlMs expiryNowMs nowMs)).1
      (h' ++ [(topic cfg).event t (.publish payload ttlMs expiryNowMs nowMs)])
      ((topic cfg).step t (.publish payload ttlMs expiryNowMs nowMs)).1 := by
  obtain ⟨drained, waiting, hc⟩ := hi.full
  obtain ⟨drained', waiting', hc'⟩ := hi.thinned
  have hnext : s.nextMsgId = t.nextMsgId := by rw [hc.next_eq, hc'.next_eq, hi.count_eq]
  -- an accepted publish appends the same message to both histories
  have hacc := accepted_publish cfg h s payload ttlMs expiryNowMs nowMs
  rw [show (s.publish payload ttlMs expiryNowMs nowMs).2.2 = true from hs, if_pos rfl] at hacc
  have hacc' := accepted_publish cfg h' t payload ttlMs expiryNowMs nowMs
  rw [show (t.publish payload ttlMs expiryNowMs nowMs).2.2 = true from ht, if_pos rfl] at hacc'
  have hcount : publishCount (h ++ [(topic cfg).event s
      (.publish payload ttlMs expiryNowMs nowMs)]) = publishCount (h' ++ [(topic cfg).event t
      (.publish payload ttlMs expiryNowMs nowMs)]) := by
    rw [publishCount_concat, publishCount_concat, hi.count_eq]
    rfl
  have heq : accepted (h ++ [(topic cfg).event s (.publish payload ttlMs expiryNowMs nowMs)]) =
      accepted (h' ++ [(topic cfg).event t (.publish payload ttlMs expiryNowMs nowMs)]) := by
    rw [hacc, hacc', hi.accepted_eq, hnext]
  exact
    { full := hc.step _ hb
      thinned := hc'.step _ ⟨hcount ▸ hb.publishes_lt, heq ▸ hb.size_lt⟩
      keyed := hi.keyed.step _
      bounded := hb
      accepted_eq := heq
      count_eq := hcount
      clock := fun now hn => (hi.clock now hn.of_concat).concat fun u hu => by cases hu
      pending_eq := hi.pending_eq
      alone := hi.alone
      offset_iff := fun now hn m hm hlive => by
        rw [hacc, List.mem_append, List.mem_singleton] at hm
        rcases hm with hm | rfl
        · exact hi.offset_iff now hn.of_concat m hm hlive
        · exact iff_of_true (hc.offset_next c) ((hc'.offset_next c).trans hnext.ge)
      queue_eq := fun now hn => by
        rw [owners_concat]
        exact hi.queue_eq now hn.of_concat }

/-- A pull of the consumer returns the same in both runs. -/
theorem pull (hi : Indistinct cfg c h s h' t) (maxMessages : UInt32) (nowMs : UInt64)
    (steadyNow : ℕ → ℤ) (hnow : NotBefore h nowMs)
    (hown : ∀ m, s.takesRetry c maxMessages nowMs steadyNow m = true →
      owners cfg h m = some c.key) :
    Indistinct cfg c (h ++ [(topic cfg).event s (.pull c maxMessages nowMs steadyNow)])
      ((topic cfg).step s (.pull c maxMessages nowMs steadyNow)).1
      (h' ++ [(topic cfg).event t (.pull c maxMessages nowMs steadyNow)])
      ((topic cfg).step t (.pull c maxMessages nowMs steadyNow)).1 ∧
    (s.pull c maxMessages nowMs steadyNow).2 = (t.pull c maxMessages nowMs steadyNow).2 := by
  obtain ⟨drained, waiting, hc⟩ := hi.full
  obtain ⟨drained', waiting', hc'⟩ := hi.thinned
  have hnow' := hi.clock nowMs hnow
  set args : PullArgs := ⟨c.key, maxMessages, nowMs, steadyNow⟩ with hargs
  set s₁ := s.pulledLog c maxMessages nowMs steadyNow with hs₁
  set t₁ := t.pulledLog c maxMessages nowMs steadyNow with ht₁
  have hlog : LogPull args _ (s.drainRingBuffer.pullStart c) s₁ :=
    hc.pulledLog_spec c maxMessages nowMs steadyNow hi.bounded
  have hlog' : LogPull args _ (t.drainRingBuffer.pullStart c) t₁ :=
    hc'.pulledLog_spec c maxMessages nowMs steadyNow hi.bounded'
  -- the same messages are due in both runs
  have hdue₁ := dueMessages_eq_of_offset_iff hc hc' hi.accepted_eq hnow hnow'
    (hi.offset_iff nowMs hnow)
  -- so the loop over the log does the same
  have hagree : s₁.Agrees args t₁ := by
    refine ⟨hlog.result_eq.trans (Eq.trans ?_ hlog'.result_eq.symm),
      hlog.pending_eq.trans (Eq.trans ?_ hlog'.pending_eq.symm)⟩
    · exact congrArg (fun l => [] ++ List.take maxMessages.toNat l) hdue₁
    · change addPending steadyNow 0 (List.take maxMessages.toNat _) (s.pendingOf c.key) =
        addPending steadyNow 0 (List.take maxMessages.toNat _) (t.pendingOf c.key)
      rw [hi.pending_eq]
      exact congrArg (fun l => addPending steadyNow 0 (List.take maxMessages.toNat l) _) hdue₁
  -- and so does the loop over the consumer's retry records
  have hleft := pullRetry_filter args (fun m => decide (owners cfg h m = some c.key))
    s.retryQueue hagree
    fun m htake => decide_eq_true (hown m htake)
  have hright := pullRetry_filter args (fun _ => true) t.retryQueue
    (⟨rfl, rfl⟩ : t₁.Agrees args t₁) fun _ _ => rfl
  dsimp only at hleft hright
  simp only [Bool.true_and] at hright
  rw [hi.queue_eq nowMs hnow] at hleft
  have hkept := hleft.1.trans hright.1.symm
  refine ⟨hi.concat_both rfl rfl rfl ?_ ?_ ?_ ?_, ?_⟩
  · exact hleft.2.pendingMap_eq.trans hright.2.pendingMap_eq.symm
  · intro key hkey id
    change id ∉ (t.pull c maxMessages nowMs steadyNow).1.pendingOf key
    rw [t.pull_pendingOf_ne c maxMessages nowMs steadyNow hkey]
    exact hi.alone key hkey id
  · intro now hn m hm hlive
    exact offset_iff_pull hc hc' hi.bounded hi.bounded' hi.accepted_eq hnow hnow'
      (hi.offset_iff nowMs hnow) maxMessages steadyNow hm (isExpired_anti (hn.last rfl) hlive)
  · -- what is live later was live at this pull
    intro now hn
    have hlater : ∀ (l : List StoredMessage) (own : StoredMessage → Bool),
        l.filter (fun r => own r && !r.isExpired now) =
          (l.filter fun r => own r && !r.isExpired nowMs).filter fun r => !r.isExpired now := by
      intro l own
      rw [List.filter_filter]
      refine List.filter_congr fun r _ => ?_
      cases hlive : r.isExpired now with
      | true => simp
      | false => simp [isExpired_anti (hn.last rfl) hlive]
    have hright' := hlater (pullRetry args t.retryQueue t₁).1 fun _ => true
    simp only [Bool.true_and] at hright'
    exact (hlater _ _).trans ((congrArg _ hkept).trans hright'.symm)
  · exact hleft.2.result_eq.trans hright.2.result_eq.symm

/-- An acknowledgement of the consumer has the same result in both runs. -/
theorem ack (hi : Indistinct cfg c h s h' t) (msgId : MessageId) :
    Indistinct cfg c (h ++ [(topic cfg).event s (.ack c msgId)])
      ((topic cfg).step s (.ack c msgId)).1 (h' ++ [(topic cfg).event t (.ack c msgId)])
      ((topic cfg).step t (.ack c msgId)).1 ∧
    (s.ack c msgId).2 = (t.ack c msgId).2 := by
  refine ⟨hi.concat_both rfl rfl rfl ?_ ?_ ?_ ?_, ?_⟩
  · change (s.ack c msgId).1.pendingOf c.key = (t.ack c msgId).1.pendingOf c.key
    rw [ack_pendingOf, ack_pendingOf, hi.pending_eq]
  · intro key hkey id
    change id ∉ (t.ack c msgId).1.pendingOf key
    rw [ack_pendingOf_ne t c msgId hkey]
    exact hi.alone key hkey id
  · intro now hn m hm hlive
    obtain ⟨_, hframe⟩ := ack_frame s c msgId
    obtain ⟨_, hframe'⟩ := ack_frame t c msgId
    change (s.ack c msgId).1.offset c ≤ m.id ↔ (t.ack c msgId).1.offset c ≤ m.id
    rw [hframe, hframe']
    exact hi.offset_iff now hn.of_concat m hm hlive
  · intro now hn
    obtain ⟨_, hframe⟩ := ack_frame s c msgId
    obtain ⟨_, hframe'⟩ := ack_frame t c msgId
    change (s.ack c msgId).1.retryQueue.filter _ = (t.ack c msgId).1.retryQueue.filter _
    rw [hframe, hframe']
    exact hi.queue_eq now hn.of_concat
  · rw [ack_result, ack_result, hi.pending_eq]

/-- A retry pass. -/
theorem retryPass (hi : Indistinct cfg c h s h' t) (clock : PassClock) (order : PassOrder)
    (hreplaced : ∀ d ∈ (duePass cfg clock order s).filter (Due.requeued cfg clock),
      d.key ≠ c.key → ∀ r ∈ s.retryQueue, r.id = d.msgId → owners cfg h r.id ≠ some c.key)
    (hpass : ((duePass cfg clock order s).filter (Due.requeued cfg clock)).Pairwise
      fun d d' => d.key = c.key → d'.key ≠ c.key → d.msgId ≠ d'.msgId) :
    Indistinct cfg c (h ++ [(topic cfg).event s (.retryPass clock order)])
      ((topic cfg).step s (.retryPass clock order)).1
      (h' ++ [(topic cfg).event t (.retryPass clock order)])
      ((topic cfg).step t (.retryPass clock order)).1 := by
  obtain ⟨hpending, hqueue, -⟩ :=
    processPendingRetries_spec cfg clock order s
  obtain ⟨hpending', hqueue', -⟩ :=
    processPendingRetries_spec cfg clock order t
  refine hi.concat_both rfl rfl rfl ?_ ?_ ?_ ?_
  · exact (hpending c.key).trans (by rw [hi.pending_eq]; exact (hpending' c.key).symm)
  · intro key hkey id hid
    exact hi.alone key hkey id (mem_pendingOf_of_processPendingRetries cfg clock order hid)
  · exact fun now hn m hm hlive => hi.offset_iff now hn.of_concat m hm hlive
  · intro now hn
    -- the thinned run requeues exactly the consumer's own entries
    have hdues : ((duePass cfg clock order s).filter (Due.requeued cfg clock)).filter
        (fun d => d.key = c.key) = (duePass cfg clock order t).filter (Due.requeued cfg clock) := by
      have hall : (duePass cfg clock order t).filter (fun d => d.key = c.key) =
          duePass cfg clock order t := by
        refine List.filter_eq_self.mpr fun d hd => decide_eq_true ?_
        by_contra hkey
        exact hi.alone d.key hkey d.msgId
          (mem_iff_exists_lookup.mpr ⟨d.pending, (mem_duePass.mp hd).1⟩)
      rw [← hall, duePass_filter, ← hi.pending_eq, ← duePass_filter, List.filter_comm]
    have hids : ∀ d ∈ (duePass cfg clock order s).filter (Due.requeued cfg clock),
        d.pending.msg.id = d.msgId := fun d hd => hi.keyed.due_id d (List.mem_filter.mp hd).1
    have hfilter := requeueAll_filter (fun r => !r.isExpired now) hids
      (hi.queue_eq now hn.of_concat) hreplaced hpass
    rw [hdues] at hfilter
    change (s.processPendingRetries cfg clock order).1.retryQueue.filter _ =
      (t.processPendingRetries cfg clock order).1.retryQueue.filter _
    rw [hqueue, hqueue']
    exact hfilter

/-- An expiration pass. -/
theorem expirePass (hi : Indistinct cfg c h s h' t) (nowMs : UInt64) :
    Indistinct cfg c (h ++ [(topic cfg).event s (.expirePass nowMs)])
      ((topic cfg).step s (.expirePass nowMs)).1 (h' ++ [(topic cfg).event t (.expirePass nowMs)])
      ((topic cfg).step t (.expirePass nowMs)).1 := by
  refine hi.concat_both rfl rfl rfl ?_ ?_ ?_ ?_
  · change (s.expireTopicMessages nowMs).pendingOf c.key =
      (t.expireTopicMessages nowMs).pendingOf c.key
    rw [expireTopicMessages_pendingOf, expireTopicMessages_pendingOf, hi.pending_eq]
  · intro key hkey id hid
    exact hi.alone key hkey id (mem_pendingOf_of_expireTopicMessages hid)
  · exact fun now hn m hm hlive => hi.offset_iff now hn.of_concat m hm hlive
  · intro now hn
    change (s.retryQueue.filter fun r => !r.isExpired nowMs).filter _ =
      (t.retryQueue.filter fun r => !r.isExpired nowMs).filter _
    rw [List.filter_comm, List.filter_comm _ _ t.retryQueue]
    exact congrArg _ (hi.queue_eq now hn.of_concat)

/-! ### One operation of another consumer -/

/-- A pull of another consumer that takes none of the consumer's records. -/
theorem pull_other (hi : Indistinct cfg c h s h' t) {d : Consumer} (hne : d ≠ c)
    (maxMessages : UInt32) (nowMs : UInt64) (steadyNow : ℕ → ℤ)
    (hother : ∀ m, s.takesRetry d maxMessages nowMs steadyNow m = true →
      owners cfg h m ≠ some c.key) :
    Indistinct cfg c (h ++ [(topic cfg).event s (.pull d maxMessages nowMs steadyNow)])
      ((topic cfg).step s (.pull d maxMessages nowMs steadyNow)).1 h' t := by
  have hkey : c.key ≠ d.key := fun heq => hne (Consumer.key_injective heq).symm
  refine hi.concat_full rfl rfl (s.pull_pendingOf_ne d maxMessages nowMs steadyNow hkey)
    (s.pull_offset_ne d maxMessages nowMs steadyNow hne.symm) rfl ?_
  intro now hn
  refine filter_eq_of_sublist (s.retryQueue_pull_sublist d maxMessages nowMs steadyNow)
    hi.keyed.nodup_queue.of_map fun r hr hp => ?_
  rw [Bool.and_eq_true, decide_eq_true_eq, Bool.not_eq_true'] at hp
  have hkeep := hi.keyed.retryQueue_takesRetry d maxMessages nowMs steadyNow r.id
  rw [if_neg fun htake => hother r.id htake hp.1] at hkeep
  exact hkeep r hr rfl (isExpired_anti (hn.last rfl) hp.2)

/-- An acknowledgement of another consumer. -/
theorem ack_other (hi : Indistinct cfg c h s h' t) {d : Consumer} (hne : d ≠ c)
    (msgId : MessageId) :
    Indistinct cfg c (h ++ [(topic cfg).event s (.ack d msgId)])
      ((topic cfg).step s (.ack d msgId)).1 h' t := by
  have hkey : c.key ≠ d.key := fun heq => hne (Consumer.key_injective heq).symm
  obtain ⟨_, hframe⟩ := ack_frame s d msgId
  refine hi.concat_full rfl rfl (ack_pendingOf_ne s d msgId hkey)
    (congrArg (fun td => td.offset c) hframe) rfl fun now hn => ?_
  change (s.ack d msgId).1.retryQueue.filter _ = _
  rw [hframe]

end Indistinct

/-! ### Whole runs -/

/-- In a run whose clock readings are sorted the clock never goes back. -/
theorem along_clockForward {ops : List TopicOp} (td : TopicData)
    (hclock : (ops.filterMap TopicOp.clock?).Pairwise (· ≤ ·)) :
    (topic cfg).Along ClockForward td ops := by
  intro before e after hsplit nowMs hnow e' he' t ht
  have hinputs := congrArg (List.map StepMachine.Event.input) hsplit
  rw [StepMachine.trace_map_input, List.map_append, List.map_cons] at hinputs
  rw [hinputs, List.filterMap_append, List.pairwise_append] at hclock
  refine hclock.2.2 t ?_ nowMs ?_
  · exact List.mem_filterMap.mpr ⟨e'.input, List.mem_map_of_mem he', ht⟩
  · exact List.mem_filterMap.mpr ⟨e.input, List.mem_cons_self, hnow⟩

/-- Nobody but the consumer pulls while records wait, which are its own, and only its entries are
requeued. -/
def ownsQueue (cfg : StoreConfig) (c : Consumer) (h : List TopicEvent) (e : TopicEvent) : Bool :=
  match e.input with
  | .pull d _ _ _ => e.pre.retryQueue.all fun r => d = c && owners cfg h r.id = some c.key
  | .retryPass clock order =>
    ((duePass cfg clock order e.pre).filter (Due.requeued cfg clock)).all fun d => d.key = c.key
  | _ => true

/-- Then nothing crosses. -/
theorem uncrossed_of_ownsQueue {e : TopicEvent} (howns : ownsQueue cfg c h e = true) :
    Uncrossed cfg c h e := by
  have hpull : ∀ d maxMessages nowMs steadyNow, e.input = .pull d maxMessages nowMs steadyNow →
      ∀ m, e.pre.takesRetry d maxMessages nowMs steadyNow m = true →
        d = c ∧ owners cfg h m = some c.key := by
    intro d maxMessages nowMs steadyNow hin m htake
    obtain ⟨r, hr, rfl⟩ := exists_mem_of_takesRetry htake
    rw [ownsQueue, hin] at howns
    simpa using List.all_eq_true.mp howns r hr
  have hpass : ∀ clock order, e.input = .retryPass clock order →
      ∀ d ∈ (duePass cfg clock order e.pre).filter (Due.requeued cfg clock), d.key = c.key := by
    intro clock order hin d hd
    rw [ownsQueue, hin] at howns
    exact of_decide_eq_true (List.all_eq_true.mp howns d hd)
  exact
    { own_pull := fun maxMessages nowMs steadyNow hin m htake =>
        (hpull c maxMessages nowMs steadyNow hin m htake).2
      other_pull := fun d maxMessages nowMs steadyNow hin hne m htake =>
        absurd (hpull d maxMessages nowMs steadyNow hin m htake).1 hne
      replaced := fun clock order hin d hd hne => absurd (hpass clock order hin d hd) hne
      same_pass := fun clock order hin => List.pairwise_of_forall_mem_list fun _ _ d' hd' _ hne =>
        absurd (hpass clock order hin d' hd') hne }

/-- **When consumers are isolated.** Take a run within the bounds in which the system clock
does not go back and no retry record crosses between the consumer and another one. If every
publish is accepted, and still is once the pulls and acknowledgements of all other consumers
are deleted, then the deletion leaves the result of every pull and acknowledgement of the
consumer unchanged. -/
theorem isolated (cfg : StoreConfig) (topicName : TopicName) (c : Consumer) (ops : List TopicOp)
    (hb : Bounded ((topic cfg).trace (ofName topicName cfg.defaultBufferSize) ops))
    (hclock : (ops.filterMap TopicOp.clock?).Pairwise (· ≤ ·))
    (huncrossed : (topic cfg).Along (Uncrossed cfg c)
      (ofName topicName cfg.defaultBufferSize) ops)
    (hfull : ∀ e ∈ (topic cfg).trace (ofName topicName cfg.defaultBufferSize) ops,
      publishAccepted e = true)
    (hthinned : ∀ e ∈ (topic cfg).trace (ofName topicName cfg.defaultBufferSize)
      (ops.filter (TopicOp.concerns c)), publishAccepted e = true) :
    ((topic cfg).trace (ofName topicName cfg.defaultBufferSize) ops).filterMap (answer c) =
      ((topic cfg).trace (ofName topicName cfg.defaultBufferSize)
        (ops.filter (TopicOp.concerns c))).filterMap (answer c) := by
  have hC : (topic cfg).Along (fun h e => Bounded (h ++ [e]) ∧ ClockForward h e ∧
      Uncrossed cfg c h e ∧ publishAccepted e = true) (ofName topicName cfg.defaultBufferSize) ops :=
    fun before e after hsplit => ⟨hb.along before e after hsplit,
      along_clockForward _ hclock before e after hsplit, huncrossed before e after hsplit,
      hfull e (hsplit ▸ List.mem_append_right _ List.mem_cons_self)⟩
  refine (StepMachine.filter_simulation _ (R := Indistinct cfg c) (Indistinct.init _ _)
    ?_ ?_ hC (StepMachine.along_of_forall_mem _ hthinned)).2
  -- kept operations: both runs do them and answer the consumer alike
  · rintro h s h' t op hi ⟨hb, hclock, huncrossed, hs⟩ ht hkeep
    cases op with
    | publish payload ttlMs expiryNowMs nowMs =>
      exact ⟨hi.publish payload ttlMs expiryNowMs nowMs hb hs ht, rfl⟩
    | pull d maxMessages nowMs steadyNow =>
      obtain rfl : d = c := of_decide_eq_true hkeep
      obtain ⟨hi', hresult⟩ := hi.pull maxMessages nowMs steadyNow (hclock nowMs rfl)
        (huncrossed.own_pull maxMessages nowMs steadyNow rfl)
      refine ⟨hi', ?_⟩
      have hout : TopicResult.pulled (s.pull d maxMessages nowMs steadyNow).2 =
        .pulled (t.pull d maxMessages nowMs steadyNow).2 := congrArg _ hresult
      exact congrArg (fun r => if d = d then some r else none) hout
    | ack d msgId =>
      obtain rfl : d = c := of_decide_eq_true hkeep
      obtain ⟨hi', hresult⟩ := hi.ack msgId
      refine ⟨hi', ?_⟩
      have hout : TopicResult.acked (s.ack d msgId).2 = .acked (t.ack d msgId).2 :=
        congrArg _ hresult
      exact congrArg (fun r => if d = d then some r else none) hout
    | retryPass clock order =>
      exact ⟨hi.retryPass clock order (huncrossed.replaced clock order rfl)
        (huncrossed.same_pass clock order rfl), rfl⟩
    | expirePass nowMs => exact ⟨hi.expirePass nowMs, rfl⟩
  -- deleted operations: only the full run does them
  · rintro h s h' t op hi ⟨hb, hclock, huncrossed, hs⟩ hdrop
    cases op with
    | pull d maxMessages nowMs steadyNow =>
      have hne : d ≠ c := of_decide_eq_false hdrop
      exact ⟨hi.pull_other hne maxMessages nowMs steadyNow
        (huncrossed.other_pull d maxMessages nowMs steadyNow rfl hne), if_neg hne⟩
    | ack d msgId =>
      have hne : d ≠ c := of_decide_eq_false hdrop
      exact ⟨hi.ack_other hne msgId, if_neg hne⟩
    | _ => cases hdrop

/-- A group and a subscriber of one name read a topic with expiring messages. The subscriber's entry
times out, and it gets the message again. -/
theorem isolated_shared_name :
    let c : Consumer := ⟨false, "a"⟩
    let d : Consumer := ⟨true, "a"⟩
    let ops : List TopicOp := [
      .publish [7] 0 5 5, .publish [8] 1 5 5, .pull d 10 6 fun _ => 0, .ack d 1, .ack d 2,
      .pull c 10 6 fun _ => 0, .expirePass 7, .retryPass ⟨10 ^ 10, 7⟩ .canonical,
      .pull c 10 8 fun _ => 10 ^ 10, .ack c 1, .pull d 10 8 fun _ => 10 ^ 10]
    let full := (topic { defaultBufferSize := 128 }).trace (ofName "t" 128) ops
    full.filterMap (answer c) =
      ((topic { defaultBufferSize := 128 }).trace (ofName "t" 128)
        (ops.filter (TopicOp.concerns c))).filterMap (answer c) ∧
      full.map (delivered c 1) =
        [false, false, false, false, false, true, false, false, true, false, false] := by
  intro c d ops full
  refine ⟨isolated { defaultBufferSize := 128 } "t" c ops ⟨by decide, by decide +kernel⟩
    (by decide) (fun before e after hsplit => ?_) (by decide +kernel) (by decide +kernel),
    by decide +kernel⟩
  have howns : (topic { defaultBufferSize := 128 }).Along
      (fun h e => ownsQueue { defaultBufferSize := 128 } c h e = true) (ofName "t" 128) ops := by
    rw [StepMachine.along_iff_getElem]
    decide +kernel
  exact uncrossed_of_ownsQueue (howns before e after hsplit)

/-- The time-out of another consumer hands the consumer a message again that it had
acknowledged; without the other consumer's pull it gets nothing. -/
theorem not_isolated_of_shared_retryQueue :
    let c : Consumer := ⟨false, "a"⟩
    let d : Consumer := ⟨false, "b"⟩
    let ops : List TopicOp := [
      .publish [7] 0 5 5, .pull c 10 6 fun _ => 0, .pull d 10 6 fun _ => 0, .ack c 1,
      .retryPass ⟨10 ^ 10, 7⟩ .canonical, .pull c 10 8 fun _ => 10 ^ 10]
    let full := (topic { defaultBufferSize := 64 }).trace (ofName "t" 64) ops
    let thinned := (topic { defaultBufferSize := 64 }).trace (ofName "t" 64)
      (ops.filter (TopicOp.concerns c))
    (∀ e ∈ full, publishAccepted e = true) ∧ (∀ e ∈ thinned, publishAccepted e = true) ∧
      full.filterMap (answer c) ≠ thinned.filterMap (answer c) := by
  decide +kernel

end TopicData

end ProtoMsgQueue
