import ProtoMsgQueue.Storage.TopicAt

/-!
# Messages handed out besides the pulls

A consumer gets messages by its pulls, and the user of the topic may hand it messages at
publishing time, of which the topic knows nothing. `HandedOnce` is what keeps the two apart:
no identifier was handed out twice, the pushed ones are below the next identifier, the pulled
ones below the consumer's offset. While nothing is queued for a retry, a pull keeps it iff it
reaches no pushed message.
-/

namespace ProtoMsgQueue

namespace TopicData

/-- Does a pull by the consumer get as far as the message? It must be live, in the log or the
ring buffer, not below the offset, and there must be room for the messages before it. -/
def reaches (td : TopicData) (c : Consumer) (maxMessages : UInt32) (nowMs : UInt64)
    (msgId : MessageId) : Bool :=
  let due := dueMessages nowMs (td.startOffset c) td.drainRingBuffer.messageLog
  due.any fun m => m.id = msgId && (due.filter fun m' => m'.id < msgId).length < maxMessages.toNat

/-- What was handed to a consumer: some identifiers by pushes, some by its pulls, none twice. -/
structure HandedOnce (c : Consumer) (pushed pulled : List MessageId) (td : TopicData) : Prop where
  nodup : (pushed ++ pulled).Nodup
  pushed_lt : ∀ id ∈ pushed, id < td.nextMsgId
  pulled_lt : ∀ id ∈ pulled, id < td.offset c
  queue : td.retryQueue = []

theorem handedOnce_ofName (c : Consumer) (topicName : TopicName) (bufferSize : ℕ) :
    HandedOnce c [] [] (ofName topicName bufferSize) :=
  ⟨List.nodup_nil, by simp, by simp, rfl⟩

namespace HandedOnce

variable {c : Consumer} {pushed pulled : List MessageId} {h : List TopicEvent} {td : TopicData}
  {drained waiting : List StoredMessage}

/-- Of the new identifiers only some may have been pushed. -/
theorem of_sublist {new new' : List MessageId} (hh : HandedOnce c (pushed ++ new) pulled td)
    (hsub : new'.Sublist new) : HandedOnce c (pushed ++ new') pulled td := by
  have hsub' : (pushed ++ new').Sublist (pushed ++ new) := hsub.append_left pushed
  exact
    { hh with
      nodup := hh.nodup.sublist (hsub'.append_right pulled)
      pushed_lt := fun id hid => hh.pushed_lt id (hsub'.subset hid) }

/-- A step that gives out no identifier and moves no offset of the consumer. -/
theorem of_eq (hh : HandedOnce c pushed pulled td) {td' : TopicData}
    (hnext : td'.nextMsgId = td.nextMsgId) (hoffset : td'.offset c = td.offset c)
    (hqueue : td'.retryQueue = []) : HandedOnce c pushed pulled td' :=
  ⟨hh.nodup, hnext ▸ hh.pushed_lt, hoffset ▸ hh.pulled_lt, hqueue⟩

/-- The identifier that a publish gives out is new. -/
theorem publish (hh : HandedOnce c pushed pulled td) (hoffset : td.offset c ≤ td.nextMsgId)
    (hwrap : td.nextMsgId + 1 < 2 ^ 64) (payload : Payload) (ttlMs : UInt32)
    (expiryNowMs nowMs : UInt64) : HandedOnce c (pushed ++ [td.nextMsgId]) pulled
      (td.publish payload ttlMs expiryNowMs nowMs).1 := by
  have hnext : (td.publish payload ttlMs expiryNowMs nowMs).1.nextMsgId = td.nextMsgId + 1 :=
    Nat.mod_eq_of_lt hwrap
  refine ⟨?_, ?_, hh.pulled_lt, hh.queue⟩
  · rw [List.append_assoc, List.singleton_append]
    refine (List.perm_middle.nodup_iff).mpr (List.nodup_cons.mpr ⟨fun hmem => ?_, hh.nodup⟩)
    rcases List.mem_append.mp hmem with hmem | hmem
    · exact absurd (hh.pushed_lt _ hmem) (lt_irrefl _)
    · exact absurd ((hh.pulled_lt _ hmem).trans_le hoffset) (lt_irrefl _)
  · intro id hid
    rw [hnext]
    rcases List.mem_append.mp hid with hid | hid
    · exact (hh.pushed_lt id hid).trans (Nat.lt_succ_self _)
    · rw [List.mem_singleton.mp hid]
      exact Nat.lt_succ_self _

/-! ### Pulls -/

section Pull

variable (maxMessages : UInt32) (nowMs : UInt64) (steadyNow : ℕ → ℤ)

/-- With an empty retry queue a pull returns the first due messages of the log. -/
theorem pull_result_eq (hc : Consistent h td drained waiting) (hb : Bounded h)
    (hqueue : td.retryQueue = []) :
    (td.pull c maxMessages nowMs steadyNow).2 =
      (dueMessages nowMs (td.startOffset c) td.drainRingBuffer.messageLog).take
        maxMessages.toNat := by
  have hlog := (hc.pulledLog_spec c maxMessages nowMs steadyNow hb).result_eq
  rw [pull_result, pulledRetry, hqueue]
  exact hlog

/-- In a list sorted by identifier the place of a message is told by those before it. -/
theorem mem_take_iff {l : List StoredMessage} (hl : l.Pairwise (·.id < ·.id)) (n : ℕ)
    (msgId : MessageId) : msgId ∈ (l.take n).map StoredMessage.id ↔
      l.any (fun m => m.id = msgId && (l.filter fun m' => m'.id < msgId).length < n) = true := by
  simp only [List.any_eq_true, Bool.and_eq_true, decide_eq_true_eq, List.mem_map]
  induction l generalizing n with
  | nil => simp
  | cons m l ih =>
    have htail := ih hl.of_cons
    cases n with
    | zero => simp
    | succ n =>
      rw [List.take_succ_cons]
      rcases eq_or_ne m.id msgId with rfl | hne
      · -- the first message has none before it
        have hnone : (m :: l).filter (fun m' => m'.id < m.id) = [] := by
          rw [List.filter_eq_nil_iff]
          intro m' hm'
          rcases List.mem_cons.mp hm' with rfl | hm'
          · simp
          · simpa using (List.rel_of_pairwise_cons hl hm').le
        rw [hnone]
        exact iff_of_true ⟨m, List.mem_cons_self, rfl⟩ ⟨m, List.mem_cons_self, rfl, Nat.succ_pos n⟩
      · -- a later one has the first before it
        have hcount : ∀ m' ∈ l, m'.id = msgId →
            ((m :: l).filter fun m' => m'.id < msgId).length =
              (l.filter fun m' => m'.id < msgId).length + 1 := by
          intro m' hm' hid
          have hlt : m.id < m'.id := List.rel_of_pairwise_cons hl hm'
          rw [List.filter_cons_of_pos (by simpa [hid] using hlt), List.length_cons]
        constructor
        · rintro ⟨m', hm', hid⟩
          rcases List.mem_cons.mp hm' with rfl | hm'
          · exact absurd hid hne
          obtain ⟨m'', hm'', hid', hlt⟩ := (htail n).mp ⟨m', hm', hid⟩
          exact ⟨m'', List.mem_cons_of_mem _ hm'', hid',
            hcount m'' hm'' hid' ▸ Nat.succ_lt_succ hlt⟩
        · rintro ⟨m', hm', hid, hlt⟩
          rcases List.mem_cons.mp hm' with rfl | hm'
          · exact absurd hid hne
          rw [hcount m' hm' hid] at hlt
          obtain ⟨m'', hm'', hid'⟩ := (htail n).mpr ⟨m', hm', hid, Nat.lt_of_succ_lt_succ hlt⟩
          exact ⟨m'', List.mem_cons_of_mem _ hm'', hid'⟩

/-- A pull returns just the messages it reaches. -/
theorem mem_pull_iff (hc : Consistent h td drained waiting) (hb : Bounded h)
    (hqueue : td.retryQueue = []) (msgId : MessageId) :
    msgId ∈ (td.pull c maxMessages nowMs steadyNow).2.map StoredMessage.id ↔
      td.reaches c maxMessages nowMs msgId = true := by
  rw [pull_result_eq maxMessages nowMs steadyNow hc hb hqueue]
  exact mem_take_iff (hc.drain.log_sorted.sublist List.filter_sublist) _ msgId

/-- A pull that reaches no pushed message hands out messages for the first time. -/
theorem pull (hh : HandedOnce c pushed pulled td) (hc : Consistent h td drained waiting)
    (hb : Bounded h)
    (hnew : ∀ id ∈ pushed, td.reaches c maxMessages nowMs id = false) :
    HandedOnce c pushed
      (pulled ++ (td.pull c maxMessages nowMs steadyNow).2.map StoredMessage.id)
      (td.pull c maxMessages nowMs steadyNow).1 := by
  have hresult := pull_result_eq (c := c) maxMessages nowMs steadyNow hc hb hh.queue
  have hpull : Consistent (h ++ [(topic {}).event td (.pull c maxMessages nowMs steadyNow)])
      (td.pull c maxMessages nowMs steadyNow).1 _ _ := hc.pull c maxMessages nowMs steadyNow hb
  -- what is returned lies between the old and the new offset
  have hlow : ∀ id ∈ (td.pull c maxMessages nowMs steadyNow).2.map StoredMessage.id,
      td.offset c ≤ id := by
    intro id hid
    obtain ⟨m, hm, rfl⟩ := List.mem_map.mp hid
    rw [hresult] at hm
    have hdue := (List.mem_filter.mp (List.mem_of_mem_take hm)).2
    rw [Bool.and_eq_true, decide_eq_true_eq] at hdue
    exact (hc.startOffset_le c).1.trans hdue.1
  have hhigh : ∀ id ∈ (td.pull c maxMessages nowMs steadyNow).2.map StoredMessage.id,
      id < (td.pull c maxMessages nowMs steadyNow).1.offset c := by
    intro id hid
    obtain ⟨m, hm, rfl⟩ := List.mem_map.mp hid
    exact hpull.pending_lt c m.id (mem_pendingOf_of_pulled td c maxMessages nowMs steadyNow hm)
  have hgrow : td.offset c ≤ (td.pull c maxMessages nowMs steadyNow).1.offset c := by
    rw [pull_offset]
    exact (hc.startOffset_le c).1.trans
      (hc.pulledLog_spec c maxMessages nowMs steadyNow hb).offset_le
  have hids : ((td.pull c maxMessages nowMs steadyNow).2.map StoredMessage.id).Nodup := by
    rw [hresult]
    have hsub := (List.take_sublist maxMessages.toNat
      (dueMessages nowMs (td.startOffset c) td.drainRingBuffer.messageLog)).trans
        List.filter_sublist
    exact (List.pairwise_map.mpr (hc.drain.log_sorted.sublist hsub)).imp fun hlt => ne_of_lt hlt
  obtain ⟨hpushed, hpulled, hdisjoint⟩ := List.nodup_append.mp hh.nodup
  refine ⟨?_, ?_, ?_, ?_⟩
  · rw [List.nodup_append, List.nodup_append]
    refine ⟨hpushed, ⟨hpulled, hids, ?_⟩, ?_⟩
    · rintro id hid _ hid' rfl
      exact absurd (hh.pulled_lt id hid) (not_lt.mpr (hlow id hid'))
    · rintro id hid _ hid' rfl
      rcases List.mem_append.mp hid' with hid' | hid'
      · exact hdisjoint id hid id hid' rfl
      · rw [mem_pull_iff maxMessages nowMs steadyNow hc hb hh.queue, hnew id hid] at hid'
        cases hid'
  · rw [pull_nextMsgId]
    exact hh.pushed_lt
  · intro id hid
    rcases List.mem_append.mp hid with hid | hid
    · exact (hh.pulled_lt id hid).trans_le hgrow
    · exact hhigh id hid
  · have hsub := retryQueue_pull_sublist td c maxMessages nowMs steadyNow
    rw [hh.queue, List.sublist_nil] at hsub
    exact hsub

end Pull

/-! ### All operations -/

/-- **A step of the topic** in which nothing times out, and in which a pull by the consumer
reaches nothing that was pushed. The identifier it accepts may have been pushed afterwards. -/
theorem step (hh : HandedOnce c pushed pulled td) (hc : Consistent h td drained waiting)
    (hb : Bounded h) (hnext : td.nextMsgId + 1 < 2 ^ 64) {cfg : StoreConfig} (op : TopicOp)
    (hcalm : ∀ clock order, op = .retryPass clock order → duePass cfg clock order td = [])
    (hnew : ∀ maxMessages nowMs steadyNow, op = .pull c maxMessages nowMs steadyNow →
      ∀ id ∈ pushed, td.reaches c maxMessages nowMs id = false) :
    HandedOnce c
      (pushed ++ ((acceptedMessage ((topic cfg).event td op)).map StoredMessage.id).toList)
      (pulled ++ (deliveredBy c ((topic cfg).event td op)).map StoredMessage.id)
      ((topic cfg).step td op).1 := by
  -- all operations but publishes and the consumer's own pulls
  have hother : ∀ {td' : TopicData}, acceptedMessage ((topic cfg).event td op) = none →
      deliveredBy c ((topic cfg).event td op) = [] → ((topic cfg).step td op).1 = td' →
      HandedOnce c pushed pulled td' → HandedOnce c
        (pushed ++ ((acceptedMessage ((topic cfg).event td op)).map StoredMessage.id).toList)
        (pulled ++ (deliveredBy c ((topic cfg).event td op)).map StoredMessage.id)
        ((topic cfg).step td op).1 := by
    intro td' hacc hdel hstep hh'
    rw [hacc, hdel, hstep, Option.map_none, Option.toList_none, List.map_nil, List.append_nil,
      List.append_nil]
    exact hh'
  cases op with
  | publish payload ttlMs expiryNowMs nowMs =>
    have hpub := hh.publish (hc.offset_next c) hnext payload ttlMs expiryNowMs nowMs
    have hdel : deliveredBy c ((topic cfg).event td (.publish payload ttlMs expiryNowMs nowMs)) =
        [] := rfl
    rw [hdel, List.map_nil, List.append_nil]
    refine hpub.of_sublist ?_
    cases hacc : acceptedMessage ((topic cfg).event td
        (.publish payload ttlMs expiryNowMs nowMs)) with
    | none => exact List.nil_sublist _
    | some m =>
      rw [Option.map_some, Option.toList_some, id_of_acceptedMessage hacc]
  | pull c' maxMessages nowMs steadyNow =>
    rcases eq_or_ne c' c with rfl | hne
    · rw [deliveredBy_pull]
      have hacc : acceptedMessage ((topic cfg).event td
          (.pull c' maxMessages nowMs steadyNow)) = none := rfl
      rw [hacc, Option.map_none, Option.toList_none, List.append_nil]
      exact hh.pull maxMessages nowMs steadyNow hc hb (hnew maxMessages nowMs steadyNow rfl)
    · have hsub := retryQueue_pull_sublist td c' maxMessages nowMs steadyNow
      rw [hh.queue, List.sublist_nil] at hsub
      exact hother rfl (deliveredBy_pull_ne td hne maxMessages nowMs steadyNow) rfl
        (hh.of_eq (td.pull_nextMsgId c' maxMessages nowMs steadyNow)
          (td.pull_offset_ne c' maxMessages nowMs steadyNow hne.symm) hsub)
  | ack c' msgId =>
    obtain ⟨pendingAcks, hframe⟩ := ack_frame td c' msgId
    exact hother rfl rfl hframe (hh.of_eq rfl rfl hh.queue)
  | retryPass clock order =>
    refine hother rfl rfl rfl (hh.of_eq rfl rfl ?_)
    change (td.processPendingRetries cfg clock order).1.retryQueue = []
    rw [(processPendingRetries_spec cfg clock order td).2.1, hcalm clock order rfl, hh.queue]
    rfl
  | expirePass nowMs =>
    refine hother rfl rfl rfl (hh.of_eq rfl rfl ?_)
    change td.retryQueue.filter _ = []
    rw [hh.queue, List.filter_nil]

end HandedOnce

end TopicData

/-! ### In the store -/

/-- The identifiers of the messages of a topic among published ones. -/
def idsOn (t : TopicName) (published : List (TopicName × MessageId × Payload)) : List MessageId :=
  (published.filter fun p => p.1 = t).map fun p => p.2.1

theorem idsOn_append (t : TopicName) (published published' : List (TopicName × MessageId × Payload)) :
    idsOn t (published ++ published') = idsOn t published ++ idsOn t published' := by
  rw [idsOn, List.filter_append, List.map_append]
  rfl

/-- The identifiers that an event of the store returned to a consumer of a topic. -/
def StoreEvent.pulledBy (t : TopicName) (c : Consumer) (e : StoreEvent) : List MessageId :=
  match e.input, e.output with
  | .onTopic topic (.pull c' _ _ _), .onTopic (.pulled msgs) =>
    if topic = t ∧ c' = c then msgs.map StoredMessage.id else []
  | _, _ => []

namespace MemoryMessageStore

variable {store : MemoryMessageStore} {n : ℕ} {t : TopicName} {c : Consumer}
  {pushed pulled : List MessageId}

/-- An event that is not about the topic accepts and returns nothing there. -/
theorem idsOn_of_onTopic?_eq_none {t : TopicName} {op : StoreOp} (hop : op.onTopic? t = none)
    (c : Consumer) :
    idsOn t (StoreEvent.published? (messageStore.event store op)).toList = [] ∧
      StoreEvent.pulledBy t c (messageStore.event store op) = [] := by
  cases op with
  | onTopic topic op =>
    have hne : topic ≠ t := by
      rintro rfl
      simp [StoreOp.onTopic?] at hop
    constructor
    · rw [StoreEvent.published?]
      split
      · rename_i hin _
        rw [StepMachine.event_input] at hin
        cases hin
        simp [idsOn, hne]
      · rfl
    · rw [StoreEvent.pulledBy]
      split
      · rename_i hin _
        rw [StepMachine.event_input] at hin
        cases hin
        exact if_neg fun h => hne h.1
      · rfl
  | _ => exact ⟨rfl, rfl⟩

/-- A publish returns no messages. -/
theorem pulledBy_of_isPublish (store : MemoryMessageStore) {op : StoreOp}
    (hop : op.isPublish = true) : StoreEvent.pulledBy t c (messageStore.event store op) = [] := by
  cases op with
  | onTopic topic op =>
    cases op with
    | publish payload ttlMs expiryNowMs nowMs => rfl
    | _ => cases hop
  | _ => cases hop

/-- What an event of the store accepts and returns, from the event of the topic. -/
theorem published?_of_output (store : MemoryMessageStore) {t : TopicName} {top : TopicOp}
    (hout : (messageStore.step store (.onTopic t top)).2 =
      .onTopic ((topic store.config).step (store.topicAt t) top).2) (c : Consumer) :
    idsOn t (StoreEvent.published? (messageStore.event store (.onTopic t top))).toList =
        ((acceptedMessage ((topic store.config).event (store.topicAt t) top)).map
          StoredMessage.id).toList ∧
      StoreEvent.pulledBy t c (messageStore.event store (.onTopic t top)) =
        (deliveredBy c ((topic store.config).event (store.topicAt t) top)).map
          StoredMessage.id := by
  constructor
  · rw [published?_onTopic store hout]
    cases acceptedMessage ((topic store.config).event (store.topicAt t) top) <;> simp [idsOn]
  · cases top with
    | pull c' maxMessages nowMs steadyNow =>
      rw [StoreEvent.pulledBy, StepMachine.event_input, StepMachine.event_output, hout, deliveredBy,
        StepMachine.event_input, StepMachine.event_output]
      simp only [topic, true_and]
      split <;> rfl
    | _ => rfl

/-- **A step of the store** in which nothing of the topic times out or is deleted, and in which
a pull by the consumer reaches nothing that was pushed. -/
theorem handedOnce_step (hh : (store.topicAt t).HandedOnce c pushed pulled)
    (hreached : store.TopicsReached n) (hbuffer : store.config.defaultBufferSize ≤ kMaxPayloadSize)
    (hn : n < 2 ^ 64 - 2) (op : StoreOp) (hdelete : op ≠ .deleteTopic t)
    (hcalm : ∀ clock order, op = .onTopic t (.retryPass clock order) →
      TopicData.duePass store.config clock order (store.topicAt t) = [])
    (hnew : ∀ maxMessages nowMs steadyNow, op = .onTopic t (.pull c maxMessages nowMs steadyNow) →
      ∀ id ∈ pushed, (store.topicAt t).reaches c maxMessages nowMs id = false) :
    ((messageStore.step store op).1.topicAt t).HandedOnce c
      (pushed ++ idsOn t (StoreEvent.published? (messageStore.event store op)).toList)
      (pulled ++ StoreEvent.pulledBy t c (messageStore.event store op)) := by
  -- an operation that does nothing at the topic
  have hquiet : (messageStore.step store op).1.topicAt t = store.topicAt t →
      idsOn t (StoreEvent.published? (messageStore.event store op)).toList = [] →
      StoreEvent.pulledBy t c (messageStore.event store op) = [] →
      ((messageStore.step store op).1.topicAt t).HandedOnce c
        (pushed ++ idsOn t (StoreEvent.published? (messageStore.event store op)).toList)
        (pulled ++ StoreEvent.pulledBy t c (messageStore.event store op)) := by
    intro htopic hpublished hpulled
    rw [htopic, hpublished, hpulled, List.append_nil, List.append_nil]
    exact hh
  rcases hon : op.onTopic? t with - | top
  · obtain ⟨hpublished, hpulled⟩ := idsOn_of_onTopic?_eq_none hon c
    exact hquiet (topicAt_step_other store hon hdelete) hpublished hpulled
  obtain rfl := StoreOp.onTopic?_eq_some.mp hon
  by_cases hmade : t ∈ store.topics ∨ top.isPublish = true
  · obtain ⟨htopic, hout⟩ := topicAt_step_onTopic store hmade
    obtain ⟨hpublished, hpulled⟩ := published?_of_output store hout c
    obtain ⟨hist, drained, waiting, hc, hb⟩ := hreached.consistent hbuffer hn t
    rw [htopic, hpublished, hpulled]
    refine hh.step hc hb ?_ top ?_ ?_
    · have hnext := hc.next_eq
      have hlt := hb.publishes_lt
      grind
    · exact fun clock order heq => hcalm clock order (by rw [heq])
    · exact fun maxMessages nowMs steadyNow heq => hnew maxMessages nowMs steadyNow (by rw [heq])
  · -- the topic is missing and is not made
    have hsame := step_onTopic_unmade hmade
    rw [not_or, Bool.not_eq_true] at hmade
    have hlookup := AList.lookup_eq_none.mpr hmade.1
    refine hquiet (by rw [hsame]) ?_ ?_
    · cases top with
      | publish payload ttlMs expiryNowMs nowMs => cases hmade.2
      | _ => rfl
    · cases top with
      | pull c' maxMessages nowMs steadyNow =>
        simp [StoreEvent.pulledBy, messageStore, MemoryMessageStore.pull, hlookup]
      | _ => rfl

/-- A pull returns what it reaches. -/
theorem mem_pulledBy_of_reaches (hqueue : (store.topicAt t).retryQueue = [])
    (hreached : store.TopicsReached n) (hbuffer : store.config.defaultBufferSize ≤ kMaxPayloadSize)
    (hn : n < 2 ^ 64 - 2) {maxMessages : UInt32} {nowMs : UInt64} {steadyNow : ℕ → ℤ}
    {msgId : MessageId} (hreaches : (store.topicAt t).reaches c maxMessages nowMs msgId = true) :
    msgId ∈ StoreEvent.pulledBy t c
      (messageStore.event store (.onTopic t (.pull c maxMessages nowMs steadyNow))) := by
  have hmade : t ∈ store.topics := by
    by_contra hmissing
    -- nothing is in a new topic
    have hnew : store.topicAt t = store.newTopic t := by
      rw [topicAt, AList.lookup_eq_none.mpr hmissing, Option.getD_none]
    have hlog := (TopicData.consistent_ofName t store.config.defaultBufferSize).drain.log
    rw [hnew, newTopic, TopicData.reaches, List.sublist_nil.mp hlog] at hreaches
    cases hreaches
  obtain ⟨hist, drained, waiting, hc, hb⟩ := hreached.consistent hbuffer hn t
  obtain ⟨-, hout⟩ := topicAt_step_onTopic store (.inl hmade)
  rw [(published?_of_output store hout c).2, deliveredBy_pull]
  exact (TopicData.HandedOnce.mem_pull_iff maxMessages nowMs steadyNow hc hb hqueue msgId).mpr
    hreaches

/-- Publishes one after the other. -/
theorem handedOnce_publishes (hh : (store.topicAt t).HandedOnce c pushed pulled)
    (hreached : store.TopicsReached n) (hbuffer : store.config.defaultBufferSize ≤ kMaxPayloadSize)
    {ops : List StoreOp} (hops : ∀ op ∈ ops, op.isPublish = true)
    (hn : n + ops.length < 2 ^ 64 - 2) :
    ((messageStore.run store ops).topicAt t).HandedOnce c
      (pushed ++ idsOn t ((messageStore.trace store ops).filterMap StoreEvent.published?))
      pulled := by
  induction ops generalizing store n pushed with
  | nil =>
    rw [StepMachine.trace_nil, List.filterMap_nil, idsOn, List.filter_nil, List.map_nil,
      List.append_nil]
    exact hh
  | cons op ops ih =>
    have hop := hops op List.mem_cons_self
    rw [List.length_cons] at hn
    have hfirst := handedOnce_step hh hreached hbuffer (by omega) op
      (by rintro rfl; cases hop) (by rintro clock order rfl; cases hop)
      (by rintro maxMessages nowMs steadyNow rfl; cases hop)
    rw [pulledBy_of_isPublish store hop, List.append_nil] at hfirst
    have hrest := ih hfirst (hreached.step op) ((config_step store op).symm ▸ hbuffer)
      (fun op' hop' => hops op' (List.mem_cons_of_mem _ hop')) (by rw [if_pos hop]; omega)
    have htrace : messageStore.trace store (op :: ops) = messageStore.trace store [op] ++
        messageStore.trace (messageStore.step store op).1 ops := rfl
    rw [htrace, List.filterMap_append, published?_trace_singleton, idsOn_append,
      ← List.append_assoc]
    exact hrest

end MemoryMessageStore

end ProtoMsgQueue
