import ProtoMsgQueue.Storage.TopicData

/-!
# What the background passes do

The retry pass is a loop over consumers with a loop over pending entries inside. Seen from
outside it handles one list of timed-out entries, in visiting order: the queue is requeued
one by one with the retriable ones, the exhausted ones go to the dead-letter queue, and
all of them leave `pending_acks`. The expiration pass removes expired entries.
-/

namespace ProtoMsgQueue

open UnorderedMap

namespace TopicData

/-- A timed-out pending entry. -/
@[ext]
structure Due where
  /-- The consumer key. -/
  key : String
  /-- The key of the entry. -/
  msgId : MessageId
  /-- The entry. -/
  pending : PendingMessage

/-- Is a timed-out entry put back into the retry queue? -/
def Due.requeued (cfg : StoreConfig) (clock : PassClock) (d : Due) : Bool :=
  !d.pending.msg.isExpired clock.nowMs && d.pending.msg.retryCount < cfg.maxRetryCount.toNat

/-- Does a timed-out entry go to the dead-letter queue? -/
def Due.dead (cfg : StoreConfig) (clock : PassClock) (d : Due) : Bool :=
  !d.pending.msg.isExpired clock.nowMs && cfg.maxRetryCount.toNat ≤ d.pending.msg.retryCount

/-- An entry at the retry limit is not put back. -/
theorem Due.requeued_eq_false_of_dead {cfg : StoreConfig} {clock : PassClock} {d : Due}
    (hd : d.dead cfg clock = true) : d.requeued cfg clock = false := by
  rw [Due.dead, Bool.and_eq_true, decide_eq_true_eq] at hd
  rw [Due.requeued, decide_eq_false hd.2.not_gt, Bool.and_false]

/-- Requeue entries one by one. -/
def requeueAll (queue : List StoredMessage) (dues : List Due) : List StoredMessage :=
  dues.foldl (fun queue d => requeue queue d.msgId d.pending.msg) queue

section Dues

variable (cfg : StoreConfig) (clock : PassClock) (order : PassOrder)

/-- The timed-out entries among those with identifiers `ids`. -/
def dueIn (key : String) (pendingMap : PendingMap) (ids : List MessageId) : List Due :=
  ids.filterMap fun msgId =>
    match pendingMap.lookup msgId with
    | none => none
    | some pending =>
      if timedOut cfg clock.steadyNow pending then some ⟨key, msgId, pending⟩ else none

/-- The timed-out entries of a consumer, in visiting order. -/
def dueOf (key : String) (pendingMap : PendingMap) : List Due :=
  dueIn cfg clock key pendingMap (order.entries.visit pendingMap)

/-- The timed-out entries of a topic, in visiting order. -/
def duePass (td : TopicData) : List Due :=
  (order.consumers.visit td.pendingAcks).flatMap fun key =>
    dueOf cfg clock order key (td.pendingOf key)

end Dues

variable {cfg : StoreConfig} {clock : PassClock} {order : PassOrder}

theorem mem_dueIn {key : String} {pendingMap : PendingMap} {ids : List MessageId} {d : Due} :
    d ∈ dueIn cfg clock key pendingMap ids ↔ d.msgId ∈ ids ∧ d.key = key ∧
      pendingMap.lookup d.msgId = some d.pending ∧ timedOut cfg clock.steadyNow d.pending := by
  rw [dueIn, List.mem_filterMap]
  constructor
  · rintro ⟨msgId, hid, hd⟩
    split at hd
    · cases hd
    · split at hd
      · rename_i hlookup htimed
        rw [Option.some_inj] at hd
        subst hd
        exact ⟨hid, rfl, hlookup, htimed⟩
      · cases hd
  · rintro ⟨hid, rfl, hlookup, htimed⟩
    exact ⟨d.msgId, hid, by simp [hlookup, htimed]⟩

theorem mem_dueOf {key : String} {pendingMap : PendingMap} {d : Due} :
    d ∈ dueOf cfg clock order key pendingMap ↔ d.key = key ∧
      pendingMap.lookup d.msgId = some d.pending ∧ timedOut cfg clock.steadyNow d.pending := by
  rw [dueOf, mem_dueIn, order.entries.mem_visit]
  refine and_iff_right_of_imp fun h => ?_
  rw [← AList.lookup_isSome, h.2.1]
  rfl

theorem mem_duePass {td : TopicData} {d : Due} :
    d ∈ duePass cfg clock order td ↔
      (td.pendingOf d.key).lookup d.msgId = some d.pending ∧
        timedOut cfg clock.steadyNow d.pending := by
  rw [duePass, List.mem_flatMap]
  constructor
  · rintro ⟨key, -, hd⟩
    obtain ⟨rfl, h⟩ := mem_dueOf.mp hd
    exact h
  · intro h
    refine ⟨d.key, ?_, mem_dueOf.mpr ⟨rfl, h⟩⟩
    rw [order.consumers.mem_visit, ← AList.lookup_isSome]
    cases hkey : td.pendingAcks.lookup d.key with
    | some _ => rfl
    | none =>
      have h1 := h.1
      rw [pendingOf, valueAt, hkey] at h1
      cases h1

/-- A consumer has one entry of a message. -/
theorem eq_of_mem_duePass {td : TopicData} {d d' : Due} (hd : d ∈ duePass cfg clock order td)
    (hd' : d' ∈ duePass cfg clock order td) (hkey : d.key = d'.key) (hid : d.msgId = d'.msgId) :
    d = d' := by
  have hp := (mem_duePass.mp hd).1
  have hp' := (mem_duePass.mp hd').1
  rw [hkey, hid, hp', Option.some_inj] at hp
  exact Due.ext hkey hid hp.symm

/-- The timed-out entries come in the order of the consumers and, for one consumer, in that
of its entries. -/
theorem pairwise_duePass {td : TopicData} {r : String → String → Prop}
    {r' : MessageId → MessageId → Prop} (hr : (order.consumers.visit td.pendingAcks).Pairwise r)
    (hr' : ∀ key, (order.entries.visit (td.pendingOf key)).Pairwise r') :
    (duePass cfg clock order td).Pairwise
      fun d d' => r d.key d'.key ∨ d.key = d'.key ∧ r' d.msgId d'.msgId := by
  have hmsgId : ∀ {key id d}, (match (td.pendingOf key).lookup id with
      | none => none
      | some pending => if timedOut cfg clock.steadyNow pending then some (Due.mk key id pending)
        else none) = some d → d.msgId = id := by
    intro key id d hd
    split at hd
    · cases hd
    · split at hd
      · rw [← Option.some_inj.mp hd]
      · cases hd
  have hdue : ∀ key, (dueOf cfg clock order key (td.pendingOf key)).Pairwise
      fun d d' => r' d.msgId d'.msgId := by
    intro key
    rw [dueOf, dueIn, List.pairwise_filterMap]
    refine (hr' key).imp fun hid d hd d' hd' => ?_
    rw [hmsgId hd, hmsgId hd']
    exact hid
  rw [duePass, List.pairwise_flatMap]
  constructor
  · intro key _
    refine (hdue key).imp_of_mem fun hd hd' hid => .inr ⟨?_, hid⟩
    rw [(mem_dueOf.mp hd).1, (mem_dueOf.mp hd').1]
  · refine hr.imp fun hkey d hd d' hd' => .inl ?_
    rw [(mem_dueOf.mp hd).1, (mem_dueOf.mp hd').1]
    exact hkey

/-- No entry is visited twice. -/
theorem nodup_duePass (td : TopicData) : (duePass cfg clock order td).Nodup := by
  refine (pairwise_duePass (order.consumers.nodup_visit td.pendingAcks)
    fun key => order.entries.nodup_visit (td.pendingOf key)).imp fun hne heq => ?_
  subst heq
  rcases hne with hne | ⟨-, hne⟩
  · exact hne rfl
  · exact hne rfl

/-! ### The scan of one consumer -/

/-- One consumer's scan, as a function of its timed-out entries. -/
theorem foldl_scanEntry (key : String) (pendingMap : PendingMap) (ids : List MessageId)
    (st : ScanState) :
    let dues := dueIn cfg clock key pendingMap ids
    ids.foldl (scanEntry cfg clock pendingMap) st =
      { toRemove := st.toRemove ++ dues.map Due.msgId
        retryQueue := requeueAll st.retryQueue (dues.filter (Due.requeued cfg clock))
        dlq := st.dlq ++ (dues.filter (Due.dead cfg clock)).map fun d => d.pending.msg } := by
  induction ids generalizing st with
  | nil => simp [dueIn, requeueAll]
  | cons msgId ids ih =>
    dsimp only at ih ⊢
    rw [List.foldl_cons, ih]
    -- a timed-out entry expires, is dead or is requeued, in this order of checks
    cases hlookup : pendingMap.lookup msgId with
    | none => simp [scanEntry, dueIn, hlookup]
    | some pending =>
      cases htimed : timedOut cfg clock.steadyNow pending with
      | false => simp [scanEntry, dueIn, hlookup, htimed]
      | true =>
        have hdue : dueIn cfg clock key pendingMap (msgId :: ids)
            = ⟨key, msgId, pending⟩ :: dueIn cfg clock key pendingMap ids := by
          simp [dueIn, hlookup, htimed]
        rw [hdue]
        simp only [scanEntry, hlookup, htimed, if_true, retryEntry, List.map_cons]
        cases hexp : pending.msg.isExpired clock.nowMs with
        | true => simp [Due.requeued, Due.dead, hexp]
        | false =>
          by_cases hmax : cfg.maxRetryCount.toNat ≤ pending.msg.retryCount
          · simp [Due.requeued, Due.dead, hexp, hmax]
          · simp [Due.requeued, Due.dead, hexp, hmax, requeueAll, Nat.lt_of_not_le hmax]

theorem removeEntries_valueAt (st : PassState) (key : String) (pendingMap : PendingMap)
    (toRemove : List MessageId) (key' : String) :
    valueAt (removeEntries st key pendingMap toRemove).pendingAcks key' ∅ =
      if key' = key then eraseAll pendingMap toRemove else valueAt st.pendingAcks key' ∅ := by
  split
  · rename_i h
    subst h
    exact valueAt_insert _ _ _ _
  · rename_i h
    exact valueAt_insert_ne _ _ _ h

/-- The keys noted as empty have no entries. -/
def EmptyKeysOk (st : PassState) : Prop :=
  ∀ key ∈ st.emptyConsumerKeys, valueAt st.pendingAcks key ∅ = ∅

theorem EmptyKeysOk.removeEntries {st : PassState} (h : EmptyKeysOk st) {key : String}
    {toRemove : List MessageId} :
    EmptyKeysOk (removeEntries st key (valueAt st.pendingAcks key ∅) toRemove) := by
  intro key' hkey'
  rw [removeEntries_valueAt]
  have hempty : (eraseAll (valueAt st.pendingAcks key ∅) toRemove).keys = [] ∧ key' = key ∨
      key' ∈ st.emptyConsumerKeys := by
    simp only [TopicData.removeEntries] at hkey'
    split at hkey'
    · rename_i hnil
      rcases List.mem_append.mp hkey' with hmem | hmem
      · exact .inr hmem
      · exact .inl ⟨hnil, List.mem_singleton.mp hmem⟩
    · exact .inr hkey'
  split
  · rename_i heq
    subst heq
    rcases hempty with ⟨hnil, -⟩ | hmem
    · exact eq_empty_of_keys_eq_nil hnil
    · have hnone : ∀ id, id ∉ eraseAll (valueAt st.pendingAcks key' ∅) toRemove := by
        intro id hid
        rw [h key' hmem] at hid
        exact AList.notMem_empty id (mem_eraseAll.mp hid).1
      exact eq_empty_of_keys_eq_nil (List.eq_nil_iff_forall_not_mem.mpr hnone)
  · rename_i hne
    rcases hempty with ⟨-, heq⟩ | hmem
    · exact absurd heq hne
    · exact h key' hmem

/-! ### The retry pass -/

section RetryPass

variable (cfg clock order)

/-- One consumer's turn, as a function of its timed-out entries. -/
theorem retryConsumer_eq (st : PassState) {key : String} (hkey : key ∈ st.pendingAcks) :
    let dues := dueOf cfg clock order key (valueAt st.pendingAcks key ∅)
    retryConsumer cfg clock order st key =
      removeEntries
        { st with
          retryQueue := requeueAll st.retryQueue (dues.filter (Due.requeued cfg clock))
          dlq := st.dlq ++ (dues.filter (Due.dead cfg clock)).map fun d => d.pending.msg }
        key (valueAt st.pendingAcks key ∅) (dues.map Due.msgId) := by
  obtain ⟨pendingMap, hlookup⟩ := mem_iff_exists_lookup.mp hkey
  have hvalue : valueAt st.pendingAcks key ∅ = pendingMap := by rw [valueAt, hlookup]; rfl
  simp only [retryConsumer, hlookup, hvalue]
  rw [foldl_scanEntry key]
  simp [dueOf]

/-- The loop of the retry pass over different consumers. -/
private theorem foldl_retryConsumer {keys : List String} (hnodup : keys.Nodup) (st : PassState)
    (hmem : ∀ key ∈ keys, key ∈ st.pendingAcks) (hempty : EmptyKeysOk st) :
    let due := fun key => dueOf cfg clock order key (valueAt st.pendingAcks key ∅)
    let st' := keys.foldl (retryConsumer cfg clock order) st
    (∀ key, valueAt st'.pendingAcks key ∅ =
      if key ∈ keys then eraseAll (valueAt st.pendingAcks key ∅) ((due key).map Due.msgId)
      else valueAt st.pendingAcks key ∅) ∧
    st'.retryQueue =
      requeueAll st.retryQueue ((keys.flatMap due).filter (Due.requeued cfg clock)) ∧
    st'.dlq = st.dlq ++ ((keys.flatMap due).filter (Due.dead cfg clock)).map
      (fun d => d.pending.msg) ∧
    EmptyKeysOk st' := by
  induction keys generalizing st with
  | nil => exact ⟨fun key => rfl, rfl, by simp, hempty⟩
  | cons key keys ih =>
    dsimp only at ih ⊢
    have hkey : key ∉ keys := (List.nodup_cons.mp hnodup).1
    set st₁ := retryConsumer cfg clock order st key with hst₁
    have heq := retryConsumer_eq cfg clock order st
      (hmem key List.mem_cons_self)
    rw [← hst₁] at heq
    have hvalue : ∀ key', valueAt st₁.pendingAcks key' ∅ = if key' = key then
        eraseAll (valueAt st.pendingAcks key ∅)
          ((dueOf cfg clock order key (valueAt st.pendingAcks key ∅)).map Due.msgId)
        else valueAt st.pendingAcks key' ∅ := by
      intro key'
      rw [heq, removeEntries_valueAt]
    have hmem₁ : ∀ key' ∈ keys, key' ∈ st₁.pendingAcks := by
      intro key' hkey'
      rw [heq]
      exact (AList.mem_insert _).mpr (.inr (hmem key' (List.mem_cons_of_mem _ hkey')))
    have hempty₁ : EmptyKeysOk st₁ := by
      rw [heq]
      exact EmptyKeysOk.removeEntries
        (show EmptyKeysOk { st with retryQueue := _, dlq := _ } from hempty)
    obtain ⟨hpending, hqueue, hdlq, hok⟩ :=
      ih (List.nodup_cons.mp hnodup).2 st₁ hmem₁ hempty₁
    -- the turn of one consumer does not change what is due for the others
    have hdues : keys.flatMap (fun key => dueOf cfg clock order key (valueAt st₁.pendingAcks key ∅))
        = keys.flatMap (fun key => dueOf cfg clock order key (valueAt st.pendingAcks key ∅)) := by
      refine List.flatMap_congr fun key' hkey' => ?_
      rw [hvalue, if_neg (by rintro rfl; exact hkey hkey')]
    have hqueue₁ : st₁.retryQueue = requeueAll st.retryQueue
        ((dueOf cfg clock order key (valueAt st.pendingAcks key ∅)).filter
          (Due.requeued cfg clock)) := by
      rw [heq]
      rfl
    have hdlq₁ : st₁.dlq = st.dlq ++ ((dueOf cfg clock order key
        (valueAt st.pendingAcks key ∅)).filter (Due.dead cfg clock)).map
          fun d => d.pending.msg := by
      rw [heq]
      rfl
    rw [List.foldl_cons, ← hst₁]
    refine ⟨fun key' => ?_, ?_, ?_, hok⟩
    · rw [hpending, hvalue]
      rcases eq_or_ne key' key with rfl | hne
      · simp [hkey]
      · simp [hne]
    · rw [hqueue, hdues, hqueue₁, List.flatMap_cons, List.filter_append, requeueAll, requeueAll,
        requeueAll, List.foldl_append]
    · rw [hdlq, hdues, hdlq₁, List.flatMap_cons, List.filter_append, List.map_append,
        List.append_assoc]

/-- **The retry pass.** Every consumer loses its timed-out entries; the retriable ones are
requeued in visiting order and the exhausted ones go to the dead-letter queue. -/
theorem processPendingRetries_spec (td : TopicData) :
    let td' := (td.processPendingRetries cfg clock order).1
    let dues := duePass cfg clock order td
    (∀ key, td'.pendingOf key = eraseAll (td.pendingOf key)
      ((dueOf cfg clock order key (td.pendingOf key)).map Due.msgId)) ∧
    td'.retryQueue = requeueAll td.retryQueue (dues.filter (Due.requeued cfg clock)) ∧
    (td.processPendingRetries cfg clock order).2 =
      (dues.filter (Due.dead cfg clock)).map fun d => d.pending.msg := by
  obtain ⟨hpending, hqueue, hdlq, hempty⟩ := foldl_retryConsumer cfg clock order
    (order.consumers.nodup_visit td.pendingAcks)
    ⟨td.pendingAcks, td.retryQueue, [], []⟩
    (fun key hkey => (order.consumers.mem_visit _ _).mp hkey) (by simp [EmptyKeysOk])
  refine ⟨fun key => ?_, hqueue, hdlq.trans (List.nil_append _)⟩
  refine (valueAt_eraseAll hempty key).trans ((hpending key).trans ?_)
  split
  · rfl
  · rename_i hkey
    -- a consumer that is not visited has no entries
    have hnone : td.pendingAcks.lookup key = none := by
      rw [AList.lookup_eq_none, ← order.consumers.mem_visit]
      exact hkey
    have hnil : td.pendingOf key = ∅ := by rw [pendingOf, valueAt, hnone]; rfl
    have hdue : dueOf cfg clock order key (td.pendingOf key) = [] := by
      rw [List.eq_nil_iff_forall_not_mem]
      intro d hd
      have h := (mem_dueOf.mp hd).2.1
      rw [hnil] at h
      cases h
    rw [hdue]
    rfl

/-- What is pending after a retry pass: what was pending and has not timed out. -/
theorem processPendingRetries_lookup (td : TopicData) (key : String) (msgId : MessageId)
    (p : PendingMessage) :
    ((td.processPendingRetries cfg clock order).1.pendingOf key).lookup msgId = some p ↔
      (td.pendingOf key).lookup msgId = some p ∧ timedOut cfg clock.steadyNow p = false := by
  rw [(processPendingRetries_spec cfg clock order td).1 key, lookup_eraseAll]
  have hmem : msgId ∈ (dueOf cfg clock order key (td.pendingOf key)).map Due.msgId ↔
      ∃ q, (td.pendingOf key).lookup msgId = some q ∧ timedOut cfg clock.steadyNow q := by
    rw [List.mem_map]
    constructor
    · rintro ⟨d, hd, rfl⟩
      exact ⟨d.pending, (mem_dueOf.mp hd).2⟩
    · rintro ⟨q, hq⟩
      exact ⟨⟨key, msgId, q⟩, mem_dueOf.mpr ⟨rfl, hq⟩, rfl⟩
  split
  · rename_i h
    obtain ⟨q, hq, htimed⟩ := hmem.mp h
    constructor
    · nofun
    · rintro ⟨hp, hno⟩
      rw [hq, Option.some_inj] at hp
      rw [hp, hno] at htimed
      cases htimed
  · rename_i h
    refine ⟨fun hp => ⟨hp, ?_⟩, And.left⟩
    rw [Bool.eq_false_iff]
    exact fun htimed => h (hmem.mpr ⟨p, hp, htimed⟩)

/-- The keys without entries are noted. -/
private def Noted (keys : List String) (st : PassState) : Prop :=
  ∀ key ∈ keys, (valueAt st.pendingAcks key ∅).keys = [] → key ∈ st.emptyConsumerKeys

/-- After the loop of the retry pass the visited consumers without entries are noted, and no
other consumer has appeared. -/
private theorem noted_foldl_retryConsumer (keys visited : List String) (st : PassState)
    (hmem : ∀ key ∈ keys, key ∈ st.pendingAcks) (hnoted : Noted visited st) :
    Noted (visited ++ keys) (keys.foldl (retryConsumer cfg clock order) st) ∧
      ∀ key, key ∈ (keys.foldl (retryConsumer cfg clock order) st).pendingAcks ↔
        key ∈ st.pendingAcks := by
  induction keys generalizing st visited with
  | nil => exact ⟨(List.append_nil visited).symm ▸ hnoted, fun _ => Iff.rfl⟩
  | cons key keys ih =>
    have hkey := hmem key List.mem_cons_self
    have heq := retryConsumer_eq cfg clock order st hkey
    have hsame : ∀ key', key' ∈ (retryConsumer cfg clock order st key).pendingAcks ↔
        key' ∈ st.pendingAcks := by
      intro key'
      rw [heq]
      exact (AList.mem_insert _).trans (or_iff_right_of_imp fun h => h ▸ hkey)
    have hnoted₁ : Noted (visited ++ [key]) (retryConsumer cfg clock order st key) := by
      intro key' hkey' hnil
      rw [heq] at hnil ⊢
      rw [removeEntries_valueAt] at hnil
      simp only [removeEntries]
      split at hnil
      · rename_i hsame
        rw [if_pos hnil, hsame]
        exact List.mem_append_right _ (List.mem_singleton_self key)
      · rename_i hne
        have hold : key' ∈ st.emptyConsumerKeys := by
          refine hnoted key' ((List.mem_append.mp hkey').resolve_right fun h => ?_) hnil
          exact hne (List.mem_singleton.mp h)
        split
        · exact List.mem_append_left _ hold
        · exact hold
    obtain ⟨hrest, hkeys⟩ := ih (visited ++ [key]) (retryConsumer cfg clock order st key)
      (fun key' hkey' => (hsame key').mpr (hmem key' (List.mem_cons_of_mem _ hkey'))) hnoted₁
    rw [List.append_assoc, List.singleton_append] at hrest
    exact ⟨hrest, fun key' => (hkeys key').trans (hsame key')⟩

/-- The consumers left after a retry pass are those with a pending entry. -/
theorem mem_pendingAcks_processPendingRetries (td : TopicData) (key : String) :
    key ∈ (td.processPendingRetries cfg clock order).1.pendingAcks ↔
      ((td.processPendingRetries cfg clock order).1.pendingOf key).keys ≠ [] := by
  have hvisit := order.consumers.mem_visit td.pendingAcks
  obtain ⟨hnoted, hkeys⟩ := noted_foldl_retryConsumer cfg clock order
    (order.consumers.visit td.pendingAcks) [] ⟨td.pendingAcks, td.retryQueue, [], []⟩
    (fun key hkey => (hvisit key).mp hkey) (fun _ h => nomatch h)
  constructor
  · intro hmem hnil
    obtain ⟨hloop, hkept⟩ := mem_eraseAll.mp hmem
    refine hkept (hnoted key ((hvisit key).mpr ((hkeys key).mp hloop)) ?_)
    have hvalue : (td.processPendingRetries cfg clock order).1.pendingOf key =
        valueAt ((order.consumers.visit td.pendingAcks).foldl (retryConsumer cfg clock order)
          ⟨td.pendingAcks, td.retryQueue, [], []⟩).pendingAcks key ∅ := by
      rw [pendingOf, valueAt, valueAt]
      refine congrArg (Option.getD · ∅) ((lookup_eraseAll _ _ key).trans (if_neg hkept))
    rw [← hvalue]
    exact hnil
  · intro hne
    by_contra hmem
    refine hne ?_
    rw [pendingOf, valueAt, AList.lookup_eq_none.mpr hmem]
    rfl

/-- A retry pass adds no pending entry. -/
theorem mem_pendingOf_of_processPendingRetries {td : TopicData} {key : String} {msgId : MessageId}
    (h : msgId ∈ (td.processPendingRetries cfg clock order).1.pendingOf key) :
    msgId ∈ td.pendingOf key := by
  obtain ⟨p, hp⟩ := mem_iff_exists_lookup.mp h
  exact mem_iff_exists_lookup.mpr
    ⟨p, ((processPendingRetries_lookup cfg clock order td key msgId p).mp hp).1⟩

end RetryPass

/-- **The requeued queue** holds a record of the last entry of each message, and the records of
messages without an entry. -/
theorem mem_requeueAll_iff {queue : List StoredMessage} {dues : List Due}
    (hdues : ∀ d ∈ dues, d.pending.msg.id = d.msgId) {r : StoredMessage} :
    r ∈ requeueAll queue dues ↔
      (∃ before d after, dues = before ++ d :: after ∧ (∀ d' ∈ after, d'.msgId ≠ d.msgId) ∧
        r = d.pending.msg.retried) ∨
      r ∈ queue ∧ ∀ d ∈ dues, d.msgId ≠ r.id := by
  induction dues using List.reverseRecOn with
  | nil => simp [requeueAll]
  | append_singleton dues d ih =>
    have hd : d.pending.msg.id = d.msgId := hdues d (by simp)
    have ih := ih fun d' hd' => hdues d' (List.mem_append_left _ hd')
    have hlast : requeueAll queue (dues ++ [d]) =
        (requeueAll queue dues).filter (fun m => m.id ≠ d.msgId) ++ [d.pending.msg.retried] := by
      rw [requeueAll, List.foldl_append]
      rfl
    rw [hlast, List.mem_append, List.mem_singleton, List.mem_filter, decide_eq_true_iff, ih]
    constructor
    · rintro (⟨⟨before, d', after, rfl, hafter, rfl⟩ | ⟨hr, hnone⟩, hne⟩ | rfl)
      · have hid : d'.pending.msg.id = d'.msgId := hdues d' (by simp)
        refine Or.inl ⟨before, d', after ++ [d], by simp, fun d'' hd'' => ?_, rfl⟩
        rcases List.mem_append.mp hd'' with hd'' | hd''
        · exact hafter d'' hd''
        · rw [List.mem_singleton.mp hd'', ← hid]
          exact Ne.symm hne
      · refine Or.inr ⟨hr, fun d' hd' => ?_⟩
        rcases List.mem_append.mp hd' with hd' | hd'
        · exact hnone d' hd'
        · rw [List.mem_singleton.mp hd']
          exact Ne.symm hne
      · exact Or.inl ⟨dues, d, [], rfl, nofun, rfl⟩
    · rintro (⟨before, d', after, heq, hafter, rfl⟩ | ⟨hr, hnone⟩)
      · rcases List.eq_nil_or_concat after with rfl | ⟨after, d'', rfl⟩
        · obtain ⟨-, hsame⟩ := List.append_inj' heq rfl
          rw [List.singleton_inj.mp hsame]
          exact Or.inr rfl
        · rw [List.concat_eq_append, ← List.cons_append, ← List.append_assoc] at heq
          obtain ⟨rfl, hsame⟩ := List.append_inj' heq rfl
          obtain rfl := List.singleton_inj.mp hsame
          have hid : d'.pending.msg.id = d'.msgId := hdues d' (by simp)
          refine Or.inl ⟨Or.inl ⟨before, d', after, rfl, fun e he => hafter e (by simp [he]), rfl⟩, ?_⟩
          rw [StoredMessage.retried_id, hid]
          exact Ne.symm (hafter d (by simp))
      · refine Or.inl ⟨Or.inr ⟨hr, fun d' hd' => hnone d' (List.mem_append_left _ hd')⟩, ?_⟩
        exact Ne.symm (hnone d (by simp))

/-- A record of the requeued queue was in it before or comes from an entry. -/
theorem mem_requeueAll {queue : List StoredMessage} {dues : List Due} {m : StoredMessage}
    (h : m ∈ requeueAll queue dues) : m ∈ queue ∨ ∃ d ∈ dues, m = d.pending.msg.retried := by
  induction dues generalizing queue with
  | nil => exact .inl h
  | cons d dues ih =>
    rcases ih h with hm | ⟨d', hd', rfl⟩
    · rcases List.mem_append.mp hm with hm | hm
      · exact .inl (List.mem_filter.mp hm).1
      · exact .inr ⟨d, by simp, by simpa using hm⟩
    · exact .inr ⟨d', List.mem_cons_of_mem _ hd', rfl⟩

/-- The record of a message in the requeued queue comes from one entry, the last of the
message, or was there before. -/
theorem requeueAll_record (queue : List StoredMessage) {dues : List Due}
    (hdues : ∀ d ∈ dues, d.pending.msg.id = d.msgId) (msgId : MessageId) :
    (∃ d ∈ dues, d.msgId = msgId ∧
      ∀ r ∈ requeueAll queue dues, r.id = msgId → r = d.pending.msg.retried) ∨
    ∀ r ∈ requeueAll queue dues, r.id = msgId → r ∈ queue := by
  induction dues using List.reverseRecOn with
  | nil => exact .inr fun r hr _ => hr
  | append_singleton dues d ih =>
    have hd : d.pending.msg.id = d.msgId := hdues d (by simp)
    have hmem : ∀ r ∈ requeueAll queue (dues ++ [d]),
        r ∈ requeueAll queue dues ∧ r.id ≠ d.msgId ∨ r = d.pending.msg.retried := by
      intro r hr
      rw [requeueAll, List.foldl_append, ← requeueAll] at hr
      rcases List.mem_append.mp hr with hr | hr
      · obtain ⟨hr, hne⟩ := List.mem_filter.mp hr
        exact .inl ⟨hr, by simpa using hne⟩
      · exact .inr (List.mem_singleton.mp hr)
    by_cases hid : d.msgId = msgId
    · refine .inl ⟨d, by simp, hid, fun r hr hrid => ?_⟩
      rcases hmem r hr with ⟨-, hne⟩ | heq
      · exact absurd (hrid.trans hid.symm) hne
      · exact heq
    · -- the last entry is of another message
      have hold : ∀ r ∈ requeueAll queue (dues ++ [d]), r.id = msgId → r ∈ requeueAll queue dues := by
        intro r hr hrid
        rcases hmem r hr with ⟨hr, -⟩ | rfl
        · exact hr
        · exact absurd (hd.symm.trans hrid) hid
      rcases ih fun d' hd' => hdues d' (List.mem_append_left _ hd') with ⟨d', hd', hid', hrec⟩ | hrec
      · exact .inl ⟨d', List.mem_append_left _ hd', hid',
          fun r hr hrid => hrec r (hold r hr hrid) hrid⟩
      · exact .inr fun r hr hrid => hrec r (hold r hr hrid) hrid

/-- Requeueing keeps a record of every message that had one, and has one of every entry. -/
theorem exists_mem_requeueAll {queue : List StoredMessage} {dues : List Due}
    (hdues : ∀ d ∈ dues, d.pending.msg.id = d.msgId) {msgId : MessageId}
    (h : (∃ m ∈ queue, m.id = msgId) ∨ ∃ d ∈ dues, d.msgId = msgId) :
    ∃ m ∈ requeueAll queue dues, m.id = msgId := by
  induction dues generalizing queue with
  | nil => simpa [requeueAll] using h
  | cons d dues ih =>
    have hd : d.pending.msg.id = d.msgId := hdues d List.mem_cons_self
    refine ih (fun d' hd' => hdues d' (List.mem_cons_of_mem _ hd')) ?_
    rcases eq_or_ne d.msgId msgId with rfl | hne
    · exact .inl ⟨d.pending.msg.retried, by simp [requeue], hd⟩
    · rcases h with ⟨m, hm, rfl⟩ | ⟨d', hd', rfl⟩
      · refine .inl ⟨m, ?_, rfl⟩
        simp [requeue, hm, Ne.symm hne]
      · refine .inr ⟨d', ?_, rfl⟩
        rcases List.mem_cons.mp hd' with rfl | hd'
        · exact absurd rfl hne
        · exact hd'

/-- The queue has at most one record of a message. -/
theorem nodup_requeueAll {queue : List StoredMessage} {dues : List Due}
    (hdues : ∀ d ∈ dues, d.pending.msg.id = d.msgId) (h : (queue.map StoredMessage.id).Nodup) :
    ((requeueAll queue dues).map StoredMessage.id).Nodup := by
  induction dues generalizing queue with
  | nil => exact h
  | cons d dues ih =>
    refine ih (fun d' hd' => hdues d' (List.mem_cons_of_mem _ hd')) ?_
    have hd : d.pending.msg.id = d.msgId := hdues d List.mem_cons_self
    dsimp only [requeue]
    rw [List.map_append, List.nodup_append]
    refine ⟨h.sublist (List.Sublist.map _ List.filter_sublist), List.nodup_singleton _, ?_⟩
    intro id hid id' hid'
    obtain ⟨m, hm, rfl⟩ := List.mem_map.mp hid
    obtain rfl : id' = d.msgId := by simpa [hd] using hid'
    simpa using (List.mem_filter.mp hm).2

/-! ### The expiration pass -/

theorem mem_expiredEntries {nowMs : UInt64} {pendingMap : PendingMap} {msgId : MessageId} :
    msgId ∈ expiredEntries nowMs pendingMap ↔
      ∃ p, pendingMap.lookup msgId = some p ∧ p.msg.isExpired nowMs = true := by
  rw [expiredEntries, List.mem_filter, ← AList.mem_keys, ← AList.lookup_isSome]
  cases hlookup : pendingMap.lookup msgId <;> simp

/-- The loop of the expiration pass over different consumers. -/
private theorem foldl_expireConsumer (nowMs : UInt64) {keys : List String} (hnodup : keys.Nodup)
    (st : PassState) (hmem : ∀ key ∈ keys, key ∈ st.pendingAcks) (hempty : EmptyKeysOk st) :
    let st' := keys.foldl (expireConsumer nowMs) st
    (∀ key, valueAt st'.pendingAcks key ∅ =
      if key ∈ keys then
        eraseAll (valueAt st.pendingAcks key ∅) (expiredEntries nowMs (valueAt st.pendingAcks key ∅))
      else valueAt st.pendingAcks key ∅) ∧
    EmptyKeysOk st' := by
  induction keys generalizing st with
  | nil => exact ⟨fun key => rfl, hempty⟩
  | cons key keys ih =>
    dsimp only at ih ⊢
    have hkey : key ∉ keys := (List.nodup_cons.mp hnodup).1
    set st₁ := expireConsumer nowMs st key with hst₁
    have heq : st₁ = removeEntries st key (valueAt st.pendingAcks key ∅)
        (expiredEntries nowMs (valueAt st.pendingAcks key ∅)) := by
      obtain ⟨pendingMap, hlookup⟩ :=
        mem_iff_exists_lookup.mp (hmem key List.mem_cons_self)
      rw [hst₁, expireConsumer]
      simp only [hlookup, valueAt, Option.getD_some]
    have hmem₁ : ∀ key' ∈ keys, key' ∈ st₁.pendingAcks := by
      intro key' hkey'
      rw [heq]
      exact (AList.mem_insert _).mpr (.inr (hmem key' (List.mem_cons_of_mem _ hkey')))
    have hempty₁ : EmptyKeysOk st₁ := heq ▸ hempty.removeEntries
    obtain ⟨hpending, hok⟩ := ih (List.nodup_cons.mp hnodup).2 st₁ hmem₁ hempty₁
    rw [List.foldl_cons, ← hst₁]
    refine ⟨fun key' => ?_, hok⟩
    rw [hpending, heq, removeEntries_valueAt]
    rcases eq_or_ne key' key with rfl | hne
    · simp [hkey]
    · simp [hne]

/-- **The expiration pass** on the pending entries. -/
theorem expireTopicMessages_pendingOf (td : TopicData) (nowMs : UInt64) (key : String) :
    (td.expireTopicMessages nowMs).pendingOf key =
      eraseAll (td.pendingOf key) (expiredEntries nowMs (td.pendingOf key)) := by
  obtain ⟨hpending, hempty⟩ := foldl_expireConsumer nowMs td.pendingAcks.keys_nodup
    ⟨td.pendingAcks, td.retryQueue.filter fun m => !m.isExpired nowMs, [], []⟩
    (fun key hkey => AList.mem_keys.mpr hkey) (by simp [EmptyKeysOk])
  refine (valueAt_eraseAll hempty key).trans ((hpending key).trans ?_)
  split
  · rfl
  · rename_i hkey
    have hnone : td.pendingAcks.lookup key = none := AList.lookup_eq_none.mpr hkey
    have hnil : td.pendingOf key = ∅ := by rw [pendingOf, valueAt, hnone]; rfl
    rw [hnil]
    exact hnil

/-- What is pending after an expiration pass: what was pending and has not expired. -/
theorem expireTopicMessages_lookup (td : TopicData) (nowMs : UInt64) (key : String)
    (msgId : MessageId) (p : PendingMessage) :
    ((td.expireTopicMessages nowMs).pendingOf key).lookup msgId = some p ↔
      (td.pendingOf key).lookup msgId = some p ∧ p.msg.isExpired nowMs = false := by
  rw [expireTopicMessages_pendingOf, lookup_eraseAll]
  split
  · rename_i h
    obtain ⟨q, hq, hexp⟩ := mem_expiredEntries.mp h
    constructor
    · nofun
    · rintro ⟨hp, hno⟩
      rw [hq, Option.some_inj] at hp
      rw [hp, hno] at hexp
      cases hexp
  · rename_i h
    refine ⟨fun hp => ⟨hp, ?_⟩, And.left⟩
    rw [Bool.eq_false_iff]
    exact fun hexp => h (mem_expiredEntries.mpr ⟨p, hp, hexp⟩)

/-- An expiration pass adds no pending entry. -/
theorem mem_pendingOf_of_expireTopicMessages {td : TopicData} {nowMs : UInt64} {key : String}
    {msgId : MessageId} (h : msgId ∈ (td.expireTopicMessages nowMs).pendingOf key) :
    msgId ∈ td.pendingOf key := by
  obtain ⟨p, hp⟩ := mem_iff_exists_lookup.mp h
  exact mem_iff_exists_lookup.mpr ⟨p, ((expireTopicMessages_lookup td nowMs key msgId p).mp hp).1⟩

end TopicData

end ProtoMsgQueue
