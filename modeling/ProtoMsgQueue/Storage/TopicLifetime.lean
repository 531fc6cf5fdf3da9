import ProtoMsgQueue.Storage.SharedStore

/-!
# Topics that are in use while they are deleted

`NoDangling` is the invariant: every handle a thread still has to work on belongs to the
object that is registered under its name. A step keeps it exactly if it does not delete a
topic in use. Then every use finds its object, and the shared store does what the store of
atomic operations does.
-/

namespace ProtoMsgQueue

open UnorderedMap

namespace SharedStore

/-- No thread holds a handle to an object that is gone. -/
def NoDangling (st : SharedStore) : Prop :=
  ∀ thread running, st.calls.lookup thread = some running →
    ∀ h ∈ running.handles, st.isRegistered h = true

/-- The identities belong to the topics of the store. -/
def Tracks (st : SharedStore) : Prop := ∀ topic, topic ∈ st.registered ↔ topic ∈ st.store.topics

section Steps

variable (st : SharedStore)

theorem isRegistered_eq_true {h : Handle} :
    st.isRegistered h = true ↔ st.registered.lookup h.topic = some h.instanceId :=
  decide_eq_true_iff

/-- A handle found in the map is registered. -/
theorem isRegistered_of_handle? {topic : TopicName} {h : Handle} (hh : st.handle? topic = some h) :
    st.isRegistered h = true := by
  obtain ⟨id, hid, rfl⟩ := Option.map_eq_some_iff.mp hh
  exact st.isRegistered_eq_true.mpr hid

/-- Making a topic: nothing happens, or an unused name gets a new object. -/
theorem createTopic_cases (topic : TopicName) :
    (st.createTopic topic).1 = st ∧ topic ∈ st.store.topics ∨
      topic ∉ st.store.topics ∧ (st.createTopic topic).1 =
        { st with
          store := (st.store.createTopic topic).1
          registered := st.registered.insert topic st.nextInstance
          nextInstance := st.nextInstance + 1 } := by
  by_cases hmem : topic ∈ st.store.topics
  · left
    simp [createTopic, MemoryMessageStore.createTopic, hmem]
  · right
    simp [createTopic, MemoryMessageStore.createTopic, hmem]

/-- A lookup makes a topic or changes nothing. -/
theorem lookup_fst (call : TopicCall) :
    (st.lookup call).1 = st ∨ ∃ topic, (st.lookup call).1 = (st.createTopic topic).1 := by
  cases call with
  | publish topic payload ttlMs => exact .inr ⟨topic, rfl⟩
  | _ => exact .inl rfl

/-- The handles a lookup finds are registered. -/
theorem isRegistered_of_mem_lookup {call : TopicCall} {h : Handle}
    (hh : h ∈ (st.lookup call).2) : (st.lookup call).1.isRegistered h = true := by
  cases call with
  | publish topic payload ttlMs =>
    exact isRegistered_of_handle? _ (Option.mem_toList.mp hh)
  | pull topic c maxMessages => exact isRegistered_of_handle? _ (Option.mem_toList.mp hh)
  | ack topic c msgId => exact isRegistered_of_handle? _ (Option.mem_toList.mp hh)
  | retryLoop order =>
    obtain ⟨topic, -, hh⟩ := List.mem_filterMap.mp hh
    exact isRegistered_of_handle? _ hh
  | expirationLoop order =>
    obtain ⟨topic, -, hh⟩ := List.mem_filterMap.mp hh
    exact isRegistered_of_handle? _ hh

/-- A lookup starts no call by itself. -/
theorem lookup_calls (call : TopicCall) : (st.lookup call).1.calls = st.calls := by
  rcases st.lookup_fst call with heq | ⟨topic, heq⟩
  · rw [heq]
  · rw [heq]
    rcases st.createTopic_cases topic with ⟨heq, -⟩ | ⟨-, heq⟩ <;> rw [heq]

/-- A thread that is in no call makes one. -/
theorem step_enter (thread : ThreadId) (call : TopicCall) :
    (sharedStore.step st (.enter thread call)).1 =
      if thread ∈ st.calls then st
      else if (st.lookup call).2 = [] then (st.lookup call).1
      else
        { (st.lookup call).1 with
          calls := st.calls.insert thread ⟨call, (st.lookup call).2⟩ } := by
  have hcalls := st.lookup_calls call
  simp only [sharedStore]
  split
  · rfl
  · rcases hlook : st.lookup call with ⟨st', - | ⟨h, handles⟩⟩
    · rfl
    · rw [hlook] at hcalls
      simp only at hcalls
      simp [hcalls]

/-- A thread with nothing left to work on. -/
theorem step_use_idle {thread : ThreadId}
    (hidle : ∀ call h handles, st.calls.lookup thread ≠ some ⟨call, h :: handles⟩)
    (readings : Readings) : sharedStore.step st (.use thread readings) = (st, .running) := by
  simp only [sharedStore]
  rcases hlook : st.calls.lookup thread with - | ⟨call, - | ⟨h, handles⟩⟩
  · rfl
  · rfl
  · exact absurd hlook (hidle call h handles)

/-- The calls after a thread worked on its first handle. -/
def callsAfter (thread : ThreadId) (call : TopicCall) (handles : List Handle) :
    UnorderedMap ThreadId RunningCall :=
  if handles = [] then st.calls.erase thread else st.calls.insert thread ⟨call, handles⟩

/-- A thread works on its first handle. -/
theorem step_use {thread : ThreadId} {call : TopicCall} {h : Handle} {handles : List Handle}
    (hlook : st.calls.lookup thread = some ⟨call, h :: handles⟩) (readings : Readings) :
    (sharedStore.step st (.use thread readings)).1 =
      { st with
        store :=
          if st.isRegistered h then
            (messageStore.step st.store (.onTopic h.topic (call.op readings))).1
          else st.store
        calls := st.callsAfter thread call handles } := by
  simp only [sharedStore, hlook, callsAfter]
  split <;> rfl

/-- The other calls go on, and this one has the remaining handles. -/
theorem lookup_callsAfter {thread : ThreadId} {call : TopicCall} {handles : List Handle}
    {thread' : ThreadId} {running : RunningCall}
    (h : (st.callsAfter thread call handles).lookup thread' = some running) :
    thread' = thread ∧ running.handles = handles ∨ st.calls.lookup thread' = some running := by
  rw [callsAfter] at h
  rcases eq_or_ne thread' thread with rfl | hne
  · left
    split at h
    · rw [AList.lookup_erase] at h
      cases h
    · rw [AList.lookup_insert, Option.some_inj] at h
      exact ⟨rfl, by rw [← h]⟩
  · right
    split at h
    · rwa [AList.lookup_erase_ne hne] at h
    · rwa [AList.lookup_insert_ne hne] at h

/-- A step that deletes no topic in use leaves the handles to the topic's object unheld. -/
theorem deletesInUse_deleteTopic_iff {topic : TopicName} :
    deletesInUse st (.deleteTopic topic) = true ↔
      ∃ thread running, st.calls.lookup thread = some running ∧
        ∃ h ∈ running.handles, h.topic = topic ∧ st.isRegistered h = true := by
  simp only [deletesInUse, List.any_eq_true, Bool.and_eq_true, decide_eq_true_eq]
  constructor
  · rintro ⟨⟨thread, running⟩, he, hh⟩
    exact ⟨thread, running, AList.mem_lookup_iff.mpr he, hh⟩
  · rintro ⟨thread, running, hlook, hh⟩
    exact ⟨⟨thread, running⟩, AList.mem_lookup_iff.mp hlook, hh⟩

end Steps

/-! ### The invariants -/

section Invariants

variable {st : SharedStore}

theorem Tracks.createTopic (ht : Tracks st) (topic : TopicName) :
    Tracks (st.createTopic topic).1 := by
  rcases st.createTopic_cases topic with ⟨heq, -⟩ | ⟨hnew, heq⟩
  · rw [heq]
    exact ht
  · rw [heq]
    intro topic'
    have hstore : (st.store.createTopic topic).1.topics =
        st.store.topics.insert topic (st.store.newTopic topic) := by
      rw [MemoryMessageStore.createTopic, if_neg hnew]
    change topic' ∈ st.registered.insert topic st.nextInstance ↔
      topic' ∈ (st.store.createTopic topic).1.topics
    rw [hstore, AList.mem_insert, AList.mem_insert, ht topic']

/-- The identities belong to the topics of the store after every step. -/
theorem Tracks.step (ht : Tracks st) (op : SharedStoreOp) : Tracks (sharedStore.step st op).1 := by
  cases op with
  | enter thread call =>
    have hlook : Tracks (st.lookup call).1 := by
      rcases st.lookup_fst call with heq | ⟨topic, heq⟩
      · rw [heq]
        exact ht
      · rw [heq]
        exact ht.createTopic topic
    rw [step_enter]
    split
    · exact ht
    · split
      · exact hlook
      · exact hlook
  | use thread readings =>
    by_cases hidle : ∀ call h handles, st.calls.lookup thread ≠ some ⟨call, h :: handles⟩
    · rw [step_use_idle st hidle]
      exact ht
    · push Not at hidle
      obtain ⟨call, h, handles, hlook⟩ := hidle
      rw [step_use st hlook]
      intro topic
      change topic ∈ st.registered ↔ topic ∈ MemoryMessageStore.topics (ite _ _ _)
      rw [ht topic]
      split
      · -- the topic of the handle stays in the store
        rename_i hreg
        have hmem : h.topic ∈ st.store.topics := by
          rw [← ht, mem_iff_exists_lookup]
          exact ⟨_, st.isRegistered_eq_true.mp hreg⟩
        obtain ⟨td, htd⟩ := mem_iff_exists_lookup.mp hmem
        rw [(MemoryMessageStore.step_onTopic htd _).1, AList.mem_insert]
        constructor
        · exact .inr
        · rintro (rfl | hin)
          · exact hmem
          · exact hin
      · rfl
  | createTopic topic => exact ht.createTopic topic
  | deleteTopic topic =>
    intro topic'
    change topic' ∈ st.registered.erase topic ↔ topic' ∈ (st.store.deleteTopic topic).1.topics
    rw [AList.mem_erase, ht topic', MemoryMessageStore.deleteTopic]
    split
    · rw [AList.mem_erase]
    · rename_i hnot
      constructor
      · exact fun hin => hin.2
      · rintro hin
        exact ⟨fun heq => hnot (heq ▸ hin), hin⟩

/-- A topic that is made takes the name of no handle that is held. -/
theorem NoDangling.createTopic (hn : NoDangling st) (ht : Tracks st) (topic : TopicName) :
    NoDangling (st.createTopic topic).1 := by
  rcases st.createTopic_cases topic with ⟨heq, -⟩ | ⟨hnew, heq⟩
  · rw [heq]
    exact hn
  · rw [heq]
    intro thread running hlook h hh
    have hreg := st.isRegistered_eq_true.mp (hn thread running hlook h hh)
    have hne : h.topic ≠ topic := by
      rintro rfl
      exact hnew ((ht _).mp (mem_iff_exists_lookup.mpr ⟨_, hreg⟩))
    rw [isRegistered_eq_true]
    exact (AList.lookup_insert_ne hne).trans hreg

/-- **One step.** No handle dangles after a step exactly if the step deletes no topic in
use. -/
theorem NoDangling.step_iff (hn : NoDangling st) (ht : Tracks st) (op : SharedStoreOp) :
    NoDangling (sharedStore.step st op).1 ↔ deletesInUse st op = false := by
  cases op with
  | enter thread call =>
    refine iff_of_true ?_ rfl
    have hlook : NoDangling (st.lookup call).1 := by
      rcases st.lookup_fst call with heq | ⟨topic, heq⟩
      · rw [heq]
        exact hn
      · rw [heq]
        exact hn.createTopic ht topic
    rw [step_enter]
    split
    · exact hn
    · split
      · exact hlook
      · intro thread' running hrun h hh
        change (st.calls.insert thread _).lookup thread' = some running at hrun
        rcases eq_or_ne thread' thread with rfl | hne
        · rw [AList.lookup_insert, Option.some_inj] at hrun
          rw [← hrun] at hh
          exact st.isRegistered_of_mem_lookup hh
        · rw [AList.lookup_insert_ne hne, ← st.lookup_calls call] at hrun
          exact hlook thread' running hrun h hh
  | use thread readings =>
    refine iff_of_true ?_ rfl
    by_cases hidle : ∀ call h handles, st.calls.lookup thread ≠ some ⟨call, h :: handles⟩
    · rw [step_use_idle st hidle]
      exact hn
    · push Not at hidle
      obtain ⟨call, h, handles, hlook⟩ := hidle
      rw [step_use st hlook]
      intro thread' running hrun h' hh'
      rcases st.lookup_callsAfter hrun with ⟨-, heq⟩ | hold
      · exact hn thread _ hlook h' (List.mem_cons_of_mem _ (heq ▸ hh'))
      · exact hn thread' running hold h' hh'
  | createTopic topic => exact iff_of_true (hn.createTopic ht topic) rfl
  | deleteTopic topic =>
    rw [← Bool.not_eq_true, deletesInUse_deleteTopic_iff]
    constructor
    · rintro hn' ⟨thread, running, hlook, h, hh, rfl, -⟩
      -- the name of a handle that is held has no object any more
      have hreg := (isRegistered_eq_true _).mp (hn' thread running hlook h hh)
      change (st.registered.erase h.topic).lookup h.topic = _ at hreg
      rw [AList.lookup_erase] at hreg
      cases hreg
    · intro hfree thread running hlook h hh
      have hreg := hn thread running hlook h hh
      have hne : h.topic ≠ topic := fun heq => hfree ⟨thread, running, hlook, h, hh, heq, hreg⟩
      rw [isRegistered_eq_true] at hreg ⊢
      exact (AList.lookup_erase_ne hne).trans hreg

/-- Without dangling handles a step uses a registered object, if any. -/
theorem NoDangling.usesRegistered (hn : NoDangling st) (op : SharedStoreOp) :
    usesRegistered (sharedStore.event st op) = true := by
  simp only [ProtoMsgQueue.usesRegistered, StepMachine.event_pre, StepMachine.event_input,
    Option.all_eq_true]
  intro h hh
  cases op with
  | use thread readings =>
    obtain ⟨running, hlook, hhead⟩ := Option.bind_eq_some_iff.mp hh
    exact hn thread running hlook h (List.mem_of_mem_head? hhead)
  | _ => cases hh

/-- Making a topic does to the store what `CreateTopic` does. -/
theorem createTopic_store (st : SharedStore) (topic : TopicName) :
    (st.createTopic topic).1.store = (messageStore.step st.store (.createTopic topic)).1 := by
  rcases st.createTopic_cases topic with ⟨heq, hmem⟩ | ⟨-, heq⟩
  · rw [heq]
    simp only [messageStore, MemoryMessageStore.createTopic, if_pos hmem]
  · rw [heq]
    rfl

/-- **Refinement of one step.** A step without dangling handles is an operation of the
store of atomic operations, or none. -/
theorem NoDangling.step_store (hn : NoDangling st) (op : SharedStoreOp) :
    (sharedStore.step st op).1.store =
      messageStore.run st.store (atomicOp (sharedStore.event st op)).toList := by
  cases op with
  | enter thread call =>
    have hstep : (sharedStore.step st (.enter thread call)).1.store =
        if thread ∈ st.calls then st.store else (st.lookup call).1.store := by
      rw [step_enter]
      split
      · rfl
      · split <;> rfl
    rw [hstep]
    cases call with
    | publish topic payload ttlMs =>
      have hop : atomicOp (sharedStore.event st (.enter thread (.publish topic payload ttlMs))) =
          if thread ∈ st.calls then none else some (.createTopic topic) := rfl
      rw [hop]
      split
      · rfl
      · exact st.createTopic_store topic
    | _ => exact ite_self _
  | use thread readings =>
    by_cases hidle : ∀ call h handles, st.calls.lookup thread ≠ some ⟨call, h :: handles⟩
    · have hnone : atomicOp (sharedStore.event st (.use thread readings)) = none := by
        rcases hlook : st.calls.lookup thread with - | ⟨call, - | ⟨h, handles⟩⟩
        · simp only [atomicOp, StepMachine.event_input, StepMachine.event_pre, hlook]
        · simp only [atomicOp, StepMachine.event_input, StepMachine.event_pre, hlook]
        · exact absurd hlook (hidle call h handles)
      rw [step_use_idle st hidle, hnone]
      rfl
    · push Not at hidle
      obtain ⟨call, h, handles, hlook⟩ := hidle
      have hreg : st.isRegistered h = true := hn thread _ hlook h List.mem_cons_self
      have hop : atomicOp (sharedStore.event st (.use thread readings)) =
          some (.onTopic h.topic (call.op readings)) := by
        simp only [atomicOp, StepMachine.event_input, StepMachine.event_pre, hlook]
      rw [step_use st hlook, hop, hreg]
      rfl
  | createTopic topic => exact st.createTopic_store topic
  | deleteTopic topic => rfl

end Invariants

/-! ### Whole runs -/

theorem noDangling_ofConfig (config : StoreConfig) : NoDangling (ofConfig config) := by
  intro thread running hlook
  cases hlook

theorem tracks_ofConfig (config : StoreConfig) : Tracks (ofConfig config) := fun _ => Iff.rfl

/-- **When handles dangle.** In a run no thread ever holds a handle to an object that is
gone exactly if no step deletes a topic in use. -/
theorem noDangling_iff (config : StoreConfig) (ops : List SharedStoreOp) :
    sharedStore.Always (fun _ st => NoDangling st) (ofConfig config) ops ↔
      sharedStore.Along (fun _ e => deletesInUse e.pre e.input = false) (ofConfig config) ops :=
  sharedStore.always_iff_along (J := fun _ st => Tracks st) (A := fun _ _ => True)
    (tracks_ofConfig config) (noDangling_ofConfig config) (fun _ _ op ht _ => ht.step op)
    (fun _ _ op ht _ hn => hn.step_iff ht op) fun _ _ _ _ => trivial

/-- **Refinement.** If no step deletes a topic in use, the store is what it is after the
atomic operations in the order of the uses. -/
theorem store_run (config : StoreConfig) {ops : List SharedStoreOp}
    (hC : sharedStore.Along (fun _ e => deletesInUse e.pre e.input = false) (ofConfig config) ops) :
    (sharedStore.run (ofConfig config) ops).store =
      messageStore.run (MemoryMessageStore.ofConfig config)
        ((sharedStore.trace (ofConfig config) ops).filterMap atomicOp) := by
  refine (sharedStore.history_induction_along
    (P := fun h st => (Tracks st ∧ NoDangling st) ∧
      st.store = messageStore.run (MemoryMessageStore.ofConfig config) (h.filterMap atomicOp))
    ⟨⟨tracks_ofConfig config, noDangling_ofConfig config⟩, rfl⟩ ?_ hC).2
  rintro h st op ⟨⟨ht, hn⟩, hstore⟩ hdel
  refine ⟨⟨ht.step op, (hn.step_iff ht op).mpr hdel⟩, ?_⟩
  rw [hn.step_store op, hstore, ← StepMachine.run_append, List.filterMap_append]
  cases hop : atomicOp (sharedStore.event st op) <;> simp [hop]

/-- **Uses of topics.** If no topic is deleted while a thread holds a handle to its object,
every step that reads or changes an object works on the one registered under its name. -/
theorem uses_registered (config : StoreConfig) {ops : List SharedStoreOp}
    (hC : sharedStore.Along (fun _ e => deletesInUse e.pre e.input = false) (ofConfig config) ops) :
    ∀ e ∈ sharedStore.trace (ofConfig config) ops, usesRegistered e = true := by
  intro e he
  obtain ⟨before, after, rfl, heq⟩ := sharedStore.mem_trace he
  have hn := (noDangling_iff config before).mpr (StepMachine.Along.of_append _ hC)
  rw [heq]
  exact hn.run.usesRegistered e.input

/-- A pull overlaps with the cleanup of another topic. -/
def disjointRun : List SharedStoreOp :=
  [.createTopic "t", .createTopic "u", .enter 0 (.publish "t" [1] 0),
    .use 0 ⟨0, 0, fun _ => 0, .canonical⟩, .enter 0 (.pull "t" ⟨false, "c"⟩ 10),
    .deleteTopic "u", .createTopic "u", .use 0 ⟨0, 0, fun _ => 0, .canonical⟩]

theorem uses_registered_disjointRun :
    (sharedStore.trace (ofConfig { defaultBufferSize := 64 }) disjointRun).getLast?.map (·.output) =
      some (.used (.onTopic (.pulled [{ id := 1, payload := [1], timestamp := 0 }]))) ∧
    ∀ e ∈ sharedStore.trace (ofConfig { defaultBufferSize := 64 }) disjointRun,
      usesRegistered e = true :=
  ⟨by decide +kernel, uses_registered { defaultBufferSize := 64 }
    (sharedStore.along_iff_getElem.mpr (by decide +kernel))⟩

/-- The retry loop collects a topic, which is cleaned up before the loop works on it. -/
theorem not_uses_registered_cleanup :
    ¬ ∀ e ∈ sharedStore.trace (ofConfig { defaultBufferSize := 64 })
        [.createTopic "t", .enter 0 (.retryLoop (.entries _ _)), .deleteTopic "t", .createTopic "t",
          .use 0 ⟨0, 0, fun _ => 0, .canonical⟩],
      usesRegistered e = true := by
  decide +kernel

end SharedStore

end ProtoMsgQueue
