import ProtoMsgQueue.Network.TcpServer

/-!
# When the server takes a lock twice

`Close` runs the close handler, which takes the lock of the connection map. `SendFrame`
closes the connection when the kernel fails, and `SendTo` and `Broadcast` call it with that
lock held. So a call ends exactly if the kernel fails no send to a registered connection by
`SendTo` or `Broadcast`; then the thread holds the locks it held before. `OnRead` calls the
frame handler under the lock of the read buffer, which no call takes.
-/

namespace ProtoMsgQueue

open LockM

/-- A failed system call closes an open connection, and nothing else does. -/
theorem Connection.closed_sendFrame (c : Connection) (frame : Frame) (answers : List KernelAnswer)
    (hopen : c.closed = false) :
    (c.sendFrame frame answers).conn.closed = c.kernelFails frame answers := by
  have hnot : ¬ c.closed = true := by simp [hopen]
  rw [sendFrame, kernelFails, if_neg hnot, if_neg hnot]
  by_cases hbuffered : c.writeBuffer ≠ [] ∨ ¬ c.useZeroCopy
  · rw [if_pos hbuffered, if_pos hbuffered]
    unfold sendBuffered
    dsimp only
    split
    · rename_i hbig
      rw [hopen, decide_eq_false (not_le.mpr hbig), Bool.false_and]
    · rename_i hfits
      rw [decide_eq_true (not_lt.mp hfits), Bool.true_and]
      split
      · rename_i hloop
        rw [hloop]
        exact hopen
      · rename_i hloop
        rw [hloop]
        rfl
  · -- the gathering send offers the header at least
    have hheader := FrameCodec.encodeHeaderToBuffer_of_length_eq frame
      (List.length_replicate : (List.replicate kFrameHeaderSize (0 : UInt8)).length = _)
    have hpos : 0 < kFrameHeaderSize + frame.payload.length := Nat.add_pos_left (by decide) _
    rw [if_neg hbuffered, if_neg hbuffered]
    unfold sendGathered
    rw [hheader]
    dsimp only
    rw [if_neg (by decide)]
    cases answers.headD .again with
    | sent n =>
      dsimp only
      rcases Nat.eq_zero_or_pos n with rfl | hn
      · rw [Nat.zero_min, if_neg hpos.ne, if_neg (lt_irrefl 0)]
        rfl
      · rw [decide_eq_false hn.ne']
        split
        · exact hopen
        · rw [if_pos (lt_min hn hpos)]
          exact hopen
    | again => exact hopen
    | error => rfl

namespace TcpServer

variable {held : List ServerLock} {st : TcpServer} {id : ConnectionId} {frame : Frame}
  {answers : List KernelAnswer}

/-! ### Closing and sending -/

/-- Closing ends without the lock of the connection map. -/
theorem ends_close (hheld : .connections ∉ held) (id : ConnectionId) (st : TcpServer) :
    ∃ st', Ends (close id) held st () st' := by
  cases hclosed : (st.conns id).closed with
  | true =>
    refine ⟨st, Ends.bind (ends_look _ _ _) ?_⟩
    rw [if_pos hclosed]
    exact ends_pure _ _ _
  | false =>
    refine ⟨(st.setConn id (st.conns id).close).eraseConnection id,
      Ends.bind (ends_look _ _ _) ?_⟩
    rw [if_neg (by simp [hclosed])]
    exact Ends.bind (ends_update _ _ _) (Ends.withLock hheld (ends_update _ _ _))

/-- Closing an open connection fails with the lock of the connection map. -/
theorem fails_close (hheld : .connections ∈ held) (hopen : (st.conns id).closed = false) :
    Fails (close id) held st .connections := by
  refine Ends.bind_fails (ends_look _ _ _) ?_
  rw [if_neg (by simp [hopen])]
  exact Ends.bind_fails (ends_update _ _ _) (fails_withLock hheld)

/-- A send ends if the connection need not be closed, or can be; other connections are
left alone. -/
theorem ends_sendFrame (hwrite : .writeBuffer id ∉ held)
    (hsafe : (st.conns id).kernelFails frame answers = false ∨ .connections ∉ held) :
    ∃ ok st', Ends (sendFrame id frame answers) held st ok st' ∧
      ((st.conns id).kernelFails frame answers = false →
        ∀ id', id' ≠ id → st'.conns id' = st.conns id') := by
  cases hclosed : (st.conns id).closed with
  | true =>
    refine ⟨false, st, Ends.bind (ends_look _ _ _) ?_, fun _ _ _ => rfl⟩
    rw [if_pos hclosed]
    exact ends_pure _ _ _
  | false =>
    have hfails := (st.conns id).closed_sendFrame frame answers hclosed
    cases hkernel : (st.conns id).kernelFails frame answers with
    | false =>
      rw [hkernel] at hfails
      refine ⟨((st.conns id).sendFrame frame answers).ok,
        st.setConn id ((st.conns id).sendFrame frame answers).conn,
        Ends.bind (ends_look _ _ _) ?_, fun _ id' hne => ?_⟩
      · rw [if_neg (by simp [hclosed])]
        refine Ends.withLock hwrite ?_
        rw [if_neg (by simp [hfails])]
        exact Ends.bind (ends_update _ _ _) (ends_pure _ _ _)
      · exact Function.update_of_ne hne _ _
    | true =>
      rw [hkernel] at hfails
      have hheld : ServerLock.connections ∉ held := hsafe.resolve_left (by simp [hkernel])
      have hheld' : ServerLock.connections ∉ ServerLock.writeBuffer id :: held := by simp [hheld]
      obtain ⟨st', hclose⟩ := ends_close hheld' id
        (st.setConn id { ((st.conns id).sendFrame frame answers).conn with closed := false })
      refine ⟨false, st', Ends.bind (ends_look _ _ _) ?_, fun h => by cases h⟩
      rw [if_neg (by simp [hclosed])]
      refine Ends.withLock hwrite ?_
      rw [if_pos hfails]
      exact Ends.bind (ends_update _ _ _) (Ends.bind hclose (ends_pure _ _ _))

/-- A send that fails under the lock of the connection map takes that lock again. -/
theorem fails_sendFrame (hheld : .connections ∈ held) (hwrite : .writeBuffer id ∉ held)
    (hkernel : (st.conns id).kernelFails frame answers = true) :
    Fails (sendFrame id frame answers) held st .connections := by
  have hclosed : (st.conns id).closed = false := by
    by_contra hne
    simp [Connection.kernelFails, hne] at hkernel
  have hfails := (st.conns id).closed_sendFrame frame answers hclosed
  rw [hkernel] at hfails
  refine Ends.bind_fails (ends_look _ _ _) ?_
  rw [if_neg (by simp [hclosed])]
  refine Fails.withLock hwrite ?_
  rw [if_pos hfails]
  refine Ends.bind_fails (ends_update _ _ _) (Fails.bind (fails_close ?_ ?_))
  · exact List.mem_cons_of_mem _ hheld
  · simp [setConn]

/-! ### Broadcasts -/

theorem ends_broadcastLoop {answers : ConnectionId → List KernelAnswer}
    (hwrite : ∀ id, .writeBuffer id ∉ held) {ids : List ConnectionId} (hnodup : ids.Nodup)
    (hsafe : ∀ id ∈ ids, (st.conns id).kernelFails frame (answers id) = false) :
    ∃ st', Ends (broadcastLoop frame answers ids) held st () st' := by
  induction ids generalizing st with
  | nil => exact ⟨st, ends_pure _ _ _⟩
  | cons id ids ih =>
    obtain ⟨hnot, hnodup⟩ := List.nodup_cons.mp hnodup
    have hhead := hsafe id List.mem_cons_self
    obtain ⟨ok, st₁, hsend, hother⟩ := ends_sendFrame (hwrite id) (.inl hhead)
    have hrest : ∀ id' ∈ ids, (st₁.conns id').kernelFails frame (answers id') = false := by
      intro id' hid'
      rw [hother hhead id' fun heq => hnot (heq ▸ hid')]
      exact hsafe id' (List.mem_cons_of_mem _ hid')
    obtain ⟨st', hloop⟩ := ih hnodup hrest
    exact ⟨st', Ends.bind hsend hloop⟩

theorem fails_broadcastLoop {answers : ConnectionId → List KernelAnswer}
    (hheld : .connections ∈ held) (hwrite : ∀ id, .writeBuffer id ∉ held)
    {ids : List ConnectionId} (hnodup : ids.Nodup)
    (hkernel : ∃ id ∈ ids, (st.conns id).kernelFails frame (answers id) = true) :
    Fails (broadcastLoop frame answers ids) held st .connections := by
  induction ids generalizing st with
  | nil =>
    obtain ⟨id, hid, -⟩ := hkernel
    cases hid
  | cons id ids ih =>
    obtain ⟨hnot, hnodup⟩ := List.nodup_cons.mp hnodup
    cases hhead : (st.conns id).kernelFails frame (answers id) with
    | true => exact Fails.bind (fails_sendFrame hheld (hwrite id) hhead)
    | false =>
      -- the failing send is a later one, to a connection that is as it was
      obtain ⟨ok, st₁, hsend, hother⟩ := ends_sendFrame (hwrite id) (.inl hhead)
      refine Ends.bind_fails hsend (ih hnodup ?_)
      obtain ⟨id', hid', hfail⟩ := hkernel
      rcases List.mem_cons.mp hid' with rfl | hid'
      · rw [hhead] at hfail
        cases hfail
      · refine ⟨id', hid', ?_⟩
        rw [hother hhead id' fun heq => hnot (heq ▸ hid')]
        exact hfail

/-! ### Calls -/

/-- The lock of the connection map is not that of a write buffer. -/
theorem writeBuffer_notMem_cons (hwrite : ∀ id, .writeBuffer id ∉ held) (id : ConnectionId) :
    ServerLock.writeBuffer id ∉ .connections :: held := by
  intro hmem
  rcases List.mem_cons.mp hmem with h | h
  · cases h
  · exact hwrite id h

/-- A safe call ends with the locks held before. -/
theorem ends_call (hheld : .connections ∉ held) (hwrite : ∀ id, .writeBuffer id ∉ held)
    {c : ServerCall} (hsafe : st.safe c) : ∃ st', Ends (call c) held st () st' := by
  have hwrite' := writeBuffer_notMem_cons hwrite
  cases c with
  | sendTo id frame answers =>
    by_cases hid : id ∈ st.connections
    · obtain ⟨ok, st', hsend, -⟩ := ends_sendFrame (hwrite' id) (.inl (hsafe hid))
      have hsendTo : Ends (sendTo id frame answers) held st ok st' := by
        refine Ends.withLock hheld (Ends.bind (ends_look _ _ _) ?_)
        rw [if_pos hid]
        exact hsend
      exact ⟨st', Ends.bind hsendTo (ends_pure _ _ _)⟩
    · have hsendTo : Ends (sendTo id frame answers) held st false st := by
        refine Ends.withLock hheld (Ends.bind (ends_look _ _ _) ?_)
        rw [if_neg hid]
        exact ends_pure _ _ _
      exact ⟨st, Ends.bind hsendTo (ends_pure _ _ _)⟩
  | broadcast frame answers =>
    obtain ⟨st', hloop⟩ := ends_broadcastLoop hwrite' st.nodup_connections hsafe
    exact ⟨st', Ends.withLock hheld (Ends.bind (ends_look _ _ _) hloop)⟩
  | sendFrame id frame answers =>
    obtain ⟨ok, st', hsend, -⟩ := ends_sendFrame (hwrite id) (.inr hheld)
    exact ⟨st', Ends.bind hsend (ends_pure _ _ _)⟩
  | close id => exact ends_close hheld id st

/-- Any other call takes the lock of the connection map twice. -/
theorem fails_call (hheld : .connections ∉ held) (hwrite : ∀ id, .writeBuffer id ∉ held)
    {c : ServerCall} (hsafe : ¬ st.safe c) : Fails (call c) held st .connections := by
  have hwrite' := writeBuffer_notMem_cons hwrite
  cases c with
  | sendTo id frame answers =>
    simp only [safe, Classical.not_imp, Bool.not_eq_false] at hsafe
    obtain ⟨hid, hkernel⟩ := hsafe
    refine Fails.bind (Fails.withLock hheld (Ends.bind_fails (ends_look _ _ _) ?_))
    rw [if_pos hid]
    exact fails_sendFrame List.mem_cons_self (hwrite' id) hkernel
  | broadcast frame answers =>
    simp only [safe, not_forall, Bool.not_eq_false, exists_prop] at hsafe
    exact Fails.withLock hheld (Ends.bind_fails (ends_look _ _ _)
      (fails_broadcastLoop List.mem_cons_self hwrite' st.nodup_connections hsafe))
  | sendFrame id frame answers => exact absurd trivial hsafe
  | close id => exact absurd trivial hsafe

/-- Every call is safe in the state in which it is made. -/
def safeAll (held : List ServerLock) : List ServerCall → TcpServer → Prop
  | [], _ => True
  | c :: cs, st => st.safe c ∧ ∀ st', Ends (call c) held st () st' → safeAll held cs st'

theorem ends_callAll (hheld : .connections ∉ held) (hwrite : ∀ id, .writeBuffer id ∉ held)
    {cs : List ServerCall} (hsafe : safeAll held cs st) :
    ∃ st', Ends (callAll cs) held st () st' := by
  induction cs generalizing st with
  | nil => exact ⟨st, ends_pure _ _ _⟩
  | cons c cs ih =>
    obtain ⟨st₁, hcall⟩ := ends_call hheld hwrite hsafe.1
    obtain ⟨st', hrest⟩ := ih (hsafe.2 st₁ hcall)
    exact ⟨st', Ends.bind hcall hrest⟩

theorem fails_callAll (hheld : .connections ∉ held) (hwrite : ∀ id, .writeBuffer id ∉ held)
    {cs : List ServerCall} (hsafe : ¬ safeAll held cs st) :
    Fails (callAll cs) held st .connections := by
  induction cs generalizing st with
  | nil => exact absurd trivial hsafe
  | cons c cs ih =>
    by_cases hc : st.safe c
    · -- the call ends, and a later one fails
      simp only [safeAll, not_and, not_forall] at hsafe
      obtain ⟨st₁, hcall, hrest⟩ := hsafe hc
      exact Ends.bind_fails hcall (ih hrest)
    · exact Fails.bind (fails_call hheld hwrite hc)

/-! ### Reading -/

/-- The loop around `recv` ends: no lock is held. -/
theorem ends_recvLoop (id : ConnectionId) (answers : List RecvAnswer) (st : TcpServer) :
    ∃ goesOn st', Ends (recvLoop id answers) [] st goesOn st' := by
  induction answers generalizing st with
  | nil => exact ⟨true, st, ends_pure _ _ _⟩
  | cons answer answers ih =>
    have hfree : ServerLock.connections ∉ ([] : List ServerLock) := List.not_mem_nil
    obtain ⟨stClosed, hclose⟩ := ends_close hfree id st
    cases answer with
    | received bytes =>
      by_cases hbytes : bytes = []
      · refine ⟨false, stClosed, ?_⟩
        rw [recvLoop, if_pos hbytes]
        exact Ends.bind hclose (ends_pure _ _ _)
      · obtain ⟨goesOn, st', hloop⟩ := ih (receive id bytes st)
        refine ⟨goesOn, st', ?_⟩
        rw [recvLoop, if_neg hbytes]
        exact Ends.bind (Ends.withLock List.not_mem_nil (ends_update _ _ _)) hloop
    | again => exact ⟨true, st, ends_pure _ _ _⟩
    | error => exact ⟨false, stClosed, Ends.bind hclose (ends_pure _ _ _)⟩

end TcpServer

/-- The kernel fails no send to a registered connection that `SendTo` or `Broadcast` makes;
for `OnRead`, none that the frame handler makes through them. -/
def ServerEntry.safe (st : TcpServer) : ServerEntry → Prop
  | .call c => st.safe c
  | .onRead id answers handler =>
    (st.conns id).closed = false → ∀ st', Ends (TcpServer.recvLoop id answers) [] st true st' →
      TcpServer.safeAll [.readBuffer id] (TcpServer.handlerCalls handler (st'.feedFrames id))
        (st'.feed id)

namespace TcpServer

/-- **No lock is taken twice.** Whatever a thread without locks enters, it ends without
taking a lock that it holds, and without a lock left, exactly if the kernel fails no send to
a registered connection that is made by `SendTo` or `Broadcast`. -/
theorem ends_run_iff (st : TcpServer) (entry : ServerEntry) :
    (∃ st', Ends entry.run [] st () st') ↔ entry.safe st := by
  cases entry with
  | call c =>
    constructor
    · rintro ⟨st', h⟩
      by_contra hsafe
      exact h.not_fails (fails_call List.not_mem_nil (fun _ => List.not_mem_nil) hsafe)
    · exact ends_call List.not_mem_nil fun _ => List.not_mem_nil
  | onRead id answers handler =>
    have hnot : ∀ l : ServerLock, l ∉ [] := fun _ => List.not_mem_nil
    have hreading : ServerLock.connections ∉ [ServerLock.readBuffer id] ∧
        ∀ id', ServerLock.writeBuffer id' ∉ [ServerLock.readBuffer id] := by simp
    cases hclosed : (st.conns id).closed with
    | true =>
      refine iff_of_true ⟨st, Ends.bind (ends_look _ _ _) ?_⟩ fun hopen => ?_
      · rw [if_pos hclosed]
        exact ends_pure _ _ _
      · rw [hclosed] at hopen
        cases hopen
    | false =>
      obtain ⟨goesOn, st₁, hloop⟩ := ends_recvLoop id answers st
      cases goesOn with
      | false =>
        -- closed while reading
        refine iff_of_true ⟨st₁, Ends.bind (ends_look _ _ _) ?_⟩ fun _ st' hst' => ?_
        · rw [if_neg (by simp [hclosed])]
          refine Ends.bind hloop ?_
          rw [if_neg Bool.false_ne_true]
          exact ends_pure _ _ _
        · cases (hloop.unique hst').1
      | true =>
        have hsafe : (ServerEntry.onRead id answers handler).safe st ↔
            safeAll [.readBuffer id] (handlerCalls handler (st₁.feedFrames id)) (st₁.feed id) := by
          constructor
          · exact fun h => h hclosed st₁ hloop
          · exact fun h _ st' hst' => (hloop.unique hst').2 ▸ h
        rw [hsafe]
        constructor
        · rintro ⟨st', h⟩
          by_contra hcalls
          refine h.not_fails (l := .connections) (Ends.bind_fails (ends_look _ _ _) ?_)
          rw [if_neg (by simp [hclosed])]
          refine Ends.bind_fails hloop ?_
          rw [if_pos rfl]
          exact Fails.withLock (hnot _) (Ends.bind_fails (ends_look _ _ _)
            (Ends.bind_fails (ends_update _ _ _) (fails_callAll hreading.1 hreading.2 hcalls)))
        · intro hcalls
          obtain ⟨st', hall⟩ := ends_callAll hreading.1 hreading.2 hcalls
          refine ⟨st', Ends.bind (ends_look _ _ _) ?_⟩
          rw [if_neg (by simp [hclosed])]
          refine Ends.bind hloop ?_
          rw [if_pos rfl]
          exact Ends.withLock (hnot _) (Ends.bind (ends_look _ _ _)
            (Ends.bind (ends_update _ _ _) hall))

/-- A server with one open connection. -/
def oneConnection : TcpServer where
  conns := fun _ => {}
  readers := fun _ => {}
  connections := [1]
  nodup_connections := by decide

/-- The kernel fails the send of `SendTo`: the close handler waits for the lock that `SendTo`
holds. -/
theorem not_ends_sendTo_error :
    ¬ ∃ st', Ends (ServerEntry.run (.call (.sendTo 1 {} [.error]))) [] oneConnection () st' := by
  have hsafe : ¬ oneConnection.safe (.sendTo 1 {} [.error]) := fun h =>
    absurd (h (by decide)) (by decide)
  have hfails : Fails (call (.sendTo 1 {} [.error])) [] oneConnection .connections :=
    fails_call List.not_mem_nil (fun _ => List.not_mem_nil) hsafe
  rintro ⟨st', h⟩
  exact h.not_fails hfails

end TcpServer

end ProtoMsgQueue
