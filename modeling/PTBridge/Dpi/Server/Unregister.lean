import PTBridge.Dpi.Client.Transport
import PTBridge.Dpi.Server.Wellformed

/-!
# What `unregisterClient` removes

The table of the server is keyed by an id that clients choose, and `unregisterClient` deletes
whatever stands under the id. Three places call it: the deferred call of a reader goroutine, a
handler whose `MsgData` write failed, and the handler of `MsgClose`.

- `OwnerPrecise` says of a run that a removal takes away the entry of the connection that it is
  for, and no other.
- `Settled` says that nothing of the earlier connections with an id is under way any more that
  could still remove the id.
- `Latest` is the invariant: if an id is registered again only when it is settled, then whoever can
  still remove an id has found its newest connection.
- `reuse_lets_reader_remove` says that the condition is needed: after any other registration the
  old reader can end, and then removes the new entry.
-/

namespace PTBridge.Dpi

open PTBridge.Stream PTBridge.Container PTBridge.Transition

variable {cfg : Config} {s s' : Server} {a : Act} {connID : UInt32} {c : Nat}

/-! ## The property -/

/-- The step takes the entry of connection `c` out of the table. -/
def Removes (s s' : Server) (c : Nat) : Prop :=
  ∃ connID, s.clients connID = some c ∧ s'.clients connID = none

/-- In a run, what is removed for a connection is its own entry. -/
structure OwnerPrecise (cfg : Config) (acts : List Act) : Prop where
  /-- The end of the reader goroutine of connection `c`. -/
  reader : ∀ (pre post : List Act) (s s' : Server) (c d : Nat),
    acts = pre ++ .reader c .unregister :: post → exec (step cfg) .new pre = some s →
    step cfg s (.reader c .unregister) = some s' → Removes s s' d → d = c
  /-- A handler that closes the remote of connection `c`, because a write to it failed or because
  it was asked to, and goes on from there. -/
  handler : ∀ (pre mid post : List Act) (s s₁ s' : Server) (h : Nat) (connID : UInt32) (c d : Nat),
    acts = pre ++ (mid ++ .handler h .unregister :: post) → exec (step cfg) .new pre = some s →
    s.pcOf h = .closeRemote connID c → exec (step cfg) s mid = some s₁ →
    step cfg s₁ (.handler h .unregister) = some s' → Removes s₁ s' d → d = c

/-! ## The condition -/

/-- The handler has looked the id up, or is past that, and may still remove it. -/
def Pc.removes (connID : UInt32) : Pc → Bool
  | .dataWrite id _ _ => id == connID
  | .closeRemote id _ => id == connID
  | .unregister id => id == connID
  | _ => false

/-- Nobody is left who could remove the id on behalf of an earlier connection: the reader
goroutines of its connections have ended, and no handler is between its lookup and its removal. -/
structure Server.Settled (s : Server) (connID : UInt32) : Prop where
  readers : ∀ cc ∈ s.conns, cc.connID = connID → cc.reader = .exited
  handlers : ∀ hd ∈ s.handlers, hd.pc.removes connID = false

instance (s : Server) (connID : UInt32) : Decidable (s.Settled connID) :=
  decidable_of_iff ((∀ cc ∈ s.conns, cc.connID = connID → cc.reader = .exited) ∧
    ∀ hd ∈ s.handlers, hd.pc.removes connID = false)
    ⟨fun h => ⟨h.1, h.2⟩, fun h => ⟨h.1, h.2⟩⟩

/-- A connection is registered only under an id that is settled. -/
def RegistersSettled (s : Server) : Act → Prop
  | .handler h (.dial true) =>
      match s.pcOf h with
      | .dial connID _ => s.Settled connID
      | _ => True
  | _ => True

instance (s : Server) : ∀ a, Decidable (RegistersSettled s a)
  | .handler h (.dial true) =>
      match hpc : s.pcOf h with
      | .dial connID _ =>
          decidable_of_iff (s.Settled connID) (by simp only [RegistersSettled, hpc])
      | .dataLookup _ _ | .dataWrite _ _ _ | .closeLookup _ | .closeRemote _ _ | .unregister _
      | .downLookup _ | .downLoop _ _ | .downWrite _ _ _ | .done =>
          isTrue (by simp only [RegistersSettled, hpc])
  | .handler _ (.dial false) | .handler _ .lookup | .handler _ (.write _ _)
  | .handler _ .closeRemote | .handler _ .unregister | .handler _ .receive
  | .handler _ (.emit _ _) | .handler _ .cancel | .handler _ .stop | .request _ | .reader _ _
  | .shutdown => isTrue trivial

/-- The step registers a connection under the id. -/
def Dials (s : Server) (a : Act) (connID : UInt32) : Prop :=
  ∃ h req, a = .handler h (.dial true) ∧ s.pcOf h = .dial connID req

theorem RegistersSettled.settled (hok : RegistersSettled s a) (hd : Dials s a connID) :
    s.Settled connID := by
  obtain ⟨h, req, rfl, hpc⟩ := hd
  simpa only [RegistersSettled, hpc] using hok

/-! ## The newest connection of an id -/

/-- No connection with the id was registered after connection `c`. -/
def Server.Newest (s : Server) (connID : UInt32) (c : Nat) : Prop :=
  ∀ (d : Nat) (dd : ClientConn), s.conns[d]? = some dd → dd.connID = connID → d ≤ c

/-- Only a registration under the id makes another connection its newest. -/
theorem Server.Newest.step (hnew : s.Newest connID c) (hs : Step cfg s a s')
    (hno : ¬ Dials s a connID) : s'.Newest connID c := by
  intro d dd' hdd' hid
  rcases conn_origin hs hdd' with ⟨dd, hdd, hev⟩ | ⟨h, hd, req, ha, hh, hpc, -, -⟩
  · apply hnew d dd hdd
    rw [← hev.connID, hid]
  · -- the connection was just dialed, under this id
    apply absurd _ hno
    refine ⟨h, req, ha, ?_⟩
    rw [← hid, ← hpc]
    simp only [Server.pcOf, hh]

/-- A connection that was just registered is the newest of its id, and has its entry. -/
theorem dials_newest (hs : Step cfg s a s') (hdials : Dials s a connID) :
    s'.Newest connID s.conns.length ∧ s'.clients connID = some s.conns.length := by
  obtain ⟨h, req, rfl, hpc⟩ := hdials
  obtain ⟨hd, hh, hpc'⟩ := Server.pcOf_eq hpc nofun
  cases hs with
  | dialed hg hpc₁ =>
    rw [hh] at hg
    cases hg
    rw [hpc'] at hpc₁
    cases hpc₁
    constructor
    · intro d dd hdd _
      rcases pool_snoc_some hdd with hold | ⟨rfl, -⟩
      · exact Nat.le_of_lt (List.getElem?_eq_some_iff.mp hold).1
      · exact Nat.le_refl _
    · simp

/-- A reader goroutine that has ended stays so. -/
theorem reader_exited_step {cc cc' : ClientConn} (hs : Step cfg s a s')
    (hcc : s.conns[c]? = some cc) (hcc' : s'.conns[c]? = some cc') (hend : cc.reader = .exited) :
    cc'.reader = .exited := by
  -- every step that replaces the connection keeps its reader, or moves a reader that has not ended
  have hset : ∀ {d : Nat} {dd dd' : ClientConn}, s.conns[d]? = some dd →
      (s.conns.set d dd')[c]? = some cc' → (dd.reader = .exited → dd'.reader = .exited) →
      cc'.reader = .exited := by
    intro d dd dd' hdd hget hkeep
    rcases pool_set_some hget with ⟨rfl, rfl⟩ | ⟨-, hold⟩
    · apply hkeep
      rw [hcc] at hdd
      cases hdd
      exact hend
    · rw [hcc] at hold
      cases hold
      exact hend
  have hsame : s'.conns = s.conns → cc'.reader = .exited := by
    intro heq
    rw [heq, hcc] at hcc'
    cases hcc'
    exact hend
  cases hs with
  | dialed _ _ =>
    rw [Server.setHandler_conns, Server.registerClient_conns, pool_snoc_old hcc] at hcc'
    cases hcc'
    exact hend
  | wrote _ _ hdd _ => exact hset hdd hcc' id
  | writeFailed _ _ hdd _ => exact hset hdd hcc' id
  | closedRemote _ _ hdd => exact hset hdd hcc' id
  | downReceived _ _ hdd _ _ => exact hset hdd hcc' id
  | readEmpty hdd _ _ => exact hset hdd hcc' id
  | readData hdd hpc _ _ _ => exact hset hdd hcc' fun h => by rw [hpc] at h; cases h
  | readErr hdd hpc => exact hset hdd hcc' fun h => by rw [hpc] at h; cases h
  | sent hdd hpc _ _ _ _ => exact hset hdd hcc' fun h => by rw [hpc] at h; cases h
  | sendStopped hdd hpc _ => exact hset hdd hcc' fun h => by rw [hpc] at h; cases h
  | closedCh hdd hpc => exact hset hdd hcc' fun h => by rw [hpc] at h; cases h
  | closedOwn hdd hpc => exact hset hdd hcc' fun h => by rw [hpc] at h; cases h
  | unregisteredOwn hdd hpc => exact hset hdd hcc' fun _ => rfl
  | _ => exact hsame rfl

/-! ## Handlers that have found a connection -/

/-- The connection a handler has found and may remove. -/
def Pc.holds : Pc → Option (UInt32 × Nat)
  | .dataWrite connID _ c => some (connID, c)
  | .closeRemote connID c => some (connID, c)
  | _ => none

theorem Pc.target_of_holds {pc : Pc} (h : pc.holds = some (connID, c)) :
    pc.target = some (connID, c) := by
  cases pc <;> simp_all [Pc.holds, Pc.target]

theorem Pc.removes_of_holds {pc : Pc} (h : pc.holds = some (connID, c)) :
    pc.removes connID = true := by
  cases pc <;> simp_all [Pc.holds, Pc.removes]

/-- A handler has found the connection before the step, or finds it in the table now. -/
theorem holds_step {h : Nat} {hd' : Handler} (hs : Step cfg s a s')
    (hh' : s'.handlers[h]? = some hd') (ht : hd'.pc.holds = some (connID, c)) :
    (∃ hd, s.handlers[h]? = some hd ∧ hd.pc.holds = some (connID, c)) ∨
      s.clients connID = some c := by
  rcases target_step hs hh' (Pc.target_of_holds ht) with ⟨hd, hh, htarget⟩ | hc
  · by_cases hreq : ∀ r, a ≠ .request r
    · rcases handler_origin hs hreq hh' with hold | ⟨m, gd, -, hg, hnext⟩
      · exact Or.inl ⟨hd', hold, ht⟩
      · -- a handler with a target gets here only from its write
        refine Or.inl ⟨gd, hg, ?_⟩
        rw [hh] at hg
        cases hg
        generalize hd.pc = pc at hnext htarget
        generalize hd'.pc = pc' at hnext ht
        cases hnext <;> simp_all [Pc.holds, Pc.target]
    · obtain ⟨r, rfl⟩ := not_forall_not.mp hreq
      cases hs
      rcases pool_snoc_some hh' with hold | ⟨-, rfl⟩
      · exact Or.inl ⟨hd', hold, ht⟩
      · have hnone := start_target cfg r
        rw [Pc.target_of_holds ht] at hnone
        cases hnone
  · exact Or.inr hc

/-! ## The invariant -/

/-- The table, the readers and the handlers that can still remove an id have its newest
connection. -/
structure Latest (s : Server) : Prop where
  table : ∀ (connID : UInt32) (c : Nat), s.clients connID = some c → s.Newest connID c
  reader : ∀ (c : Nat) (cc : ClientConn), s.conns[c]? = some cc → cc.reader ≠ .exited →
    s.Newest cc.connID c
  handler : ∀ (h : Nat) (hd : Handler) (connID : UInt32) (c : Nat), s.handlers[h]? = some hd →
    hd.pc.holds = some (connID, c) → s.Newest connID c

theorem latest_new : Latest .new where
  table _ _ h := by cases h
  reader _ _ h := by cases h
  handler _ _ _ _ h := by cases h

/-- While an id is being registered, no handler has found one of its connections. -/
theorem holds_none_of_dials {h : Nat} {hd' : Handler} (hs : Step cfg s a s')
    (hok : RegistersSettled s a) (hdials : Dials s a connID) (hh' : s'.handlers[h]? = some hd') :
    hd'.pc.holds ≠ some (connID, c) := by
  intro ht
  have hsettled := hok.settled hdials
  obtain ⟨g, req, rfl, hpc⟩ := hdials
  rcases handler_origin hs nofun hh' with hold | ⟨m, hd, hm, hh, hnext⟩
  · have hno := hsettled.handlers hd' (List.mem_of_getElem? hold)
    rw [Pc.removes_of_holds ht] at hno
    cases hno
  · -- the dialing handler itself replies and returns
    cases hm
    simp only [Server.pcOf, hh] at hpc
    rw [hpc] at hnext
    generalize hd'.pc = pc' at hnext ht
    cases hnext
    cases ht

theorem Latest.step (hl : Latest s) (hok : RegistersSettled s a) (hs : Step cfg s a s') :
    Latest s' where
  table connID c hc := by
    by_cases hdials : Dials s a connID
    · obtain ⟨hnew, hentry⟩ := dials_newest hs hdials
      rw [hentry] at hc
      cases hc
      exact hnew
    · rcases clients_step hs hc with hold | ⟨h, req, hlen, hnew⟩
      · exact (hl.table connID c hold).step hs hdials
      · -- an entry that was not there is that of a registration
        apply absurd _ hdials
        rcases conn_origin hs hnew with ⟨cc, hcc, -⟩ | ⟨g, hd, req', ha, hg, hpc, -, -⟩
        · have hlt := (List.getElem?_eq_some_iff.mp hcc).1
          omega
        · refine ⟨g, req', ha, ?_⟩
          simp only [Server.pcOf, hg, hpc]
          rfl
  reader c cc' hcc' hrun := by
    by_cases hdials : Dials s a cc'.connID
    · rcases conn_origin hs hcc' with ⟨cc, hcc, hev⟩ | ⟨h, hd, req, ha, hg, hpc, rfl, -⟩
      · -- the readers of the older connections have ended
        apply absurd _ hrun
        apply reader_exited_step hs hcc hcc'
        apply (hok.settled hdials).readers cc (List.mem_of_getElem? hcc)
        exact hev.connID.symm
      · exact (dials_newest hs hdials).1
    · rcases conn_origin hs hcc' with ⟨cc, hcc, hev⟩ | ⟨h, hd, req, ha, hg, hpc, -, -⟩
      · have hrun' : cc.reader ≠ .exited := fun hend => hrun (reader_exited_step hs hcc hcc' hend)
        have hnew := hl.reader c cc hcc hrun'
        rw [← hev.connID] at hnew
        exact hnew.step hs hdials
      · apply absurd _ hdials
        refine ⟨h, req, ha, ?_⟩
        simp only [Server.pcOf, hg, hpc]
  handler h hd' connID c hh' ht := by
    by_cases hdials : Dials s a connID
    · exact absurd ht (holds_none_of_dials hs hok hdials hh')
    · rcases holds_step hs hh' ht with ⟨hd, hh, hold⟩ | hc
      · exact (hl.handler h hd connID c hh hold).step hs hdials
      · exact (hl.table connID c hc).step hs hdials

theorem latest_run {acts : List Act} (hok : Meets (step cfg) RegistersSettled .new acts)
    (hrun : exec (step cfg) .new acts = some s) : Latest s :=
  exec_invariant (fun _ _ _ hl hr hs => hl.step hr (step_cases hs)) acts .new s latest_new hok hrun

/-! ## Removals -/

/-- The newest connection of an id is the one with the entry, if there is an entry. -/
theorem entry_of_newest {d : Nat} (hwf : WellFormed s) (hl : Latest s) (hnew : s.Newest connID c)
    (hold : s.Holds connID c) (hd : s.clients connID = some d) : d = c := by
  obtain ⟨dd, hdd, hid⟩ := hwf.table connID d hd
  obtain ⟨cc, hcc, hid'⟩ := hold
  exact Nat.le_antisymm (hnew d dd hdd hid) (hl.table connID d hd c cc hcc hid')

/-- A handler stays where it is, or its own step follows the control flow. -/
theorem pcOf_step {h : Nat} {hd : Handler} (hs : Step cfg s a s') (hh : s.handlers[h]? = some hd) :
    ∃ hd', s'.handlers[h]? = some hd' ∧ (hd' = hd ∨ (hd.pc ≠ .done ∧ hd.pc.Next hd'.pc)) := by
  by_cases hown : ∃ m, a = .handler h m
  · obtain ⟨m, rfl⟩ := hown
    obtain ⟨gd, gd', hg, hset, hnext⟩ := handler_next hs
    rw [hh] at hg
    cases hg
    refine ⟨gd', by rw [hset]; exact pool_set_self hh, Or.inr ⟨?_, hnext⟩⟩
    intro hdone
    have hstep := hs.enabled
    rw [step_done hh hdone m] at hstep
    cases hstep
  · exact ⟨hd, handler_frame hs (fun m hm => hown ⟨m, hm⟩) hh, Or.inl rfl⟩

/-- The handler is on its way from closing the remote of `c` to the removal, or it has returned. -/
def Removing (h : Nat) (connID : UInt32) (c : Nat) (s : Server) : Prop :=
  ∃ hd, s.handlers[h]? = some hd ∧
    (((hd.pc = .closeRemote connID c ∨ hd.pc = .unregister connID) ∧ s.Newest connID c ∧
      s.Holds connID c) ∨ hd.pc = .done)

theorem Removing.step {h : Nat} (hr : Removing h connID c s) (hok : RegistersSettled s a)
    (hs : Step cfg s a s') : Removing h connID c s' := by
  obtain ⟨hd, hh, hwhere⟩ := hr
  obtain ⟨hd', hh', hmove⟩ := pcOf_step hs hh
  refine ⟨hd', hh', ?_⟩
  rcases hwhere with ⟨hpc, hnew, hold⟩ | hdone
  · -- nobody registers the id meanwhile
    have hno : ¬ Dials s a connID := by
      intro hdials
      have hrem := (hok.settled hdials).handlers hd (List.mem_of_getElem? hh)
      rcases hpc with hpc | hpc <;> simp [hpc, Pc.removes] at hrem
    have hkept := And.intro (hnew.step hs hno) (hold.step hs)
    rcases hmove with rfl | ⟨-, hnext⟩
    · exact Or.inl ⟨hpc, hkept⟩
    · generalize hd'.pc = pc' at hnext ⊢
      rcases hpc with hpc | hpc
      all_goals
        rw [hpc] at hnext
        cases hnext
      · exact Or.inr rfl
      · exact Or.inl ⟨Or.inr rfl, hkept⟩
      · exact Or.inr rfl
  · rcases hmove with rfl | ⟨hrun, -⟩
    · exact Or.inr hdone
    · exact absurd hdone hrun

/-- If an id is registered again only when it is settled, then the end of a reader goroutine and a
failed write remove the entry of their own connection, or none. -/
theorem unregister_owner_precise (cfg : Config) (acts : List Act)
    (hok : Meets (step cfg) RegistersSettled .new acts) : OwnerPrecise cfg acts where
  reader pre post s s' c d hacts hpre hstep hrem := by
    subst hacts
    have hl := latest_run (meets_append.mp hok).1 hpre
    obtain ⟨id, hentry, hgone⟩ := hrem
    cases step_cases hstep with
    | @unregisteredOwn _ cc hcc hpc =>
      -- the reader has not ended, so its connection is the newest of its id
      have hnew : s.Newest cc.connID c := hl.reader c cc hcc (by rw [hpc]; nofun)
      have hid : id = cc.connID := by
        by_contra hne
        simp [Function.update_of_ne hne, hentry] at hgone
      subst hid
      exact entry_of_newest (wellFormed_run hpre) hl hnew ⟨cc, hcc, rfl⟩ hentry
  handler pre mid post s s₁ s' h connID c d hacts hpre hpc hmid hstep hrem := by
    subst hacts
    obtain ⟨hokpre, hokrest⟩ := meets_append.mp hok
    obtain ⟨hokmid, -⟩ := meets_append.mp (hokrest s hpre)
    have hpre' : exec (step cfg) .new (pre ++ mid) = some s₁ :=
      exec_append_some.mpr ⟨s, hpre, hmid⟩
    obtain ⟨hd, hh, hclose⟩ := Server.pcOf_eq hpc nofun
    have hstart : Removing h connID c s := by
      refine ⟨hd, hh, Or.inl ⟨Or.inl hclose, ?_, ?_⟩⟩
      · exact (latest_run hokpre hpre).handler h hd connID c hh (by rw [hclose]; rfl)
      · exact (wellFormed_run hpre).target h hd connID c hh (by rw [hclose]; rfl)
    obtain ⟨hd₁, hh₁, hwhere⟩ := exec_invariant (I := Removing h connID c)
      (fun _ _ _ hr ho hs => hr.step ho (step_cases hs)) mid s s₁ hstart hokmid hmid
    obtain ⟨id, hentry, hgone⟩ := hrem
    cases step_cases hstep with
    | @unregistered _ gd id' hg hpc' =>
      rw [hh₁] at hg
      cases hg
      rcases hwhere with ⟨hat, hnew, hold⟩ | hdone
      · obtain rfl : id' = connID := by
          rcases hat with hat | hat <;> rw [hpc'] at hat <;> cases hat
          rfl
        have hid : id = id' := by
          by_contra hne
          simp [Function.update_of_ne hne, hentry] at hgone
        subst hid
        have hl := latest_run (meets_append.mpr ⟨hokpre, fun t ht => by
          rw [hpre] at ht; cases ht; exact hokmid⟩) hpre'
        exact entry_of_newest (wellFormed_run hpre') hl hnew hold hentry
      · rw [hpc'] at hdone
        cases hdone

/-- A client connects once more under id 1, as handler 1. -/
def reconnectOne : List Act :=
  [.request (connectRequest Config.plain.encryptor .zero 1 ⟨[116], [97]⟩), .handler 1 (.dial true)]

/-- The reader goroutine of connection `c` sees the end of file and ends. -/
def readerEnds (c : Nat) : List Act :=
  [.reader c (.read [] (some .eof)), .reader c .closeCh, .reader c .closeRemote,
    .reader c .unregister]

/-- The id is used again after the first connection has ended. -/
theorem unregister_owner_precise_sequential :
    (exec (step .plain) .new (connectOne ++ readerEnds 0 ++ reconnectOne ++ readerEnds 1)).isSome ∧
      OwnerPrecise .plain (connectOne ++ readerEnds 0 ++ reconnectOne ++ readerEnds 1) :=
  ⟨by decide +kernel, unregister_owner_precise .plain _ (by decide +kernel)⟩

/-- Two `Connect`s carry id 1. When the remote of the first one ends, its reader goroutine removes
the entry of the second. -/
theorem old_reader_removes_entry :
    ¬ OwnerPrecise .plain (connectOne ++ reconnectOne ++ readerEnds 0) := by
  intro hprecise
  have hrun : (exec (step .plain) .new (connectOne ++ reconnectOne ++ (readerEnds 0).take 3)).any
      (fun s => (step .plain s (.reader 0 .unregister)).any fun s' =>
        decide (s.clients 1 = some 1 ∧ s'.clients 1 = none)) = true := by decide +kernel
  obtain ⟨s, hs, hat⟩ := (Option.any_eq_true _ _).mp hrun
  obtain ⟨s', hs', hentry⟩ := (Option.any_eq_true _ _).mp hat
  have hremoves : Removes s s' 1 := ⟨1, of_decide_eq_true hentry⟩
  exact absurd (hprecise.reader _ [] s s' 0 1 rfl hs hs' hremoves) (by decide)

/-! ## The condition is needed -/

/-- The reader goroutine of connection `c` can get to its deferred removal of the id, and until
then nothing happens to the table. -/
def ReaderCanEnd (cfg : Config) (s : Server) (c : Nat) (connID : UInt32) : Prop :=
  ∃ acts s₁ cc₁, exec (step cfg) s acts = some s₁ ∧ s₁.clients = s.clients ∧
    s₁.conns[c]? = some cc₁ ∧ cc₁.connID = connID ∧ cc₁.reader = .unregistering

theorem ReaderCanEnd.of_step (hs : Step cfg s a s') (hclients : s'.clients = s.clients)
    (h : ReaderCanEnd cfg s' c connID) : ReaderCanEnd cfg s c connID := by
  obtain ⟨acts, s₁, cc₁, hacts, hc₁, hrest⟩ := h
  exact ⟨a :: acts, s₁, cc₁, exec_cons_some.mpr ⟨s', hs.enabled, hacts⟩, hc₁.trans hclients, hrest⟩

section Ending

variable {cc : ClientConn}

theorem readerCanEnd_closingRemote (hcc : s.conns[c]? = some cc) (hid : cc.connID = connID)
    (hpc : cc.reader = .closingRemote) : ReaderCanEnd cfg s c connID := by
  apply ReaderCanEnd.of_step (.closedOwn hcc hpc) rfl
  exact ⟨[], _, _, rfl, rfl, pool_set_self hcc, hid, rfl⟩

theorem readerCanEnd_closing (hcc : s.conns[c]? = some cc) (hid : cc.connID = connID)
    (hpc : cc.reader = .closing) : ReaderCanEnd cfg s c connID := by
  apply ReaderCanEnd.of_step (.closedCh hcc hpc) rfl
  exact readerCanEnd_closingRemote (pool_set_self hcc) hid rfl

theorem readerCanEnd_stopped {data : Bytes} {err : Option ReadError} (hcc : s.conns[c]? = some cc)
    (hid : cc.connID = connID) (hpc : cc.reader = .sending data err) (hstop : s.stopped = true) :
    ReaderCanEnd cfg s c connID := by
  apply ReaderCanEnd.of_step (.sendStopped hcc hpc hstop) rfl
  exact readerCanEnd_closingRemote (pool_set_self hcc) hid rfl

theorem readerCanEnd_of_running (hcc : s.conns[c]? = some cc) (hid : cc.connID = connID)
    (hrun : cc.reader ≠ .exited) : ReaderCanEnd cfg s c connID := by
  cases hpc : cc.reader with
  | reading =>
    have heof : Step cfg s (.reader c (.read [] (some .eof)))
        (s.setConn c { cc with reader := .closing }) := .readErr hcc hpc
    apply ReaderCanEnd.of_step heof rfl
    exact readerCanEnd_closing (pool_set_self hcc) hid rfl
  | sending data err =>
    -- it may wait for a receiver for ever, but the server can be stopped
    cases hstop : s.stopped with
    | true => exact readerCanEnd_stopped hcc hid hpc hstop
    | false =>
      apply ReaderCanEnd.of_step (.shutdown hstop) rfl
      exact readerCanEnd_stopped (s := { s with stopped := true }) hcc hid hpc rfl
  | closing => exact readerCanEnd_closing hcc hid hpc
  | closingRemote => exact readerCanEnd_closingRemote hcc hid hpc
  | unregistering => exact ⟨[], s, cc, rfl, rfl, hcc, hid, hpc⟩
  | exited => exact absurd hpc hrun

end Ending

/-- An id that is registered while the reader of an older connection is under way can lose its
entry to that reader. -/
theorem reuse_lets_reader_remove {pre : List Act} {cc : ClientConn}
    (hpre : exec (step cfg) .new pre = some s) (hdials : Dials s a connID)
    (hstep : step cfg s a = some s') (hcc : s.conns[c]? = some cc) (hid : cc.connID = connID)
    (hrun : cc.reader ≠ .exited) :
    ∃ acts, ¬ OwnerPrecise cfg (pre ++ a :: acts ++ [.reader c .unregister]) := by
  have hs := step_cases hstep
  obtain ⟨-, hentry⟩ := dials_newest hs hdials
  have hlt := (List.getElem?_eq_some_iff.mp hcc).1
  -- the registration appends a connection, and leaves this one as it is
  have hcc' : s'.conns[c]? = some cc := by
    obtain ⟨h, req, rfl, hpc⟩ := hdials
    cases hs with
    | dialed _ _ => exact pool_snoc_old hcc
  have hend : ReaderCanEnd cfg s' c connID := readerCanEnd_of_running hcc' hid hrun
  obtain ⟨acts, s₁, cc₁, hacts, hclients, hcc₁, hid₁, hat⟩ := hend
  refine ⟨acts, fun hprecise => ?_⟩
  have hrun₁ : exec (step cfg) .new (pre ++ a :: acts) = some s₁ :=
    exec_append_some.mpr ⟨s, hpre, exec_cons_some.mpr ⟨s', hstep, hacts⟩⟩
  have hlast : Step cfg s₁ (.reader c .unregister)
      ((s₁.unregisterClient cc₁.connID).setConn c { cc₁ with reader := .exited }) :=
    .unregisteredOwn hcc₁ hat
  have hremoves : Removes s₁ ((s₁.unregisterClient cc₁.connID).setConn c
      { cc₁ with reader := .exited }) s.conns.length := by
    refine ⟨connID, by rw [hclients, hentry], ?_⟩
    simp [hid₁]
  have heq := hprecise.reader _ [] s₁ _ c _ rfl hrun₁ hlast.enabled hremoves
  omega

end PTBridge.Dpi
