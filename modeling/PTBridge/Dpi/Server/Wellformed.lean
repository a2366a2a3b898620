import PTBridge.Dpi.Server

/-!
# Connections and what points to them

Facts about every state the server can reach, whatever clients send.

- `conn_evolves`: a connection keeps its id and its dialer for good, and what was read from and
  written to its remote only grows.
- `WellFormed`: the table and the handlers point to connections that exist, under the id they were
  registered with.
- `Pc.Next`: the control flow of a handler, which only its own steps follow.
- `Traced`: every chunk on its way to a client was read from the remote of that connection.
-/

namespace PTBridge.Dpi

open PTBridge.Stream PTBridge.Container PTBridge.Transition

variable {cfg : Config} {s s' : Server} {a : Act}

/-! ## A connection over time -/

/-- What any step leaves of a connection. -/
structure ClientConn.Evolves (cc cc' : ClientConn) : Prop where
  connID : cc'.connID = cc.connID
  dialedBy : cc'.dialedBy = cc.dialedBy
  received : cc.received <+: cc'.received
  written : cc.written <+: cc'.written

theorem ClientConn.Evolves.refl (cc : ClientConn) : cc.Evolves cc :=
  ⟨rfl, rfl, List.prefix_refl _, List.prefix_refl _⟩

/-- Replacing a connection by one that evolved from it. -/
theorem evolves_setConn {c d : Nat} {cc cc' dd : ClientConn} (hcc : s.conns[c]? = some cc)
    (hev : cc.Evolves cc') (hdd : s.conns[d]? = some dd) :
    ∃ dd', (s.conns.set c cc')[d]? = some dd' ∧ dd.Evolves dd' := by
  by_cases hdc : d = c
  · subst hdc
    rw [hcc] at hdd
    cases hdd
    exact ⟨cc', pool_set_self hcc, hev⟩
  · refine ⟨dd, ?_, .refl dd⟩
    rw [List.getElem?_set_ne fun hcd => hdc hcd.symm, hdd]

/-- No step forgets a connection, its id, its dialer or its history. -/
theorem conn_evolves {c : Nat} {cc : ClientConn} (hs : Step cfg s a s')
    (hcc : s.conns[c]? = some cc) : ∃ cc', s'.conns[c]? = some cc' ∧ cc.Evolves cc' := by
  have hnil {α : Type} (l : List α) : l <+: l := List.prefix_refl l
  cases hs with
  | dialed _ _ => exact ⟨cc, pool_snoc_old hcc, .refl cc⟩
  -- the three steps that add to a history
  | wrote _ _ hdd _ => exact evolves_setConn hdd ⟨rfl, rfl, hnil _, List.prefix_append _ _⟩ hcc
  | writeFailed _ _ hdd _ => exact evolves_setConn hdd ⟨rfl, rfl, hnil _, List.prefix_append _ _⟩ hcc
  | readData hdd _ _ _ _ => exact evolves_setConn hdd ⟨rfl, rfl, List.prefix_append _ _, hnil _⟩ hcc
  -- steps that change the channel, the reader or the remote
  | closedRemote _ _ hdd => exact evolves_setConn hdd ⟨rfl, rfl, hnil _, hnil _⟩ hcc
  | downReceived _ _ hdd _ _ => exact evolves_setConn hdd ⟨rfl, rfl, hnil _, hnil _⟩ hcc
  | readEmpty hdd _ _ => exact evolves_setConn hdd (.refl _) hcc
  | readErr hdd _ => exact evolves_setConn hdd ⟨rfl, rfl, hnil _, hnil _⟩ hcc
  | sent hdd _ _ _ _ _ => exact evolves_setConn hdd ⟨rfl, rfl, hnil _, hnil _⟩ hcc
  | sendStopped hdd _ _ => exact evolves_setConn hdd ⟨rfl, rfl, hnil _, hnil _⟩ hcc
  | closedCh hdd _ => exact evolves_setConn hdd ⟨rfl, rfl, hnil _, hnil _⟩ hcc
  | closedOwn hdd _ => exact evolves_setConn hdd ⟨rfl, rfl, hnil _, hnil _⟩ hcc
  | unregisteredOwn hdd _ => exact evolves_setConn hdd ⟨rfl, rfl, hnil _, hnil _⟩ hcc
  | _ => exact ⟨cc, hcc, .refl cc⟩

/-- A connection evolved from one before the step, or a handler dialed it now. -/
theorem conn_origin {c : Nat} {cc' : ClientConn} (hs : Step cfg s a s')
    (hcc' : s'.conns[c]? = some cc') :
    (∃ cc, s.conns[c]? = some cc ∧ cc.Evolves cc') ∨
      ∃ h hd req, a = .handler h (.dial true) ∧ s.handlers[h]? = some hd ∧
        hd.pc = .dial cc'.connID req ∧ c = s.conns.length ∧ cc' = .dialed cc'.connID req h := by
  cases hcc : s.conns[c]? with
  | some cc =>
    obtain ⟨cc'', hcc'', hev⟩ := conn_evolves hs hcc
    rw [hcc''] at hcc'
    cases hcc'
    exact Or.inl ⟨cc, rfl, hev⟩
  | none =>
    have hlen : s.conns.length ≤ c := List.getElem?_eq_none_iff.mp hcc
    -- only a dial adds a connection
    have hset : ∀ (d : Nat) (dd : ClientConn), (s.conns.set d dd)[c]? = none := fun d dd =>
      List.getElem?_eq_none (by rw [List.length_set]; exact hlen)
    cases hs with
    | @dialed h hd connID req hh hpc =>
      rcases pool_snoc_some hcc' with hold | ⟨hnew, rfl⟩
      · rw [hcc] at hold
        cases hold
      · exact Or.inr ⟨h, hd, req, rfl, hh, hpc, hnew, rfl⟩
    | _ =>
      first
      | exact absurd (hcc.symm.trans hcc') (by simp)
      | exact absurd ((hset _ _).symm.trans hcc') (by simp)

/-! ## Pointers to connections -/

/-- The connection a handler works on, and the id it looked it up by. -/
def Pc.target : Pc → Option (UInt32 × Nat)
  | .dataWrite connID _ c => some (connID, c)
  | .closeRemote connID c => some (connID, c)
  | .downLoop connID c => some (connID, c)
  | .downWrite connID c _ => some (connID, c)
  | _ => none

/-- The loop of `handleDownload` runs on connection `c`. -/
def Pc.drains (c : Nat) : Pc → Bool
  | .downLoop _ c' => c' == c
  | .downWrite _ c' _ => c' == c
  | _ => false

theorem Pc.drains_downLoop (connID : UInt32) (c d : Nat) :
    (Pc.downLoop connID c).drains d = true ↔ d = c := by
  rw [Pc.drains, beq_iff_eq, eq_comm]

theorem Pc.drains_downWrite (connID : UInt32) (c d : Nat) (data : Bytes) :
    (Pc.downWrite connID c data).drains d = true ↔ d = c := by
  rw [Pc.drains, beq_iff_eq, eq_comm]

theorem Pc.target_of_drains {pc : Pc} {c : Nat} (h : pc.drains c = true) :
    ∃ connID, pc.target = some (connID, c) := by
  cases pc <;> simp_all [Pc.drains, Pc.target]

/-- Connection `c` exists and was registered under `connID`. -/
def Server.Holds (s : Server) (connID : UInt32) (c : Nat) : Prop :=
  ∃ cc, s.conns[c]? = some cc ∧ cc.connID = connID

theorem Server.Holds.step {connID : UInt32} {c : Nat} (hold : s.Holds connID c)
    (hs : Step cfg s a s') : s'.Holds connID c := by
  obtain ⟨cc, hcc, hid⟩ := hold
  obtain ⟨cc', hcc', hev⟩ := conn_evolves hs hcc
  exact ⟨cc', hcc', hev.connID.trans hid⟩

/-- A table entry was there before the step, or the step registered it. -/
theorem clients_step {connID : UInt32} {c : Nat} (hs : Step cfg s a s')
    (hc : s'.clients connID = some c) :
    s.clients connID = some c ∨
      ∃ h req, c = s.conns.length ∧ s'.conns[c]? = some (.dialed connID req h) := by
  -- an entry survives the deletion of another
  have hdelete : ∀ id, Function.update s.clients id none connID = some c →
      s.clients connID = some c := by
    intro id hup
    rw [Function.update_apply] at hup
    split at hup
    · cases hup
    · exact hup
  cases hs with
  | @dialed h hd id req hh hpc =>
    rw [Server.setHandler_clients, Server.registerClient_clients, Function.update_apply] at hc
    split at hc
    · rename_i heq
      subst heq
      cases hc
      exact Or.inr ⟨h, req, rfl, pool_snoc_new⟩
    · exact Or.inl hc
  | unregistered _ _ => exact Or.inl (hdelete _ hc)
  | unregisteredOwn _ _ => exact Or.inl (hdelete _ hc)
  | _ => exact Or.inl hc

theorem start_fresh (cfg : Config) (r : Request) :
    (start cfg r).pc.target = none ∧ (start cfg r).sent = [] := by
  unfold start
  split
  · exact ⟨rfl, rfl⟩
  · exact ⟨rfl, rfl⟩
  -- every branch of the handlers either replies or goes to a lookup
  · unfold handleTunnel handleMessage
    repeat' split
    all_goals exact ⟨rfl, rfl⟩
  · unfold handleDownload
    repeat' split
    all_goals exact ⟨rfl, rfl⟩
  · unfold handleRoot
    split <;> exact ⟨rfl, rfl⟩

theorem start_target (cfg : Config) (r : Request) : (start cfg r).pc.target = none :=
  (start_fresh cfg r).1

theorem start_sent (cfg : Config) (r : Request) : (start cfg r).sent = [] :=
  (start_fresh cfg r).2

/-- A handler works on a connection since before the step, or found it in the table. -/
theorem target_step {h : Nat} {hd' : Handler} {connID : UInt32} {c : Nat} (hs : Step cfg s a s')
    (hh' : s'.handlers[h]? = some hd') (ht : hd'.pc.target = some (connID, c)) :
    (∃ hd, s.handlers[h]? = some hd ∧ hd.pc.target = some (connID, c)) ∨
      s.clients connID = some c := by
  -- the handler that moved ends without a target, keeps it, or looked it up
  have hset : ∀ {g : Nat} {gd gd' : Handler}, s.handlers[g]? = some gd →
      (gd'.pc.target = some (connID, c) → gd.pc.target = some (connID, c) ∨
        s.clients connID = some c) →
      (s.handlers.set g gd')[h]? = some hd' →
      (∃ hd, s.handlers[h]? = some hd ∧ hd.pc.target = some (connID, c)) ∨
        s.clients connID = some c := by
    intro g gd gd' hg hkeep hget
    rcases pool_set_some hget with ⟨rfl, rfl⟩ | ⟨-, hold⟩
    · exact (hkeep ht).imp (fun hold => ⟨gd, hg, hold⟩) id
    · exact Or.inl ⟨hd', hold, ht⟩
  cases hs with
  | request r =>
    rcases pool_snoc_some hh' with hold | ⟨-, rfl⟩
    · exact Or.inl ⟨hd', hold, ht⟩
    · rw [start_target] at ht
      cases ht
  | dataFound hh _ hc => exact hset hh (fun h => by cases h; exact Or.inr hc) hh'
  | closeFound hh _ hc => exact hset hh (fun h => by cases h; exact Or.inr hc) hh'
  | downFound hh _ hc => exact hset hh (fun h => by cases h; exact Or.inr hc) hh'
  | writeFailed hh hpc _ _ => exact hset hh (fun h => by rw [hpc]; exact Or.inl h) hh'
  | downReceived hh hpc _ _ _ => exact hset hh (fun h => by rw [hpc]; exact Or.inl h) hh'
  | emitted hh hpc => exact hset hh (fun h => by rw [hpc]; exact Or.inl h) hh'
  | dialed hh _ => exact hset hh (fun h => by cases h) hh'
  | dialFailed hh _ => exact hset hh (fun h => by cases h) hh'
  | dataUnknown hh _ _ => exact hset hh (fun h => by cases h) hh'
  | wrote hh _ _ _ => exact hset hh (fun h => by cases h) hh'
  | closeUnknown hh _ _ => exact hset hh (fun h => by cases h) hh'
  | closedRemote hh _ _ => exact hset hh (fun h => by cases h) hh'
  | unregistered hh _ => exact hset hh (fun h => by cases h) hh'
  | downUnknown hh _ _ => exact hset hh (fun h => by cases h) hh'
  | downDrained hh _ _ _ _ => exact hset hh (fun h => by cases h) hh'
  | downCancelled hh _ => exact hset hh (fun h => by cases h) hh'
  | downStopped hh _ _ => exact hset hh (fun h => by cases h) hh'
  | emitFailed hh _ => exact hset hh (fun h => by cases h) hh'
  | encryptFailed hh _ => exact hset hh (fun h => by cases h) hh'
  | _ => exact Or.inl ⟨hd', hh', ht⟩

/-- The table and the handlers point to connections registered under the id they know. -/
structure WellFormed (s : Server) : Prop where
  table : ∀ connID c, s.clients connID = some c → s.Holds connID c
  target : ∀ (h : Nat) (hd : Handler) (connID : UInt32) (c : Nat), s.handlers[h]? = some hd →
    hd.pc.target = some (connID, c) → s.Holds connID c

theorem wellFormed_new : WellFormed .new where
  table _ _ h := by cases h
  target _ _ _ _ h := by cases h

theorem WellFormed.step (hwf : WellFormed s) (hs : Step cfg s a s') : WellFormed s' where
  table connID c hc := by
    rcases clients_step hs hc with hold | ⟨h, req, -, hnew⟩
    · exact (hwf.table connID c hold).step hs
    · exact ⟨_, hnew, rfl⟩
  target h hd connID c hh ht := by
    rcases target_step hs hh ht with ⟨gd, hg, hgt⟩ | hc
    · -- a connection never loses the id it was registered under
      exact (hwf.target h gd connID c hg hgt).step hs
    · exact (hwf.table connID c hc).step hs

theorem wellFormed_run {acts : List Act} (hrun : exec (step cfg) .new acts = some s) :
    WellFormed s :=
  exec_invariant_all (fun _ _ _ hwf hs => WellFormed.step hwf (step_cases hs)) acts .new s
    wellFormed_new hrun

/-! ## Control flow -/

/-- Where a handler can go from a place. -/
inductive Pc.Next : Pc → Pc → Prop where
  | done (pc : Pc) : Next pc .done
  | found (connID : UInt32) (payload : Bytes) (c : Nat) :
      Next (.dataLookup connID payload) (.dataWrite connID payload c)
  | failed (connID : UInt32) (payload : Bytes) (c : Nat) :
      Next (.dataWrite connID payload c) (.closeRemote connID c)
  | toClose (connID : UInt32) (c : Nat) : Next (.closeLookup connID) (.closeRemote connID c)
  | closed (connID : UInt32) (c : Nat) : Next (.closeRemote connID c) (.unregister connID)
  | attached (connID : UInt32) (c : Nat) : Next (.downLookup connID) (.downLoop connID c)
  | took (connID : UInt32) (c : Nat) (data : Bytes) :
      Next (.downLoop connID c) (.downWrite connID c data)
  | wrote (connID : UInt32) (c : Nat) (data : Bytes) :
      Next (.downWrite connID c data) (.downLoop connID c)

/-- A handler's own step replaces the handler and follows the control flow. -/
theorem handler_next {h : Nat} {m : HandlerMove} (hs : Step cfg s (.handler h m) s') :
    ∃ hd hd', s.handlers[h]? = some hd ∧ s'.handlers = s.handlers.set h hd' ∧
      Pc.Next hd.pc hd'.pc := by
  cases hs with
  | dataFound hh hpc _ => exact ⟨_, _, hh, rfl, hpc ▸ .found _ _ _⟩
  | writeFailed hh hpc _ _ => exact ⟨_, _, hh, rfl, hpc ▸ .failed _ _ _⟩
  | closeFound hh hpc _ => exact ⟨_, _, hh, rfl, hpc ▸ .toClose _ _⟩
  | closedRemote hh hpc _ => exact ⟨_, _, hh, rfl, hpc ▸ .closed _ _⟩
  | downFound hh hpc _ => exact ⟨_, _, hh, rfl, hpc ▸ .attached _ _⟩
  | downReceived hh hpc _ _ _ => exact ⟨_, _, hh, rfl, hpc ▸ .took _ _ _⟩
  | emitted hh hpc => exact ⟨_, _, hh, rfl, hpc ▸ .wrote _ _ _⟩
  | dialed hh _ => exact ⟨_, _, hh, rfl, .done _⟩
  | dialFailed hh _ => exact ⟨_, _, hh, rfl, .done _⟩
  | dataUnknown hh _ _ => exact ⟨_, _, hh, rfl, .done _⟩
  | wrote hh _ _ _ => exact ⟨_, _, hh, rfl, .done _⟩
  | closeUnknown hh _ _ => exact ⟨_, _, hh, rfl, .done _⟩
  | unregistered hh _ => exact ⟨_, _, hh, rfl, .done _⟩
  | downUnknown hh _ _ => exact ⟨_, _, hh, rfl, .done _⟩
  | downDrained hh _ _ _ _ => exact ⟨_, _, hh, rfl, .done _⟩
  | downCancelled hh _ => exact ⟨_, _, hh, rfl, .done _⟩
  | downStopped hh _ _ => exact ⟨_, _, hh, rfl, .done _⟩
  | emitFailed hh _ => exact ⟨_, _, hh, rfl, .done _⟩
  | encryptFailed hh _ => exact ⟨_, _, hh, rfl, .done _⟩

/-- A handler is as before the step, starts with it, or followed the control flow. -/
theorem handler_origin {h : Nat} {hd' : Handler} (hs : Step cfg s a s') (hreq : ∀ r, a ≠ .request r)
    (hh' : s'.handlers[h]? = some hd') :
    s.handlers[h]? = some hd' ∨
      ∃ m hd, a = .handler h m ∧ s.handlers[h]? = some hd ∧ hd.pc.Next hd'.pc := by
  cases a with
  | request r => exact absurd rfl (hreq r)
  | handler g m =>
    obtain ⟨gd, gd', hg, hset, hnext⟩ := handler_next hs
    rw [hset] at hh'
    rcases pool_set_some hh' with ⟨rfl, rfl⟩ | ⟨-, hold⟩
    · exact Or.inr ⟨m, gd, rfl, hg, hnext⟩
    · exact Or.inl hold
  | reader c m => cases hs <;> exact Or.inl hh'
  | shutdown => cases hs; exact Or.inl hh'

theorem handlers_length_step (hs : Step cfg s a s') (hreq : ∀ r, a ≠ .request r) :
    s'.handlers.length = s.handlers.length := by
  cases a with
  | request r => exact absurd rfl (hreq r)
  | handler g m =>
    obtain ⟨gd, gd', -, hset, -⟩ := handler_next hs
    rw [hset, List.length_set]
  | reader c m => cases hs <;> rfl
  | shutdown => cases hs; rfl

/-! ## What was written -/

/-- A write to a remote was there before the step, or a handler made it now. -/
theorem written_step {c h : Nat} {cc' : ClientConn} {bytes : Bytes} (hs : Step cfg s a s')
    (hcc' : s'.conns[c]? = some cc') (hmem : (h, bytes) ∈ cc'.written) :
    (∃ cc, s.conns[c]? = some cc ∧ (h, bytes) ∈ cc.written) ∨
      ∃ hd connID payload, s.handlers[h]? = some hd ∧ hd.pc = .dataWrite connID payload c ∧
        bytes <+: payload := by
  -- a replaced connection has the writes of the old one, and perhaps one of a handler
  have hset : ∀ {d : Nat} {dd dd' : ClientConn}, s.conns[d]? = some dd →
      (s.conns.set d dd')[c]? = some cc' →
      ((h, bytes) ∈ dd'.written → (h, bytes) ∈ dd.written ∨
        ∃ hd connID payload, s.handlers[h]? = some hd ∧ hd.pc = .dataWrite connID payload d ∧
          bytes <+: payload) →
      (∃ cc, s.conns[c]? = some cc ∧ (h, bytes) ∈ cc.written) ∨
        ∃ hd connID payload, s.handlers[h]? = some hd ∧ hd.pc = .dataWrite connID payload c ∧
          bytes <+: payload := by
    intro d dd dd' hdd hget hwr
    rcases pool_set_some hget with ⟨rfl, rfl⟩ | ⟨-, hold⟩
    · exact (hwr hmem).imp (fun hold => ⟨dd, hdd, hold⟩) id
    · exact Or.inl ⟨cc', hold, hmem⟩
  cases hs with
  | dialed _ _ =>
    rcases pool_snoc_some hcc' with hold | ⟨-, rfl⟩
    · exact Or.inl ⟨cc', hold, hmem⟩
    · cases hmem
  | wrote hh hpc hdd _ =>
    refine hset hdd hcc' fun hw => ?_
    rcases List.mem_append.mp hw with hold | hnew
    · exact Or.inl hold
    · cases List.mem_singleton.mp hnew
      exact Or.inr ⟨_, _, _, hh, hpc, List.prefix_refl _⟩
  | writeFailed hh hpc hdd _ =>
    refine hset hdd hcc' fun hw => ?_
    rcases List.mem_append.mp hw with hold | hnew
    · exact Or.inl hold
    · cases List.mem_singleton.mp hnew
      exact Or.inr ⟨_, _, _, hh, hpc, List.take_prefix _ _⟩
  | closedRemote _ _ hdd => exact hset hdd hcc' Or.inl
  | downReceived _ _ hdd _ _ => exact hset hdd hcc' Or.inl
  | readData hdd _ _ _ _ => exact hset hdd hcc' Or.inl
  | readEmpty hdd _ _ => exact hset hdd hcc' Or.inl
  | readErr hdd _ => exact hset hdd hcc' Or.inl
  | sent hdd _ _ _ _ _ => exact hset hdd hcc' Or.inl
  | sendStopped hdd _ _ => exact hset hdd hcc' Or.inl
  | closedCh hdd _ => exact hset hdd hcc' Or.inl
  | closedOwn hdd _ => exact hset hdd hcc' Or.inl
  | unregisteredOwn hdd _ => exact hset hdd hcc' Or.inl
  | _ => exact Or.inl ⟨cc', hcc', hmem⟩

/-- A frame was written before the step, or its chunk was in the download's hand. -/
theorem sent_step {h : Nat} {hd' : Handler} {frame : Nonce × Bytes} (hs : Step cfg s a s')
    (hh' : s'.handlers[h]? = some hd') (hmem : frame ∈ hd'.sent) :
    (∃ hd, s.handlers[h]? = some hd ∧ frame ∈ hd.sent) ∨
      ∃ hd connID c, s.handlers[h]? = some hd ∧ hd.pc = .downWrite connID c frame.2 := by
  have hset : ∀ {g : Nat} {gd gd' : Handler}, s.handlers[g]? = some gd →
      (s.handlers.set g gd')[h]? = some hd' →
      (frame ∈ gd'.sent → frame ∈ gd.sent ∨ ∃ connID c, gd.pc = .downWrite connID c frame.2) →
      (∃ hd, s.handlers[h]? = some hd ∧ frame ∈ hd.sent) ∨
        ∃ hd connID c, s.handlers[h]? = some hd ∧ hd.pc = .downWrite connID c frame.2 := by
    intro g gd gd' hg hget hsent
    rcases pool_set_some hget with ⟨rfl, rfl⟩ | ⟨-, hold⟩
    · rcases hsent hmem with hold | ⟨connID, c, hpc⟩
      · exact Or.inl ⟨gd, hg, hold⟩
      · exact Or.inr ⟨gd, connID, c, hg, hpc⟩
    · exact Or.inl ⟨hd', hold, hmem⟩
  have hframe : ∀ {gd : Handler} {nonce : Nonce} {connID : UInt32} {c : Nat} {data : Bytes},
      gd.pc = .downWrite connID c data → frame ∈ gd.sent ++ [(nonce, data)] →
      frame ∈ gd.sent ∨ ∃ connID c, gd.pc = .downWrite connID c frame.2 := by
    intro gd nonce connID c data hpc hmem
    rcases List.mem_append.mp hmem with hold | hnew
    · exact Or.inl hold
    · cases List.mem_singleton.mp hnew
      exact Or.inr ⟨connID, c, hpc⟩
  cases hs with
  | request r =>
    rcases pool_snoc_some hh' with hold | ⟨-, rfl⟩
    · exact Or.inl ⟨hd', hold, hmem⟩
    · rw [start_sent] at hmem
      cases hmem
  | emitted hh hpc => exact hset hh hh' (hframe hpc)
  | emitFailed hh hpc => exact hset hh hh' (hframe hpc)
  | downReceived hh _ _ _ _ => exact hset hh hh' Or.inl
  | downDrained hh _ _ _ _ => exact hset hh hh' Or.inl
  | downCancelled hh _ => exact hset hh hh' Or.inl
  | downStopped hh _ _ => exact hset hh hh' Or.inl
  | encryptFailed hh _ => exact hset hh hh' Or.inl
  -- the other handlers have written no frame
  | dialed hh _ => exact hset hh hh' fun hm => by cases hm
  | dialFailed hh _ => exact hset hh hh' fun hm => by cases hm
  | dataFound hh _ _ => exact hset hh hh' fun hm => by cases hm
  | dataUnknown hh _ _ => exact hset hh hh' fun hm => by cases hm
  | wrote hh _ _ _ => exact hset hh hh' fun hm => by cases hm
  | writeFailed hh _ _ _ => exact hset hh hh' fun hm => by cases hm
  | closeFound hh _ _ => exact hset hh hh' fun hm => by cases hm
  | closeUnknown hh _ _ => exact hset hh hh' fun hm => by cases hm
  | closedRemote hh _ _ => exact hset hh hh' fun hm => by cases hm
  | unregistered hh _ => exact hset hh hh' fun hm => by cases hm
  | downFound hh _ _ => exact hset hh hh' fun hm => by cases hm
  | downUnknown hh _ _ => exact hset hh hh' fun hm => by cases hm
  | _ => exact Or.inl ⟨hd', hh', hmem⟩

/-! ## Where chunks come from -/

/-- The chunk a reader goroutine has read and not yet sent. -/
def ReaderPc.hand : ReaderPc → List Bytes
  | .sending data _ => [data]
  | _ => []

/-- The chunk a download has received and not yet written. -/
def Pc.hand : Pc → List Bytes
  | .downWrite _ _ data => [data]
  | _ => []

/-- Every chunk that is queued or in a reader's hand was read from the connection's remote. -/
def ClientConn.Traced (cc : ClientConn) : Prop :=
  ∀ data ∈ cc.dataCh.buf ++ cc.reader.hand, data ∈ cc.received

/-- Every chunk on its way to a client was read from the remote of the connection it came from. -/
structure Traced (s : Server) : Prop where
  queued : ∀ (c : Nat) (cc : ClientConn), s.conns[c]? = some cc → cc.Traced
  inHand : ∀ (h : Nat) (hd : Handler) (connID : UInt32) (c : Nat) (data : Bytes),
    s.handlers[h]? = some hd → hd.pc = .downWrite connID c data →
    ∃ cc, s.conns[c]? = some cc ∧ data ∈ cc.received

theorem traced_new : Traced .new where
  queued _ _ h := by cases h
  inHand _ _ _ _ _ h := by cases h

/-- A reader with nothing in hand leaves only the queue to trace. -/
theorem ClientConn.Traced.of_empty_hand {cc cc' : ClientConn} (htr : cc.Traced)
    (hbuf : cc'.dataCh.buf = cc.dataCh.buf) (hrec : cc'.received = cc.received)
    (hhand : cc'.reader.hand = []) : cc'.Traced := by
  intro data hdata
  rw [hbuf, hhand, List.append_nil] at hdata
  rw [hrec]
  exact htr data (List.mem_append_left _ hdata)

/-- Replacing a connection keeps the queues traced if the new one is. -/
theorem Traced.setConn_queued {c d : Nat} {cc dd : ClientConn} (htr : Traced s)
    (hdd : (s.conns.set c cc)[d]? = some dd) (hnew : cc.Traced) : dd.Traced := by
  rcases pool_set_some hdd with ⟨-, rfl⟩ | ⟨-, hold⟩
  · exact hnew
  · exact htr.queued d dd hold

theorem Traced.queued_step (htr : Traced s) (hs : Step cfg s a s') {c : Nat} {cc : ClientConn}
    (hcc : s'.conns[c]? = some cc) : cc.Traced := by
  cases hs with
  | dialed _ _ =>
    rcases pool_snoc_some hcc with hold | ⟨-, rfl⟩
    · exact htr.queued c cc hold
    · intro data hdata
      cases hdata
  -- the queue and the hand stay as they are
  | wrote _ _ hdd _ => exact htr.setConn_queued hcc fun x hx => htr.queued _ _ hdd x hx
  | writeFailed _ _ hdd _ => exact htr.setConn_queued hcc fun x hx => htr.queued _ _ hdd x hx
  | closedRemote _ _ hdd => exact htr.setConn_queued hcc fun x hx => htr.queued _ _ hdd x hx
  | readEmpty hdd _ _ => exact htr.setConn_queued hcc fun x hx => htr.queued _ _ hdd x hx
  -- a chunk moves
  | downReceived _ _ hdd hbuf _ =>
    refine htr.setConn_queued hcc fun data hdata => htr.queued _ _ hdd data ?_
    rw [hbuf]
    exact List.mem_cons_of_mem _ hdata
  | @readData d dd data err hdd hpc _ _ _ =>
    refine htr.setConn_queued hcc fun x hx => ?_
    rcases List.mem_append.mp hx with hq | hnew
    · exact List.mem_append_left _ (htr.queued _ _ hdd x (List.mem_append_left _ hq))
    · exact List.mem_append_right _ hnew
  | @sent d dd data err ch hdd hpc _ _ hbuf _ =>
    refine htr.setConn_queued hcc fun x hx => htr.queued _ _ hdd x ?_
    have hx' : x ∈ ch.buf := by
      rcases List.mem_append.mp hx with hq | hhand
      · exact hq
      · cases err <;> cases hhand
    rw [hpc]
    rw [hbuf] at hx'
    exact hx'
  -- the reader goes on with nothing in hand
  | readErr hdd _ => exact htr.setConn_queued hcc ((htr.queued _ _ hdd).of_empty_hand rfl rfl rfl)
  | sendStopped hdd _ _ =>
    exact htr.setConn_queued hcc ((htr.queued _ _ hdd).of_empty_hand rfl rfl rfl)
  | closedCh hdd _ => exact htr.setConn_queued hcc ((htr.queued _ _ hdd).of_empty_hand rfl rfl rfl)
  | closedOwn hdd _ => exact htr.setConn_queued hcc ((htr.queued _ _ hdd).of_empty_hand rfl rfl rfl)
  | unregisteredOwn hdd _ =>
    exact htr.setConn_queued hcc ((htr.queued _ _ hdd).of_empty_hand rfl rfl rfl)
  | _ => exact htr.queued c cc hcc

/-- A chunk in a download's hand was there before the step, or the step took it off the queue. -/
theorem downWrite_step {h : Nat} {hd' : Handler} {connID : UInt32} {c : Nat} {data : Bytes}
    (hs : Step cfg s a s') (hh' : s'.handlers[h]? = some hd')
    (hpc' : hd'.pc = .downWrite connID c data) :
    (∃ hd, s.handlers[h]? = some hd ∧ hd.pc = .downWrite connID c data) ∨
      ∃ cc, s.conns[c]? = some cc ∧ data ∈ cc.dataCh.buf := by
  -- only a receive puts a chunk in a hand
  have hset : ∀ {g : Nat} {gd' : Handler}, (gd'.pc = .downWrite connID c data →
        ∃ cc, s.conns[c]? = some cc ∧ data ∈ cc.dataCh.buf) →
      (s.handlers.set g gd')[h]? = some hd' →
      (∃ hd, s.handlers[h]? = some hd ∧ hd.pc = .downWrite connID c data) ∨
        ∃ cc, s.conns[c]? = some cc ∧ data ∈ cc.dataCh.buf := by
    intro g gd' hmove hget
    rcases pool_set_some hget with ⟨-, rfl⟩ | ⟨-, hold⟩
    · exact Or.inr (hmove hpc')
    · exact Or.inl ⟨hd', hold, hpc'⟩
  cases hs with
  | request r =>
    rcases pool_snoc_some hh' with hold | ⟨-, rfl⟩
    · exact Or.inl ⟨hd', hold, hpc'⟩
    · have ht := start_target cfg r
      rw [hpc'] at ht
      cases ht
  | @downReceived g gd id d dd data' ch hg hpc hdd hbuf hclosed =>
    refine hset (fun hmove => ?_) hh'
    obtain ⟨-, rfl, rfl⟩ := Pc.downWrite.inj hmove
    exact ⟨dd, hdd, by rw [hbuf]; exact List.mem_cons_self⟩
  | _ =>
    first
    | exact Or.inl ⟨hd', hh', hpc'⟩
    | exact hset (fun hmove => by cases hmove) hh'

theorem Traced.step (htr : Traced s) (hs : Step cfg s a s') : Traced s' where
  queued _ _ hcc := htr.queued_step hs hcc
  inHand h hd connID c data hh hpc := by
    -- a chunk taken off the queue was traced there, and what was received is never forgotten
    have hbefore : ∃ cc, s.conns[c]? = some cc ∧ data ∈ cc.received := by
      rcases downWrite_step hs hh hpc with ⟨gd, hg, hgd⟩ | ⟨cc, hcc, hdata⟩
      · exact htr.inHand h gd connID c data hg hgd
      · exact ⟨cc, hcc, htr.queued c cc hcc data (List.mem_append_left _ hdata)⟩
    obtain ⟨cc, hcc, hdata⟩ := hbefore
    obtain ⟨cc', hcc', hev⟩ := conn_evolves hs hcc
    exact ⟨cc', hcc', hev.received.subset hdata⟩

end PTBridge.Dpi
