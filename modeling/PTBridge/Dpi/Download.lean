import PTBridge.Dpi.Client.TunnelConn
import PTBridge.Dpi.Server.Delivery

/-!
# A download from the remote to the caller of `Read`

The server's handler and the client's connection meet in the response body: the frames a handler
wrote (`Handler.sent`) are the body that `streamReader` takes apart. What the reader goroutine of
the server read from the remote is what the calls of `tunnelConn.Read` return.

- `ReadSizes` is what the frames rely on: the reader goroutine reads into a 32 KiB buffer and
  queues no empty chunk.
- `download_reaches_caller` puts the two halves together.
-/

namespace PTBridge.Dpi

open PTBridge.Stream PTBridge.Transition

/-- Every chunk that was read from a remote fits the reader's buffer and is not empty. -/
def ReadSizes (s : Server) : Prop :=
  ∀ (c : Nat) (cc : ClientConn), s.conns[c]? = some cc →
    ∀ data ∈ cc.received, 1 ≤ data.length ∧ data.length ≤ readBufSize

variable {cfg : Config} {s s' : Server} {a : Act}

theorem ReadSizes.step (h : ReadSizes s) (hs : Step cfg s a s') : ReadSizes s' := by
  intro c cc' hcc'
  -- a replaced connection received what the old one did, and perhaps one chunk more
  have hset : ∀ {d : Nat} {dd dd' : ClientConn}, s.conns[d]? = some dd →
      (s.conns.set d dd')[c]? = some cc' →
      (∀ data ∈ dd'.received, data ∈ dd.received ∨ 1 ≤ data.length ∧ data.length ≤ readBufSize) →
      ∀ data ∈ cc'.received, 1 ≤ data.length ∧ data.length ≤ readBufSize := by
    intro d dd dd' hdd hget hnew data hmem
    rcases pool_set_some hget with ⟨rfl, rfl⟩ | ⟨-, hold⟩
    · exact (hnew data hmem).elim (h _ dd hdd data) id
    · exact h c cc' hold data hmem
  cases hs with
  | dialed _ _ =>
    rcases pool_snoc_some hcc' with hold | ⟨-, rfl⟩
    · exact h c cc' hold
    · intro data hmem
      cases hmem
  | readData hdd _ hdata hlen _ =>
    refine hset hdd hcc' fun data hmem => ?_
    rcases List.mem_append.mp hmem with hold | hnew
    · exact Or.inl hold
    · cases List.mem_singleton.mp hnew
      exact Or.inr ⟨List.length_pos_of_ne_nil hdata, hlen⟩
  | wrote _ _ hdd _ => exact hset hdd hcc' fun _ => Or.inl
  | writeFailed _ _ hdd _ => exact hset hdd hcc' fun _ => Or.inl
  | closedRemote _ _ hdd => exact hset hdd hcc' fun _ => Or.inl
  | downReceived _ _ hdd _ _ => exact hset hdd hcc' fun _ => Or.inl
  | readEmpty hdd _ _ => exact hset hdd hcc' fun _ => Or.inl
  | readErr hdd _ => exact hset hdd hcc' fun _ => Or.inl
  | sent hdd _ _ _ _ _ => exact hset hdd hcc' fun _ => Or.inl
  | sendStopped hdd _ _ => exact hset hdd hcc' fun _ => Or.inl
  | closedCh hdd _ => exact hset hdd hcc' fun _ => Or.inl
  | closedOwn hdd _ => exact hset hdd hcc' fun _ => Or.inl
  | unregisteredOwn hdd _ => exact hset hdd hcc' fun _ => Or.inl
  | _ => exact h c cc' hcc'

theorem readSizes_run {acts : List Act} (hrun : exec (step cfg) .new acts = some s) : ReadSizes s :=
  exec_invariant_all (fun _ _ _ hi hs => ReadSizes.step hi (step_cases hs)) acts .new s
    (fun _ _ hcc => by cases hcc) hrun

/-- After a successful `Connect`, in a run in which the one later download finds the connection
and returns: whatever way its body is delivered, the calls of `Read` on the client return what the
server read from the remote. -/
theorem download_reaches_caller {before after : List Act} {s₀ s₁ : Server} {connID : UInt32}
    {req : ConnectRequest} {g h : Nat} {cc : ClientConn} {hd : Handler}
    (hbefore : exec (step cfg) .new before = some s₀) (hrunning : s₀.stopped = false)
    (hpc : s₀.pcOf g = .dial connID req)
    (hdial : step cfg s₀ (.handler g (.dial true)) = some s₁) (hlater : s₁.handlers.length ≤ h)
    (hok : Meets (step cfg) (Orderly connID s₀.conns.length h) s₁ after)
    (hafter : exec (step cfg) s₁ after = some s) (hcc : s.conns[s₀.conns.length]? = some cc)
    (hh : s.handlers[h]? = some hd) (hdone : hd.pc = .done)
    {body : Reader} (hbytes : body.bytes = downloadBody cfg.encryptor connID hd.sent)
    (hfinal : body.final = .eof) {acts : List TunnelConn.Act} {tc : TunnelConn}
    (hquiet : ∀ a ∈ acts, a.quiet = true)
    (hrun : exec (TunnelConn.step cfg.encryptor.decrypt) (.new body) acts = some tc) :
    TunnelConn.Faithful cfg.encryptor.decrypt cc.received tc := by
  obtain ⟨gd, hg, hgd⟩ := Server.pcOf_eq hpc nofun
  have hL : Ledger connID s₀.conns.length h s :=
    exec_invariant (fun _ _ _ hl ha hs => Ledger.preserved hl ha (step_cases hs)) after s₁ s
      (ledger_dialed (wellFormed_run hbefore) hrunning hg hgd hdial hlater) hok hafter
  obtain ⟨-, hsent, -⟩ := (hL.carriesAll : CarriesAll cfg _ _ _ s).complete cc hd hcc hh hdone
  have hwhole : exec (step cfg) .new (before ++ .handler g (.dial true) :: after) = some s :=
    exec_append_some.mpr ⟨s₀, hbefore, exec_cons_some.mpr ⟨s₁, hdial, hafter⟩⟩
  have hsizes : ChunkSizes hd.sent := by
    intro f hf
    refine readSizes_run hwhole _ cc hcc f.2 ?_
    rw [← hsent]
    exact List.mem_map_of_mem hf
  rw [← hsent]
  exact (TunnelConn.intact_run hsizes hbytes hfinal hquiet hrun).faithful

end PTBridge.Dpi
