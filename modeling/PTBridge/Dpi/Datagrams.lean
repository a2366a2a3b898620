import PTBridge.Dpi.Client.Batching
import PTBridge.Dpi.Client.Callers
import PTBridge.Dpi.Client.Upload
import PTBridge.Dpi.Server.Wellformed

/-!
# Datagrams on the upload path

A `tunnelConn` for a `udp` target and the server behind it. `tunnelConn.Write` puts its data into the
batch of `pumpWrite`, whatever the network of the connection is; a batch is one request of
`SendData`, and its handler calls `remote.Write` once, with all of it. A datagram is one call of
`remote.Write` only if it is alone in its batch.

- `Datagrams.step` is the client, the server and the requests between them; any other client of the
  server may move as well.
- `remoteWrites` is what a handler wrote, `caused` what the batches of a call of `Write` came to.
- `Serves` follows the handler of a batch, `Tracked` the whole path.
- `deliveredIn_iff`: whatever other requests do meanwhile, the data of a `SendData` is delivered
  exactly if its handler finds the connection when it looks it up, and the remote takes the data
  when the handler writes it.
- `datagrams_kept`: if `pumpWrite` receives only with an empty batch, and the server finds the
  connection and its remote takes the data, then the boundaries survive.
-/

namespace PTBridge.Dpi

open PTBridge.Stream PTBridge.Container PTBridge.Transition

/-! ## What a handler writes -/

/-- What handler `h` has written to the remote of the connection. -/
def ClientConn.writtenBy (cc : ClientConn) (h : Nat) : List Bytes :=
  cc.written.filterMap fun e => if e.1 = h then some e.2 else none

/-- The calls of `remote.Write` that handler `h` has made. -/
def Server.remoteWrites (s : Server) (h : Nat) : List Bytes :=
  s.conns.flatMap fun cc => cc.writtenBy h

section RemoteWrites

variable {cfg : Config} {s s' : Server} {a : Act} {c h g : Nat} {cc cc' : ClientConn} {bytes : Bytes}

theorem writtenBy_other (hw : cc'.written = cc.written ++ [(g, bytes)]) (hne : g ≠ h) :
    cc'.writtenBy h = cc.writtenBy h := by
  simp [ClientConn.writtenBy, hw, hne]

theorem writtenBy_own (hw : cc'.written = cc.written ++ [(h, bytes)]) :
    cc'.writtenBy h = cc.writtenBy h ++ [bytes] := by
  simp [ClientConn.writtenBy, hw]

theorem remoteWrites_eq (s : Server) (h : Nat) :
    s.remoteWrites h = (s.conns.map fun cc => cc.writtenBy h).flatten :=
  List.flatMap_def

theorem writtenBy_at (h : Nat) (hcc : s.conns[c]? = some cc) :
    (s.conns.map fun cc => cc.writtenBy h)[c]? = some (cc.writtenBy h) := by
  rw [List.getElem?_map, hcc]
  rfl

theorem remoteWrites_set (hcc : s.conns[c]? = some cc) (hset : s'.conns = s.conns.set c cc')
    (hsame : cc'.writtenBy h = cc.writtenBy h) : s'.remoteWrites h = s.remoteWrites h := by
  rw [remoteWrites_eq, remoteWrites_eq, hset, List.map_set, hsame, pool_set_same (writtenBy_at h hcc)]

/-- The first write of a handler. -/
theorem remoteWrites_first (hcc : s.conns[c]? = some cc) (hset : s'.conns = s.conns.set c cc')
    (hw : cc'.written = cc.written ++ [(h, bytes)]) (hnone : s.remoteWrites h = []) :
    s'.remoteWrites h = [bytes] := by
  rw [remoteWrites_eq] at hnone
  have hempty : cc.writtenBy h = [] :=
    List.flatten_eq_nil_iff.mp hnone _ (List.mem_of_getElem? (writtenBy_at h hcc))
  rw [remoteWrites_eq, hset, List.map_set, pool_flatten_set (writtenBy_at h hcc) hnone,
    writtenBy_own hw, hempty, List.nil_append]

/-- Only its own steps add to what a handler has written. -/
theorem remoteWrites_frame (hs : Step cfg s a s') (hother : ∀ m, a ≠ .handler h m) :
    s'.remoteWrites h = s.remoteWrites h := by
  have hne : ∀ {g m}, a = .handler g m → g ≠ h := by
    rintro g m rfl rfl
    exact hother m rfl
  cases hs with
  | dialed _ _ =>
    show (s.conns ++ [_]).flatMap _ = _
    rw [List.flatMap_append]
    exact List.append_nil _
  | wrote _ _ hcc _ => exact remoteWrites_set hcc rfl (writtenBy_other rfl (hne rfl))
  | writeFailed _ _ hcc _ => exact remoteWrites_set hcc rfl (writtenBy_other rfl (hne rfl))
  | closedRemote _ _ hcc => exact remoteWrites_set hcc rfl rfl
  | downReceived _ _ hcc _ _ => exact remoteWrites_set hcc rfl rfl
  | readData hcc _ _ _ _ => exact remoteWrites_set hcc rfl rfl
  | readEmpty hcc _ _ => exact remoteWrites_set hcc rfl rfl
  | readErr hcc _ => exact remoteWrites_set hcc rfl rfl
  | sent hcc _ _ _ _ _ => exact remoteWrites_set hcc rfl rfl
  | sendStopped hcc _ _ => exact remoteWrites_set hcc rfl rfl
  | closedCh hcc _ => exact remoteWrites_set hcc rfl rfl
  | closedOwn hcc _ => exact remoteWrites_set hcc rfl rfl
  | unregisteredOwn hcc _ => exact remoteWrites_set hcc rfl rfl
  | _ => rfl

/-- Every write was made by a handler that exists. -/
def Signed (s : Server) : Prop :=
  ∀ (c : Nat) (cc : ClientConn) (h : Nat) (bytes : Bytes), s.conns[c]? = some cc →
    (h, bytes) ∈ cc.written → h < s.handlers.length

theorem handlers_length_le (hs : Step cfg s a s') : s.handlers.length ≤ s'.handlers.length := by
  by_cases hreq : ∃ r, a = .request r
  · obtain ⟨r, rfl⟩ := hreq
    cases hs
    simp
  · exact (handlers_length_step hs fun r hr => hreq ⟨r, hr⟩).ge

theorem Signed.step (hsigned : Signed s) (hs : Step cfg s a s') : Signed s' := by
  intro c cc' h bytes hcc' hmem
  refine Nat.lt_of_lt_of_le ?_ (handlers_length_le hs)
  rcases written_step hs hcc' hmem with ⟨cc, hcc, hold⟩ | ⟨hd, connID, payload, hh, -, -⟩
  · exact hsigned c cc h bytes hcc hold
  · exact (List.getElem?_eq_some_iff.mp hh).1

theorem signed_run {acts : List Act} (hrun : exec (step cfg) .new acts = some s) : Signed s :=
  exec_invariant_all (fun _ _ _ hi hs => Signed.step hi (step_cases hs)) acts .new s
    (fun _ _ _ _ hcc => by cases hcc) hrun

/-- A handler that does not exist yet has written nothing. -/
theorem Signed.remoteWrites_new (hsigned : Signed s) (hh : s.handlers.length ≤ h) :
    s.remoteWrites h = [] := by
  refine List.flatMap_eq_nil_iff.mpr fun cc hcc => List.filterMap_eq_nil_iff.mpr ?_
  rintro ⟨g, bytes⟩ hmem
  obtain ⟨c, hc⟩ := List.mem_iff_getElem?.mp hcc
  have hlt := hsigned c cc g bytes hc hmem
  rw [if_neg]
  dsimp only
  omega

end RemoteWrites

/-! ## The handler of a batch -/

/-- Where the handler of a batch stands, and what it has written. -/
inductive Serves (connID : UInt32) (s : Server) (h : Nat) (payload : Bytes) : Prop where
  /-- before `getClient` -/
  | asked {hd} (hh : s.handlers[h]? = some hd) (hpc : hd.pc = .dataLookup connID payload)
      (hnone : s.remoteWrites h = [])
  /-- before `remote.Write` -/
  | found {hd c} (hh : s.handlers[h]? = some hd) (hpc : hd.pc = .dataWrite connID payload c)
      (hnone : s.remoteWrites h = [])
  /-- it has returned -/
  | written {hd} (hh : s.handlers[h]? = some hd) (hpc : hd.pc = .done)
      (hone : s.remoteWrites h = [payload])

/-- The handler finds the connection, and the remote takes the data. -/
def Succeeds (connID : UInt32) (s : Server) : HandlerMove → Prop
  | .lookup => (s.clients connID).isSome = true
  | .write _ ok => ok = true
  | _ => True

instance (connID : UInt32) (s : Server) : ∀ m, Decidable (Succeeds connID s m)
  | .lookup => inferInstanceAs (Decidable (_ = true))
  | .write _ _ => inferInstanceAs (Decidable (_ = true))
  | .dial _ | .closeRemote | .unregister | .receive | .emit _ _ | .cancel | .stop => isTrue trivial

section Serves

variable {cfg : Config} {connID : UInt32} {s s' : Server} {a : Act} {h c : Nat} {hd : Handler}
  {m : HandlerMove} {payload : Bytes}

/-- The step of a handler at its lookup. -/
theorem lookup_move (hs : Step cfg s (.handler h m) s') (hh : s.handlers[h]? = some hd)
    (hpc : hd.pc = .dataLookup connID payload) :
    m = .lookup ∧ ((s.clients connID = none ∧ s' = s.setHandler h (.reply statusOk)) ∨
      ∃ c, s.clients connID = some c ∧
        s' = s.setHandler h (.at (.dataWrite connID payload c))) := by
  have hstep := hs.enabled
  cases m <;> simp only [step, hh, handlerStep, hpc, reduceCtorEq] at hstep
  refine ⟨rfl, ?_⟩
  cases hc : s.clients connID with
  | none =>
    simp only [Server.getClient, hc, Option.some.injEq] at hstep
    exact Or.inl ⟨rfl, hstep.symm⟩
  | some c =>
    simp only [Server.getClient, hc, Option.some.injEq] at hstep
    exact Or.inr ⟨c, rfl, hstep.symm⟩

/-- The step of a handler at its write. -/
theorem write_move (hs : Step cfg s (.handler h m) s') (hh : s.handlers[h]? = some hd)
    (hpc : hd.pc = .dataWrite connID payload c) :
    ∃ cc, s.conns[c]? = some cc ∧
      ((m = .write payload.length true ∧
          s' = (s.setConn c { cc with written := cc.written ++ [(h, payload)] }).setHandler h
            (.reply statusOk)) ∨
        ∃ n, m = .write n false ∧
          s' = (s.setConn c { cc with written := cc.written ++ [(h, payload.take n)] }).setHandler
            h (.at (.closeRemote connID c))) := by
  have hstep := hs.enabled
  cases m <;> simp only [step, hh, handlerStep, hpc, reduceCtorEq] at hstep
  rename_i n ok
  split at hstep
  · cases hstep
  · rename_i cc hcc
    refine ⟨cc, hcc, ?_⟩
    split at hstep
    · rename_i hn
      cases ok with
      | true =>
        obtain rfl := (hn.2 rfl).1
        simp only [↓reduceIte, List.take_length, Option.some.injEq] at hstep
        exact Or.inl ⟨rfl, hstep.symm⟩
      | false =>
        simp only [Bool.false_eq_true, ↓reduceIte, Option.some.injEq] at hstep
        exact Or.inr ⟨n, rfl, hstep.symm⟩
    · cases hstep

/-- A step of anyone else. -/
theorem Serves.frame (hserves : Serves connID s h payload) (hs : Step cfg s a s')
    (hother : ∀ m, a ≠ .handler h m) : Serves connID s' h payload := by
  have hsame := remoteWrites_frame hs hother
  cases hserves with
  | asked hh hpc hnone => exact .asked (handler_frame hs hother hh) hpc (hsame.trans hnone)
  | found hh hpc hnone => exact .found (handler_frame hs hother hh) hpc (hsame.trans hnone)
  | written hh hpc hone => exact .written (handler_frame hs hother hh) hpc (hsame.trans hone)

/-- The step of the handler itself. -/
theorem Serves.own (hserves : Serves connID s h payload)
    (hs : Step cfg s (.handler h m) s') (hok : Succeeds connID s m) :
    Serves connID s' h payload := by
  cases hserves with
  | asked hh hpc hnone =>
    obtain ⟨rfl, ⟨hgone, -⟩ | ⟨c, -, rfl⟩⟩ := lookup_move hs hh hpc
    · rw [Succeeds, hgone] at hok
      cases hok
    · exact .found (pool_set_self hh) rfl hnone
  | found hh hpc hnone =>
    obtain ⟨cc, hcc, ⟨-, rfl⟩ | ⟨n, rfl, -⟩⟩ := write_move hs hh hpc
    · exact .written (pool_set_self hh) rfl (remoteWrites_first hcc rfl rfl hnone)
    · cases hok
  | written hh hpc hone =>
    have hstep := hs.enabled
    rw [step_done hh hpc] at hstep
    cases hstep

theorem Serves.step (hserves : Serves connID s h payload) (hs : Step cfg s a s')
    (hok : ∀ m, a = .handler h m → Succeeds connID s m) : Serves connID s' h payload := by
  by_cases hown : ∃ m, a = .handler h m
  · obtain ⟨m, rfl⟩ := hown
    exact hserves.own hs (hok m rfl)
  · exact hserves.frame hs fun m hm => hown ⟨m, hm⟩

/-- A handler that has returned has written the whole batch, once. -/
theorem Serves.returned (hserves : Serves connID s h payload) (hdone : s.pcOf h = .done) :
    (∃ hd, s.handlers[h]? = some hd ∧ hd.pc = .done) ∧ s.remoteWrites h = [payload] := by
  cases hserves with
  | asked hh hpc _ => simp [Server.pcOf, hh, hpc] at hdone
  | found hh hpc _ => simp [Server.pcOf, hh, hpc] at hdone
  | written hh hpc hone => exact ⟨⟨_, hh, hpc⟩, hone⟩

/-- A handler that has returned stays where it is. -/
theorem returned_step (hh : s.handlers[h]? = some hd) (hpc : hd.pc = .done)
    (hs : Step cfg s a s') : s'.handlers[h]? = some hd := by
  refine handler_frame hs ?_ hh
  rintro m rfl
  have hstep := hs.enabled
  rw [step_done hh hpc] at hstep
  cases hstep

end Serves

/-! ## Delivery with other requests in between -/

/-- At its own steps handler `h` succeeds; the steps of others do not matter. -/
def Accepted (connID : UInt32) (h : Nat) (s : Server) (a : Act) : Prop :=
  ∀ m, a = .handler h m → Succeeds connID s m

/-- In a run that ends in `s`, handler `h` wrote exactly `data`, to a remote that was registered
under `connID`, and without an error. -/
structure DeliveredIn (connID : UInt32) (h : Nat) (data : Bytes) (acts : List Act) (s : Server) :
    Prop where
  succeeded : Act.handler h (.write data.length true) ∈ acts
  once : s.remoteWrites h = [data]
  registered : ∃ (c : Nat) (cc : ClientConn), s.conns[c]? = some cc ∧ cc.connID = connID ∧
    (h, data) ∈ cc.written

section Delivered

variable {cfg : Config} {connID : UInt32} {s s' t : Server} {a : Act} {h c : Nat} {hd : Handler}
  {m : HandlerMove} {payload : Bytes} {acts : List Act}

/-- A handler that has returned makes no step. -/
theorem accepted_of_returned (hh : s.handlers[h]? = some hd) (hpc : hd.pc = .done)
    (hrun : exec (step cfg) s acts = some t) :
    Meets (step cfg) (Accepted connID h) s acts := by
  induction acts generalizing s with
  | nil => trivial
  | cons a acts ih =>
    obtain ⟨s', hs, hrest⟩ := exec_cons_some.mp hrun
    refine (meets_cons_of_step hs).mpr ⟨?_, ih (returned_step hh hpc (step_cases hs)) hrest⟩
    rintro m rfl
    rw [step_done hh hpc] at hs
    cases hs

/-- A handler that is past its write does not write any more. -/
theorem no_write_run {n : Nat} {ok : Bool} (hh : s.handlers[h]? = some hd)
    (hno : hd.pc.canWrite = false) (hrun : exec (step cfg) s acts = some t) :
    Act.handler h (.write n ok) ∉ acts := by
  induction acts generalizing s hd with
  | nil => nofun
  | cons a acts ih =>
    obtain ⟨s', hs, hrest⟩ := exec_cons_some.mp hrun
    have hcase := step_cases hs
    intro hmem
    by_cases hown : ∃ m, a = .handler h m
    · obtain ⟨m, rfl⟩ := hown
      obtain ⟨gd, gd', hg, hset, hnext⟩ := handler_next hcase
      obtain rfl := Option.some.inj (hg.symm.trans hh)
      have hh' : s'.handlers[h]? = some gd' := by
        rw [hset]
        exact pool_set_self hh
      refine ih hh' (hnext.canWrite hno) hrest ((List.mem_cons.mp hmem).resolve_left ?_)
      -- no other place writes
      intro heq
      cases heq
      cases hcase with
      | wrote hg' hpc _ _ | writeFailed hg' hpc _ _ =>
        obtain rfl := Option.some.inj (hg'.symm.trans hh)
        rw [hpc] at hno
        cases hno
    · have hother : ∀ m, a ≠ .handler h m := fun m hm => hown ⟨m, hm⟩
      refine ih (handler_frame hcase hother hh) hno hrest ?_
      exact (List.mem_cons.mp hmem).resolve_left fun heq => hother _ heq.symm

/-- A handler that makes a successful write has succeeded in all its steps. -/
theorem Serves.accepted (hserves : Serves connID s h payload)
    (hrun : exec (Dpi.step cfg) s acts = some t)
    (hwrote : Act.handler h (.write payload.length true) ∈ acts) :
    Meets (Dpi.step cfg) (Accepted connID h) s acts := by
  induction acts generalizing s with
  | nil => cases hwrote
  | cons a acts ih =>
    obtain ⟨s', hs, hrest⟩ := exec_cons_some.mp hrun
    have hcase := step_cases hs
    rw [meets_cons_of_step hs]
    by_cases hown : ∃ m, a = .handler h m
    · obtain ⟨m, rfl⟩ := hown
      have hok : Succeeds connID s m → Accepted connID h s (.handler h m) := by
        intro hm m' heq
        cases heq
        exact hm
      have hserves' := hserves
      cases hserves with
      | asked hh hpc hnone =>
        obtain ⟨rfl, hfound⟩ := lookup_move hcase hh hpc
        have htail := (List.mem_cons.mp hwrote).resolve_left nofun
        rcases hfound with ⟨-, rfl⟩ | ⟨c, hc, -⟩
        · exact absurd htail (no_write_run (pool_set_self hh) rfl hrest)
        · have hm : Succeeds connID s .lookup := by
            rw [Succeeds, hc]
            rfl
          exact ⟨hok hm, ih (hserves'.own hcase hm) hrest htail⟩
      | found hh hpc hnone =>
        obtain ⟨cc, -, ⟨rfl, rfl⟩ | ⟨n, rfl, rfl⟩⟩ := write_move hcase hh hpc
        · exact ⟨hok rfl, accepted_of_returned (pool_set_self hh) rfl hrest⟩
        · have htail := (List.mem_cons.mp hwrote).resolve_left nofun
          exact absurd htail (no_write_run (pool_set_self hh) rfl hrest)
      | written hh hpc hone =>
        rw [step_done hh hpc] at hs
        cases hs
    · have hother : ∀ m, a ≠ .handler h m := fun m hm => hown ⟨m, hm⟩
      have htail : Act.handler h (.write payload.length true) ∈ acts :=
        (List.mem_cons.mp hwrote).resolve_left fun heq => hother _ heq.symm
      exact ⟨fun m hm => absurd hm (hother m), ih (hserves.frame hcase hother) hrest htail⟩

/-- A handler that succeeds in all its steps and returns has made its write. -/
theorem Serves.write_mem (hserves : Serves connID s h payload) (hnone : s.remoteWrites h = [])
    (hok : Meets (Dpi.step cfg) (Accepted connID h) s acts)
    (hrun : exec (Dpi.step cfg) s acts = some t) (hdone : t.pcOf h = .done) :
    Act.handler h (.write payload.length true) ∈ acts := by
  induction acts generalizing s with
  | nil =>
    cases hrun
    rw [(hserves.returned hdone).2] at hnone
    cases hnone
  | cons a acts ih =>
    obtain ⟨s', hs, hrest⟩ := exec_cons_some.mp hrun
    obtain ⟨hhead, htail⟩ := (meets_cons_of_step hs).mp hok
    have hcase := step_cases hs
    have hserves' := hserves.step hcase hhead
    cases hserves' with
    | asked _ _ hnone' | found _ _ hnone' =>
      exact List.mem_cons_of_mem _ (ih (hserves.step hcase hhead) hnone' htail hrest)
    | written _ _ hone =>
      -- only the write itself changes what the handler has written
      by_cases hown : ∃ m, a = .handler h m
      · obtain ⟨m, rfl⟩ := hown
        cases hserves with
        | asked hh hpc _ =>
          have hsame : s'.remoteWrites h = s.remoteWrites h := by
            obtain ⟨-, ⟨-, rfl⟩ | ⟨c, -, rfl⟩⟩ := lookup_move hcase hh hpc <;> rfl
          rw [hsame, hnone] at hone
          cases hone
        | found hh hpc _ =>
          obtain ⟨-, -, ⟨rfl, -⟩ | ⟨n, rfl, -⟩⟩ := write_move hcase hh hpc
          · exact List.mem_cons_self
          · cases hhead _ rfl
        | written _ _ hone' =>
          rw [hone'] at hnone
          cases hnone
      · rw [remoteWrites_frame hcase fun m hm => hown ⟨m, hm⟩, hnone] at hone
        cases hone

/-- Handler `h` writes to connections with the id of its request only. -/
def WritesTo (connID : UInt32) (h : Nat) (s : Server) : Prop :=
  ∀ (c : Nat) (cc : ClientConn) (bytes : Bytes), s.conns[c]? = some cc →
    (h, bytes) ∈ cc.written → cc.connID = connID

theorem WritesTo.step (hto : WritesTo connID h s) (hwf : WellFormed s)
    (hserves : Serves connID s h payload) (hs : Step cfg s a s') : WritesTo connID h s' := by
  intro c cc' bytes hcc' hmem
  rcases written_step hs hcc' hmem with ⟨cc, hcc, hold⟩ | ⟨hd, id, data, hh, hpc, -⟩
  · obtain ⟨cc₁, hcc₁, hev⟩ := conn_evolves hs hcc
    obtain rfl := Option.some.inj (hcc₁.symm.trans hcc')
    rw [hev.connID]
    exact hto c cc bytes hcc hold
  · -- a new write is by a handler that has found its connection
    have hid : id = connID := by
      cases hserves with
      | asked hg hpc' _ | found hg hpc' _ | written hg hpc' _ =>
        obtain rfl := Option.some.inj (hg.symm.trans hh)
        rw [hpc] at hpc'
        cases hpc' <;> rfl
    subst hid
    obtain ⟨cc₁, hcc₁, hconn⟩ := (hwf.target h hd id c hh (by rw [hpc]; rfl)).step hs
    obtain rfl := Option.some.inj (hcc₁.symm.trans hcc')
    exact hconn

/-- However the requests interleave: once the handler of a request that decodes as data for an id
has returned, it has delivered the data if and only if it found the id registered at its lookup, and
the remote took the data at its write. -/
theorem deliveredIn_iff {before : List Act} {r : Request} {data : Bytes}
    (hbefore : exec (step cfg) .new before = some s) (hdec : Decodes cfg r connID data)
    (hrun : exec (step cfg) (asked cfg s r) acts = some t)
    (hdone : t.pcOf s.handlers.length = .done) :
    DeliveredIn connID s.handlers.length data acts t ↔
      Meets (step cfg) (Accepted connID s.handlers.length) (asked cfg s r) acts := by
  have hrequest : Step cfg s (.request r) (asked cfg s r) := .request r
  have hsigned := signed_run hbefore
  have hnone : (asked cfg s r).remoteWrites s.handlers.length = [] :=
    hsigned.remoteWrites_new (Nat.le_refl _)
  have hserves : Serves connID (asked cfg s r) s.handlers.length data :=
    .asked asked_handler hdec hnone
  constructor
  · intro hdel
    exact hserves.accepted hrun hdel.succeeded
  · intro hok
    -- the places of the handler, and where it writes to
    have hinv : WellFormed t ∧ Serves connID t s.handlers.length data ∧
        WritesTo connID s.handlers.length t := by
      refine exec_invariant (I := fun t => WellFormed t ∧ Serves connID t s.handlers.length data ∧
        WritesTo connID s.handlers.length t) ?_ acts _ t ?_ hok hrun
      · rintro t₁ a t₂ ⟨hwf, hserves, hto⟩ hacc hs
        have hcase := step_cases hs
        exact ⟨hwf.step hcase, hserves.step hcase hacc, hto.step hwf hserves hcase⟩
      · refine ⟨(wellFormed_run hbefore).step hrequest, hserves, ?_⟩
        intro c cc bytes hcc hmem
        exact absurd (hsigned c cc _ bytes hcc hmem) (Nat.lt_irrefl _)
    obtain ⟨-, hserves', hto⟩ := hinv
    have hone := (hserves'.returned hdone).2
    refine ⟨hserves.write_mem hnone hok hrun hdone, hone, ?_⟩
    obtain ⟨cc, hcc, hmem⟩ : ∃ cc ∈ t.conns, data ∈ cc.writtenBy s.handlers.length := by
      rw [← List.mem_flatMap, ← Server.remoteWrites, hone]
      exact List.mem_singleton_self data
    obtain ⟨⟨g, bytes⟩, hentry, heq⟩ := List.mem_filterMap.mp hmem
    split at heq <;> cases heq
    rename_i hg
    cases hg
    obtain ⟨c, hc⟩ := List.mem_iff_getElem?.mp hcc
    exact ⟨c, cc, hc, hto c cc _ hc hentry, hentry⟩

end Delivered

/-! ## The upload path -/

/-- A `tunnelConn` and the server, and for each batch that got there its handler. -/
structure Datagrams where
  client : TunnelWriter
  server : Server
  /-- The number of the batch, and its handler. -/
  uploads : List (Nat × Nat)

namespace Datagrams

/-- `newTunnelConn`, with the server in the state that `Connect` has left. -/
def new (server : Server) : Datagrams := ⟨.new, server, []⟩

/-- The number of the batch that `SendData` works on. -/
def current (d : Datagrams) : Nat := d.client.batches.length - 1

/-- The current batch has got to the server, and its handler has returned. -/
def replied (d : Datagrams) : Bool :=
  d.uploads.any fun u => u.1 = d.current ∧ d.server.pcOf u.2 = .done

inductive Act where
  /-- a step of the client; a request that goes out in it does not get to the server -/
  | client (a : TunnelWriter.Act)
  /-- the request of `SendData` goes out and gets to the server -/
  | deliver (nonce : Nonce)
  /-- a step of the server, for this client or for others -/
  | server (a : Dpi.Act)
  deriving DecidableEq

/-- The server gets the request of the current batch. -/
def arrive (cfg : Config) (connID : UInt32) (nonce : Nonce) (d : Datagrams) (c : TunnelWriter) :
    Datagrams :=
  let r := sendDataRequest cfg.encryptor nonce connID d.client.batch
  { client := c
    server := { d.server with handlers := d.server.handlers ++ [Dpi.start cfg r] }
    uploads := d.uploads ++ [(d.current, d.server.handlers.length)] }

def step (cfg : Config) (connID : UInt32) (d : Datagrams) : Act → Option Datagrams
  | .client a =>
      -- without an error there is a response; nobody in between answers for the handler
      if a = .pump (.reply none) ∧ d.replied = false then none
      else (TunnelWriter.step d.client a).map fun c => { d with client := c }
  | .deliver nonce =>
      (TunnelWriter.step d.client (.pump .issue)).map fun c => d.arrive cfg connID nonce c
  | .server a => (Dpi.step cfg d.server a).map fun s => { d with server := s }

/-- The cases of a step. -/
inductive Step (cfg : Config) (connID : UInt32) (d : Datagrams) : Act → Datagrams → Prop where
  | client {a c} (hreply : a = .pump (.reply none) → d.replied = true)
      (hs : TunnelWriter.Step d.client a c) : Step cfg connID d (.client a) { d with client := c }
  | delivered {nonce c} (hs : TunnelWriter.Step d.client (.pump .issue) c) :
      Step cfg connID d (.deliver nonce) (d.arrive cfg connID nonce c)
  | served {a s} (hs : Dpi.Step cfg d.server a s) :
      Step cfg connID d (.server a) { d with server := s }

variable {cfg : Config} {connID : UInt32} {d d' : Datagrams} {a : Act}

theorem step_cases (h : step cfg connID d a = some d') : Step cfg connID d a d' := by
  cases a with
  | client a =>
    simp only [step] at h
    split at h
    · cases h
    · rename_i hreply
      obtain ⟨c, hc, rfl⟩ := Option.map_eq_some_iff.mp h
      refine .client (fun ha => ?_) (TunnelWriter.step_cases hc)
      cases hr : d.replied with
      | true => rfl
      | false => exact absurd ⟨ha, hr⟩ hreply
  | deliver nonce =>
    obtain ⟨c, hc, rfl⟩ := Option.map_eq_some_iff.mp h
    exact .delivered (TunnelWriter.step_cases hc)
  | server a =>
    obtain ⟨s, hs, rfl⟩ := Option.map_eq_some_iff.mp h
    exact .served (Dpi.step_cases hs)

/-- The calls of `remote.Write` that come of the batches with request `k`. -/
def caused (d : Datagrams) (k : Nat) : List Bytes :=
  (d.uploads.filter fun u => d.client.batches[u.1]?.any fun b => k ∈ b.reqs).flatMap fun u =>
    d.server.remoteWrites u.2

/-- Every datagram whose `Write` has returned success was one call of `remote.Write`. -/
def BoundariesKept (d : Datagrams) : Prop :=
  ∀ (k : Nat) (w : WriteCall) (n : Nat), d.client.writes[k]? = some w → w.data ≠ [] →
    w.stage = .returned (.ok n) → d.caused k = [w.data]

/-- `pumpWrite` receives a request only with an empty batch; the handler of a batch finds its
connection, and the remote takes the data. -/
def Alone (connID : UInt32) (d : Datagrams) : Act → Prop
  | .client (.pump .recv) => d.client.acks = []
  | .server (.handler h m) => h ∈ d.uploads.map Prod.snd → Succeeds connID d.server m
  | _ => True

instance (connID : UInt32) (d : Datagrams) : ∀ a, Decidable (Alone connID d a)
  | .client (.pump .recv) => inferInstanceAs (Decidable (_ = _))
  | .server (.handler _ _) => inferInstanceAs (Decidable (_ → _))
  | .client (.pump .tick) | .client (.pump .closed) | .client (.pump .issue)
  | .client (.pump (.reply _)) | .client (.pump .ack) | .client (.pump .flushed)
  | .client (.pump .leave) | .client (.write _) | .client (.enqueue _) | .client (.refuse _)
  | .client (.collect _) | .client (.abandon _) | .client .fire | .client .close
  | .client (.closer _ _) | .deliver _ | .server (.request _) | .server (.reader _ _)
  | .server .shutdown => isTrue trivial

/-! ## What the client's steps leave -/

section Client

variable {s s' : TunnelWriter} {a : TunnelWriter.Act}

/-- No batch has two requests. -/
structure Single (s : TunnelWriter) : Prop where
  acks : s.acks.length ≤ 1
  batches : ∀ b ∈ s.batches, b.reqs.length ≤ 1

theorem Single.take (h : Single s) (hempty : s.acks = []) (k : Nat) (ch : Chan 64 Nat) :
    Single (s.take k ch) where
  acks := by simp [TunnelWriter.take, hempty]
  batches := h.batches

theorem Single.sendBatch (h : Single s) (last : Bool) : Single (s.sendBatch last) where
  acks := h.acks
  batches := by
    intro b hb
    rcases List.mem_append.mp hb with hold | hnew
    · exact h.batches b hold
    · rw [List.mem_singleton.mp hnew]
      exact h.acks

theorem Single.step (h : Single s) (hstep : TunnelWriter.Step s a s')
    (hok : a = .pump .recv → s.acks = []) : Single s' := by
  cases hstep with
  | took => exact h.take (hok rfl) _ _
  | @tookFirst k ch => exact ⟨(h.take (hok rfl) k ch).acks, h.batches⟩
  | tookFull => exact (h.take (hok rfl) _ _).sendBatch false
  | ticked => exact (⟨h.acks, h.batches⟩ : Single { s with timer := .spent }).sendBatch false
  | flushLast => exact h.sendBatch true
  | flushedOk | flushedErr => exact ⟨Nat.zero_le 1, h.batches⟩
  | wrote | enqueued | refused | collected | abandoned | fired | tickedEmpty | stopped | issuedData
  | replied | acknowledged | left | closeCalls | entered | passed | closedCh | closedConn
  | closeReplied | closedReader => exact ⟨h.acks, h.batches⟩

/-- A result is that of a `SendData` that returns in this step. -/
theorem results_step (hstep : TunnelWriter.Step s a s') :
    s'.results = s.results ∨
      ∃ err, a = .pump (.reply err) ∧ s'.results = s.results ++ [err] ∧ s.inSendData = true := by
  cases hstep with
  | replied hpc => exact Or.inr ⟨_, rfl, rfl, by simp [TunnelWriter.inSendData, hpc]⟩
  | _ => exact Or.inl rfl

/-- `SendData` has been called before, or is called now with a new batch. -/
theorem sending_step {last : Bool} (hstep : TunnelWriter.Step s a s')
    (hpc' : s'.pump = .sending false last) :
    (s.pump = .sending false last ∧ s'.batches = s.batches) ∨ ∃ b, s'.batches = s.batches ++ [b] := by
  cases hstep with
  | tookFull | ticked | flushLast => exact Or.inr ⟨_, rfl⟩
  | flushedOk _ _ hnext => rcases hnext with rfl | rfl <;> cases hpc'
  | _ =>
    first
    | exact Or.inl ⟨hpc', rfl⟩
    | cases hpc'

end Client

/-! ## The whole path -/

/-- What every state of a careful run satisfies. -/
structure Tracked (connID : UInt32) (d : Datagrams) : Prop where
  batched : d.client.Batched
  single : Single d.client
  signed : Signed d.server
  /-- The handler of a batch works on its bytes. -/
  upload : ∀ j h, (j, h) ∈ d.uploads →
    ∃ b, d.client.batches[j]? = some b ∧ Serves connID d.server h b.payload
  /-- A batch has one handler. -/
  unique : (d.uploads.map Prod.fst).Nodup
  fresh : ∀ last, d.client.pump = .sending false last →
    ∀ u ∈ d.uploads, u.1 + 1 < d.client.batches.length
  /-- Without an error, the handler has returned. -/
  answered : ∀ j, d.client.results[j]? = some none →
    ∃ h hd, (j, h) ∈ d.uploads ∧ d.server.handlers[h]? = some hd ∧ hd.pc = .done

theorem tracked_new {server : Server} (hsigned : Signed server) :
    Tracked connID (new server) where
  batched := TunnelWriter.batched_new
  single := ⟨Nat.zero_le 1, nofun⟩
  signed := hsigned
  upload := nofun
  unique := List.nodup_nil
  fresh := nofun
  answered := nofun

/-- The number of the batch that `SendData` works on is that of its result. -/
theorem current_eq (hl : d.client.Ledger) (hin : d.client.inSendData = true) :
    d.current = d.client.results.length := by
  have hlen := hl.results
  rw [hin] at hlen
  rw [current, ← hlen]
  rfl

/-- The batch that `SendData` works on is the last one. -/
theorem Tracked.current_batch (ht : Tracked connID d) (hbusy : d.client.busy = true) :
    d.client.batches[d.current]? = some ⟨d.client.acks, d.client.batch⟩ := by
  obtain ⟨earlier, hbatches⟩ := ht.batched.ledger.current hbusy
  have hcur : d.current = earlier.length := by simp [current, hbatches]
  rw [hcur, hbatches]
  exact pool_snoc_new

/-- A batch whose request is not out has no handler. -/
theorem Tracked.current_new {last : Bool} (ht : Tracked connID d)
    (hpc : d.client.pump = .sending false last) : d.current ∉ d.uploads.map Prod.fst := by
  intro hmem
  obtain ⟨u, hu, hcur⟩ := List.mem_map.mp hmem
  have hlt := ht.fresh last hpc u hu
  rw [current] at hcur
  omega

/-- Once there is a response, the handler of the batch has returned. -/
theorem Tracked.replied (ht : Tracked connID d) (hreplied : d.replied = true) :
    ∃ h hd, (d.current, h) ∈ d.uploads ∧ d.server.handlers[h]? = some hd ∧ hd.pc = .done := by
  obtain ⟨u, hu, hcond⟩ := List.any_eq_true.mp hreplied
  obtain ⟨hcur, hdone⟩ := of_decide_eq_true hcond
  obtain ⟨b, -, hserves⟩ := ht.upload u.1 u.2 hu
  obtain ⟨⟨hd, hh, hpc⟩, -⟩ := hserves.returned hdone
  exact ⟨u.2, hd, hcur ▸ hu, hh, hpc⟩

theorem Tracked.client {c : TunnelWriter} {a : TunnelWriter.Act} (ht : Tracked connID d)
    (hreply : a = .pump (.reply none) → d.replied = true)
    (hok : a = .pump .recv → d.client.acks = []) (hs : TunnelWriter.Step d.client a c) :
    Tracked connID { d with client := c } := by
  obtain ⟨hbatches, -, -⟩ := TunnelWriter.logs_step hs
  refine ⟨ht.batched.step hs, ht.single.step hs hok, ht.signed, ?_, ht.unique, ?_, ?_⟩
  · intro j h hmem
    obtain ⟨b, hb, hserves⟩ := ht.upload j h hmem
    exact ⟨b, pool_grown hbatches hb, hserves⟩
  · intro last hpc u hu
    rcases sending_step hs hpc with ⟨hpc₀, hsame⟩ | ⟨b, hnew⟩
    · show u.1 + 1 < c.batches.length
      rw [hsame]
      exact ht.fresh last hpc₀ u hu
    · obtain ⟨b', hb', -⟩ := ht.upload u.1 u.2 hu
      have hlt := (List.getElem?_eq_some_iff.mp hb').1
      show u.1 + 1 < c.batches.length
      rw [hnew, List.length_append]
      exact Nat.succ_lt_succ hlt
  · intro j hj
    change c.results[j]? = some none at hj
    rcases results_step hs with hsame | ⟨err, rfl, hnew, hin⟩
    · rw [hsame] at hj
      exact ht.answered j hj
    · rw [hnew] at hj
      rcases pool_snoc_some hj with hold | ⟨rfl, rfl⟩
      · exact ht.answered j hold
      · rw [← current_eq ht.batched.ledger hin]
        exact ht.replied (hreply rfl)

theorem Tracked.deliver {c : TunnelWriter} (ht : Tracked connID d)
    (hs : TunnelWriter.Step d.client (.pump .issue) c) (nonce : Nonce) :
    Tracked connID (d.arrive cfg connID nonce c) := by
  have hbatched := ht.batched.step hs
  have hrequest : Dpi.Step cfg d.server (.request _) (d.arrive cfg connID nonce c).server := .request _
  cases hs with
  | @issuedData last hpc =>
    refine ⟨hbatched, ⟨ht.single.acks, ht.single.batches⟩, ht.signed.step hrequest, ?_, ?_,
      by simp [arrive], ?_⟩
    · intro j h hmem
      rcases List.mem_append.mp hmem with hold | hnew
      · obtain ⟨b, hb, hserves⟩ := ht.upload j h hold
        exact ⟨b, hb, hserves.frame hrequest (by simp)⟩
      · cases List.mem_singleton.mp hnew
        refine ⟨_, ht.current_batch (by simp [TunnelWriter.busy, hpc]), ?_⟩
        refine .asked pool_snoc_new ?_ (ht.signed.remoteWrites_new (Nat.le_refl _))
        rw [start_sendDataRequest]
        rfl
    · show ((d.uploads ++ [_]).map Prod.fst).Nodup
      rw [List.map_append]
      exact List.nodup_append_comm.mp (List.nodup_cons.mpr ⟨ht.current_new hpc, ht.unique⟩)
    · intro j hj
      obtain ⟨h, hd, hmem, hh, hpc'⟩ := ht.answered j hj
      exact ⟨h, hd, List.mem_append_left _ hmem, returned_step hh hpc' hrequest, hpc'⟩

theorem Tracked.serve {s : Server} {a : Dpi.Act} (ht : Tracked connID d)
    (hok : ∀ h m, a = .handler h m → h ∈ d.uploads.map Prod.snd → Succeeds connID d.server m)
    (hs : Dpi.Step cfg d.server a s) : Tracked connID { d with server := s } := by
  refine ⟨ht.batched, ht.single, ht.signed.step hs, ?_, ht.unique, ht.fresh, ?_⟩
  · intro j h hmem
    obtain ⟨b, hb, hserves⟩ := ht.upload j h hmem
    exact ⟨b, hb, hserves.step hs fun m ha => hok h m ha (List.mem_map.mpr ⟨_, hmem, rfl⟩)⟩
  · intro j hj
    obtain ⟨h, hd, hmem, hh, hpc⟩ := ht.answered j hj
    exact ⟨h, hd, hmem, returned_step hh hpc hs, hpc⟩

theorem Tracked.step (ht : Tracked connID d) (hok : Alone connID d a)
    (hs : Step cfg connID d a d') : Tracked connID d' := by
  cases hs with
  | client hreply hs =>
    refine ht.client hreply ?_ hs
    rintro rfl
    exact hok
  | delivered hs => exact ht.deliver hs _
  | served hs =>
    refine ht.serve ?_ hs
    rintro h m rfl
    exact hok

/-- A request is in one batch. -/
theorem batch_unique {s : TunnelWriter} (h : s.Batched) {i j k : Nat} {b b' : Batch}
    (hi : s.batches[i]? = some b) (hj : s.batches[j]? = some b') (hk : k ∈ b.reqs)
    (hk' : k ∈ b'.reqs) : i = j := by
  have hnodup := h.queued.nodup.of_append_left
  rw [h.ledger.order] at hnodup
  obtain ⟨-, hdisjoint⟩ := List.nodup_flatMap.mp hnodup.of_append_left
  rw [List.pairwise_iff_getElem] at hdisjoint
  obtain ⟨hi', rfl⟩ := List.getElem?_eq_some_iff.mp hi
  obtain ⟨hj', rfl⟩ := List.getElem?_eq_some_iff.mp hj
  rcases Nat.lt_trichotomy i j with hlt | heq | hlt
  · exact absurd hk' (hdisjoint i j hi' hj' hlt hk)
  · exact heq
  · exact absurd hk (hdisjoint j i hj' hi' hlt hk')

/-- What a datagram whose `Write` has returned success has caused. -/
theorem Tracked.boundariesKept (ht : Tracked connID d) : d.BoundariesKept := by
  intro k w n hk _ hstage
  obtain ⟨-, j, b, hb, hmem, hresult⟩ := ht.batched.fate hk hstage
  obtain ⟨h, hd, hup, hh, hpc⟩ := ht.answered j hresult
  obtain ⟨b', hb', hserves⟩ := ht.upload j h hup
  rw [hb] at hb'
  cases hb'
  have hwrites := (hserves.returned (by simp [Server.pcOf, hh, hpc])).2
  have honly : d.uploads.filter (fun u => d.client.batches[u.1]?.any fun b => k ∈ b.reqs) =
      [(j, h)] := by
    refine pool_filter_key ht.unique hup fun u hu => ?_
    obtain ⟨b', hb', -⟩ := ht.upload u.1 u.2 hu
    rw [hb']
    refine ⟨fun hin => ?_, fun heq => ?_⟩
    · exact batch_unique ht.batched hb' hb (of_decide_eq_true hin) hmem
    · rw [heq, hb] at hb'
      cases hb'
      exact decide_eq_true hmem
  -- the datagram is alone in its batch
  have hpayload : b.payload = w.data := by
    obtain ⟨k', hreqs⟩ := List.length_eq_one_iff.mp (Nat.le_antisymm
      (ht.single.batches b (List.mem_of_getElem? hb)) (List.length_pos_of_mem hmem))
    obtain rfl : k = k' := by simpa [hreqs] using hmem
    rw [ht.batched.filled.payload b (List.mem_of_getElem? hb), hreqs, List.flatMap_singleton]
    simp [TunnelWriter.dataOf, hk]
  rw [caused, honly, List.flatMap_singleton, hwrites, hpayload]

/-- If `pumpWrite` never receives a request while another one waits in the batch, and the server finds
the connection of every batch and its remote takes it, then every datagram whose `Write` returns
success is exactly one call of `remote.Write`, with its bytes. -/
theorem datagrams_kept (cfg : Config) (connID : UInt32) (before : List Dpi.Act) (server : Server)
    (hbefore : exec (Dpi.step cfg) .new before = some server) (acts : List Act) (d : Datagrams)
    (hok : Meets (step cfg connID) (Alone connID) (new server) acts)
    (hrun : exec (step cfg connID) (new server) acts = some d) : d.BoundariesKept := by
  have ht : Tracked connID d :=
    exec_invariant (fun _ _ _ hi ha hs => Tracked.step hi ha (step_cases hs)) acts _ d
      (tracked_new (signed_run hbefore)) hok hrun
  exact ht.boundariesKept

/-! ## Two datagrams -/

/-- Id 1 connects to a `udp` target. -/
def connectUdp : List Dpi.Act :=
  [.request (connectRequest Config.plain.encryptor .zero 1 ⟨udp, [97]⟩), .handler 0 (.dial true)]

/-- The server once id 1 is connected. -/
def connectedUdp : Server :=
  { clients := Function.update (fun _ => none) 1 (some 0)
    conns := [.dialed 1 ⟨udp, [97]⟩ 0]
    handlers := [.reply (connected 1)]
    stopped := false }

theorem exec_connectUdp : exec (Dpi.step .plain) .new connectUdp = some connectedUdp := by
  have hstart : start .plain (connectRequest Config.plain.encryptor .zero 1 ⟨udp, [97]⟩) =
      .at (.dial 1 ⟨udp, [97]⟩) := by decide +kernel
  have hrequest : Dpi.step .plain .new
      (.request (connectRequest Config.plain.encryptor .zero 1 ⟨udp, [97]⟩)) =
        some { Server.new with handlers := [.at (.dial 1 ⟨udp, [97]⟩)] } := by
    rw [Dpi.step, hstart]
    rfl
  exact exec_cons_some.mpr ⟨_, hrequest, rfl⟩

/-- A batch of `n` bytes goes out, handler `h` writes it, and `SendData` returns. -/
def sendOne (h n : Nat) : List Act :=
  [.client .fire, .client (.pump .tick), .deliver .zero, .server (.handler h .lookup),
    .server (.handler h (.write n true)), .client (.pump (.reply none))]

/-- A call of `Write` is queued, and `pumpWrite` receives its request. -/
def queueOne (k : Nat) (b : Bytes) : List Act :=
  [.client (.write b), .client (.enqueue k), .client (.pump .recv)]

/-- The acknowledgement of the only call in the batch. -/
def ackOne (k : Nat) : List Act :=
  [.client (.pump .ack), .client (.pump .flushed), .client (.collect k)]

/-- Two calls of `Write`, one after the other. -/
def oneByOne : List Act :=
  queueOne 0 [1] ++ sendOne 1 1 ++ ackOne 0 ++ queueOne 1 [2] ++ sendOne 2 1 ++ ackOne 1

/-- Two calls of `Write`, the second before the batch of the first goes out. -/
def atOnce : List Act :=
  queueOne 0 [1] ++ queueOne 1 [2] ++ sendOne 1 2 ++ .client (.pump .ack) :: ackOne 0 ++
    ([.client (.collect 1)] : List Act)

theorem datagrams_kept_one_by_one :
    ∃ d, exec (step .plain 1) (new connectedUdp) oneByOne = some d ∧
      d.client.writes.map WriteCall.stage = [.returned (.ok 1), .returned (.ok 1)] ∧
      d.BoundariesKept := by
  apply exec_reaches (P := fun d : Datagrams =>
    d.client.writes.map WriteCall.stage = [.returned (.ok 1), .returned (.ok 1)])
  · decide +kernel
  · intro d hd hstages
    exact ⟨hstages, datagrams_kept .plain 1 connectUdp connectedUdp exec_connectUdp oneByOne d
      (by decide +kernel) hd⟩

/-- Both calls return success, and the remote gets one datagram of two bytes. -/
theorem datagrams_merged :
    ∃ d, exec (step .plain 1) (new connectedUdp) atOnce = some d ∧
      d.client.writes.map WriteCall.stage = [.returned (.ok 1), .returned (.ok 1)] ∧
      d.server.remoteWrites 1 = [[1, 2]] ∧ ¬ d.BoundariesKept := by
  apply exec_reaches (P := fun d : Datagrams =>
    d.client.writes[0]? = some ⟨[1], .returned (.ok 1), [none]⟩ ∧ d.caused 0 = [[1, 2]] ∧
      d.client.writes.map WriteCall.stage = [.returned (.ok 1), .returned (.ok 1)] ∧
      d.server.remoteWrites 1 = [[1, 2]])
  · decide +kernel
  · rintro d - ⟨hwrite, hcaused, hstages, hremote⟩
    refine ⟨hstages, hremote, fun hkept => ?_⟩
    rw [hkept 0 _ 1 hwrite (by decide) rfl] at hcaused
    exact absurd hcaused (by decide)

end Datagrams

end PTBridge.Dpi
