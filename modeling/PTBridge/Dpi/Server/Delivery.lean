import PTBridge.Dpi.Server.Release

/-!
# What a download carries

After a successful `Connect` the reader goroutine moves chunks from the remote into `dataCh`, and
the client's one download moves them on. The reader also removes the connection from the table
when it ends, and a download that comes later finds nothing.

- `undisturbed` are the circumstances: one download for the connection, nobody closes it, no
  cancellation, no failed response write, no server stop.
- `finds` is the condition that decides: the lookup of the download comes before the reader's own
  `unregisterClient`.
- `Ledger` is the invariant: what was written, what is in hand and what is queued is together what
  was read, in order.
- `download_carries_all` is the result over every such run, `download_after_eof_is_empty` a run
  without the condition.
-/

namespace PTBridge.Dpi

open PTBridge.Stream PTBridge.Container PTBridge.Transition

/-! ## Circumstances -/

/-- The step leaves connection `c` and the download `h` of `connID` to themselves. -/
def undisturbed (connID : UInt32) (c h : Nat) (s : Server) : Act → Bool
  | .request r => decide (s.handlers.length = h → r = downloadRequest connID)
  -- no second download of the connection
  | .handler g .lookup =>
      match s.pcOf g with
      | .downLookup id => decide (g = h ∨ s.clients id ≠ some c)
      | _ => true
  -- no handler closes its remote
  | .handler g .closeRemote =>
      match s.pcOf g with
      | .closeRemote _ d => decide (d ≠ c)
      | _ => true
  | .handler g .cancel => decide (g ≠ h)
  | .handler g (.emit rand ok) => decide (g = h → rand ≠ none ∧ ok = true)
  | .shutdown => false
  | _ => true

/-- The lookup of download `h`, if this step is it, finds the connection still registered. -/
def finds (connID : UInt32) (c h : Nat) (s : Server) (a : Act) : Bool :=
  decide (a = .handler h .lookup → s.clients connID = some c)

/-- The condition on the steps after the `Connect`. -/
def Orderly (connID : UInt32) (c h : Nat) (s : Server) (a : Act) : Prop :=
  undisturbed connID c h s a = true ∧ finds connID c h s a = true

instance (connID : UInt32) (c h : Nat) (s : Server) (a : Act) : Decidable (Orderly connID c h s a) :=
  inferInstanceAs (Decidable (_ ∧ _))

/-! ## The ledger -/

/-- The reader goroutine has closed its channel. -/
def ReaderPc.ended : ReaderPc → Bool
  | .closingRemote => true
  | .unregistering => true
  | .exited => true
  | _ => false

/-- The chunks a download has taken, with the one it has not written yet. -/
def Handler.taken (hd : Handler) : List Bytes := hd.sent.map Prod.snd ++ hd.pc.hand

/-- Where the download of `connID` can be while it is served from `cc`. -/
def Handler.Phase (connID : UInt32) (c : Nat) (cc : ClientConn) (hd : Handler) : Prop :=
  hd = .at (.downLookup connID) ∨
    hd.response = some streaming ∧
      (hd.pc = .downLoop connID c ∨ (∃ data, hd.pc = .downWrite connID c data) ∨
        hd.pc = .done ∧ cc.dataCh.buf = [] ∧ cc.dataCh.closed = true)

/-- The books of connection `cc` and of its download, if it was asked for. -/
structure Accounts (connID : UInt32) (c : Nat) (cc : ClientConn) (g : Option Handler) : Prop where
  ended : cc.dataCh.closed = cc.reader.ended
  /-- Only the reader itself closes the remote, after its end. -/
  opened : cc.remoteClosed = true → cc.reader.ended = true
  balance : (g.map Handler.taken).getD [] ++ cc.dataCh.buf ++ cc.reader.hand = cc.received
  phase : ∀ hd, g = some hd → hd.Phase connID c cc

structure Ledger (connID : UInt32) (c h : Nat) (s : Server) : Prop where
  running : s.stopped = false
  conn : ∃ cc, s.conns[c]? = some cc ∧ Accounts connID c cc s.handlers[h]?
  sole : ∀ (g : Nat) (gd : Handler), g ≠ h → s.handlers[g]? = some gd → gd.pc.drains c = false

section Steps

variable {cfg : Config} {connID : UInt32} {c h g d : Nat} {s s' : Server} {a : Act}
  {hd gd gd' : Handler} {cc cc' dd dd' : ClientConn}

/-- A download that works on a connection works on this one, under this id. -/
theorem Ledger.own_target (hL : Ledger connID c h s) (hh : s.handlers[h]? = some hd) {id : UInt32}
    (ht : hd.pc.target = some (id, d)) :
    id = connID ∧ d = c ∧ hd.response = some streaming := by
  obtain ⟨cc, -, hacc⟩ := hL.conn
  rcases hacc.phase hd hh with rfl | ⟨hresp, hloop | ⟨data, hwrite⟩ | ⟨hdone, -⟩⟩
  · cases ht
  · rw [hloop] at ht
    cases ht
    exact ⟨rfl, rfl, hresp⟩
  · rw [hwrite] at ht
    cases ht
    exact ⟨rfl, rfl, hresp⟩
  · rw [hdone] at ht
    cases ht

/-- A step of another handler that does not start to drain the connection. -/
theorem Ledger.setHandler_other (hL : Ledger connID c h s) (hne : g ≠ h)
    (hdr : gd'.pc.drains c = false) : Ledger connID c h (s.setHandler g gd') where
  running := hL.running
  conn := by
    obtain ⟨cc, hcc, hacc⟩ := hL.conn
    refine ⟨cc, hcc, ?_⟩
    rw [Server.setHandler_handlers, List.getElem?_set_ne hne]
    exact hacc
  sole k kd hk hkd := by
    rcases pool_set_some hkd with ⟨rfl, rfl⟩ | ⟨-, hold⟩
    · exact hdr
    · exact hL.sole k kd hk hold

/-- A step of the download itself, on its connection. -/
theorem Ledger.setBoth_own (hL : Ledger connID c h s) (hh : s.handlers[h]? = some hd)
    (hcc : s.conns[c]? = some cc)
    (hacc : Accounts connID c cc (some hd) → Accounts connID c cc' (some gd')) :
    Ledger connID c h ((s.setConn c cc').setHandler h gd') where
  running := hL.running
  conn := by
    obtain ⟨dd, hdd, hold⟩ := hL.conn
    rw [hcc] at hdd
    cases hdd
    rw [hh] at hold
    refine ⟨cc', pool_set_self hcc, ?_⟩
    rw [Server.setHandler_handlers, Server.setConn_handlers, pool_set_self hh]
    exact hacc hold
  sole k kd hk hkd := by
    rcases pool_set_some hkd with ⟨hkh, -⟩ | ⟨-, hold⟩
    · exact absurd hkh hk
    · exact hL.sole k kd hk hold

/-- A step of the download itself that leaves its connection alone. -/
theorem Ledger.setHandler_own (hL : Ledger connID c h s) (hh : s.handlers[h]? = some hd)
    (hacc : ∀ cc, s.conns[c]? = some cc → Accounts connID c cc (some hd) →
      Accounts connID c cc (some gd')) : Ledger connID c h (s.setHandler h gd') := by
  obtain ⟨cc, hcc, -⟩ := hL.conn
  have hboth := @Ledger.setBoth_own connID c h s hd gd' cc cc hL hh hcc (hacc cc hcc)
  have hset : s.setConn c cc = s := by
    obtain ⟨hlt, hget⟩ := List.getElem?_eq_some_iff.mp hcc
    rw [Server.setConn, ← hget, List.set_getElem_self]
  rw [hset] at hboth
  exact hboth

/-- A step that changes one connection. -/
theorem Ledger.setConn (hL : Ledger connID c h s) (hdd : s.conns[d]? = some dd)
    (hacc : d = c → Accounts connID c dd s.handlers[h]? → Accounts connID c dd' s.handlers[h]?) :
    Ledger connID c h (s.setConn d dd') where
  running := hL.running
  conn := by
    obtain ⟨cc, hcc, hold⟩ := hL.conn
    by_cases hdc : d = c
    · subst hdc
      rw [hcc] at hdd
      cases hdd
      exact ⟨dd', pool_set_self hcc, hacc rfl hold⟩
    · refine ⟨cc, ?_, hold⟩
      rw [Server.setConn_conns, List.getElem?_set_ne hdc, hcc]
  sole := hL.sole

theorem Ledger.unregisterClient (hL : Ledger connID c h s) (id : UInt32) :
    Ledger connID c h (s.unregisterClient id) := ⟨hL.running, hL.conn, hL.sole⟩

theorem Ledger.registerClient (hL : Ledger connID c h s) (id : UInt32) (dd : ClientConn) :
    Ledger connID c h (s.registerClient id dd) where
  running := hL.running
  conn := by
    obtain ⟨cc, hcc, hacc⟩ := hL.conn
    exact ⟨cc, pool_snoc_old hcc, hacc⟩
  sole := hL.sole

/-- The books do not depend on what is written to an open remote. -/
theorem Accounts.written {o : Option Handler} (hacc : Accounts connID c cc o)
    (w : List (Nat × Bytes)) : Accounts connID c { cc with written := w } o :=
  ⟨hacc.ended, hacc.opened, hacc.balance, hacc.phase⟩

/-- The books after a step of the reader: the queue and what is in hand grow by what was read. -/
theorem Accounts.reader {o : Option Handler} (hacc : Accounts connID c cc o)
    (hended : cc'.dataCh.closed = cc'.reader.ended)
    (hopened : cc'.remoteClosed = true → cc'.reader.ended = true)
    (hbal : ∀ t : List Bytes, t ++ cc.dataCh.buf ++ cc.reader.hand = cc.received →
      t ++ cc'.dataCh.buf ++ cc'.reader.hand = cc'.received)
    (hdone : cc.dataCh.buf = [] → cc.dataCh.closed = true →
      cc'.dataCh.buf = [] ∧ cc'.dataCh.closed = true) : Accounts connID c cc' o where
  ended := hended
  opened := hopened
  balance := hbal _ hacc.balance
  phase hd hhd := by
    -- a download that has returned found the channel closed, and it stays so
    rcases hacc.phase hd hhd with hask | ⟨hresp, hloop | hwrite | ⟨hpc, hbuf, hclosed⟩⟩
    · exact Or.inl hask
    · exact Or.inr ⟨hresp, Or.inl hloop⟩
    · exact Or.inr ⟨hresp, Or.inr (Or.inl hwrite)⟩
    · exact Or.inr ⟨hresp, Or.inr (Or.inr ⟨hpc, hdone hbuf hclosed⟩)⟩

/-- A reader that only moves on, with nothing read and nothing sent. -/
theorem Accounts.readerMoved {o : Option Handler} (hacc : Accounts connID c cc o) {pc : ReaderPc}
    {closed : Bool} (hhand : pc.hand = cc.reader.hand) (hended : pc.ended = cc.reader.ended)
    (hopened : closed = true → pc.ended = true) :
    Accounts connID c { cc with reader := pc, remoteClosed := closed } o := by
  refine hacc.reader (hacc.ended.trans hended.symm) hopened (fun t hbal => ?_)
    fun hbuf hclosed => ⟨hbuf, hclosed⟩
  rw [← hhand] at hbal
  exact hbal

theorem Pc.drains_of_target {pc : Pc} (ht : pc.target = none) : pc.drains c = false := by
  cases hdr : pc.drains c with
  | false => rfl
  | true =>
    obtain ⟨id, hid⟩ := Pc.target_of_drains hdr
    rw [ht] at hid
    cases hid

/-! ## One step -/

/-- A new request is not a download of the connection yet, and handler `h` is the client's. -/
theorem Ledger.request (hL : Ledger connID c h s) {r : Request}
    (hok : s.handlers.length = h → r = downloadRequest connID) :
    Ledger connID c h { s with handlers := s.handlers ++ [start cfg r] } where
  running := hL.running
  conn := by
    obtain ⟨cc, hcc, hacc⟩ := hL.conn
    refine ⟨cc, hcc, ?_⟩
    -- the new handler comes before, is, or comes after the client's download
    rcases Nat.lt_trichotomy h s.handlers.length with hlt | heq | hgt
    · rw [List.getElem?_append_left hlt]
      exact hacc
    · subst heq
      have hnone : s.handlers[s.handlers.length]? = none := List.getElem?_eq_none (Nat.le_refl _)
      rw [hnone] at hacc
      rw [pool_snoc_new, hok rfl, start_downloadRequest]
      exact ⟨hacc.ended, hacc.opened, hacc.balance, fun hd hhd => by cases hhd; exact Or.inl rfl⟩
    · have hnone : s.handlers[h]? = none := List.getElem?_eq_none (Nat.le_of_lt hgt)
      have hnone' : (s.handlers ++ [start cfg r])[h]? = none := by
        apply List.getElem?_eq_none
        rw [List.length_append, List.length_singleton]
        exact hgt
      rw [hnone] at hacc
      show Accounts connID c cc (s.handlers ++ [start cfg r])[h]?
      rw [hnone']
      exact hacc
  sole k kd hk hkd := by
    rcases pool_snoc_some hkd with hold | ⟨-, rfl⟩
    · exact hL.sole k kd hk hold
    · exact Pc.drains_of_target (start_target cfg r)

/-- Steps of the reader goroutine. -/
theorem Ledger.readerStep (hL : Ledger connID c h s) {m : ReaderMove}
    (hs : Step cfg s (.reader d m) s') : Ledger connID c h s' := by
  cases hs with
  -- what was read is in the reader's hand
  | @readData _ cc data err hcc hpc hdata hlen hopen =>
    refine hL.setConn hcc fun _ hacc => hacc.reader ?_ ?_ ?_ ?_
    · rw [hacc.ended, hpc]
      rfl
    · intro hclosed
      rw [hopen] at hclosed
      cases hclosed
    · intro t hbal
      have hbal' : t ++ cc.dataCh.buf = cc.received := by simpa [hpc, ReaderPc.hand] using hbal
      rw [ReaderPc.hand, hbal']
    · exact fun hbuf hclosed => ⟨hbuf, hclosed⟩
  | readEmpty hcc _ _ => exact hL.setConn hcc fun _ hacc => hacc
  | @readErr _ cc err hcc hpc =>
    refine hL.setConn hcc fun _ hacc => ?_
    refine hacc.readerMoved (by rw [hpc]; rfl) (by rw [hpc]; rfl) fun hclosed => ?_
    have hended := hacc.opened hclosed
    rw [hpc] at hended
    cases hended
  | @sent _ cc data err ch hcc hpc hopen hroom hbuf hclosed =>
    refine hL.setConn hcc fun _ hacc => ?_
    refine hacc.reader ?_ ?_ ?_ ?_
    · show ch.closed = _
      rw [hclosed, hopen]
      cases err <;> rfl
    · intro hrc
      have := hacc.opened hrc
      rw [hpc] at this
      cases this
    · -- the chunk moves from the reader's hand to the end of the queue
      intro t hbal
      rw [hpc, ReaderPc.hand, List.append_assoc] at hbal
      show t ++ ch.buf ++ ReaderPc.hand (if err = none then .reading else .closing) = cc.received
      rw [hbuf, ← hbal]
      cases err <;> simp [ReaderPc.hand]
    · intro _ htrue
      rw [hopen] at htrue
      cases htrue
  | sendStopped _ _ hstop =>
    rw [hL.running] at hstop
    cases hstop
  -- from here on the download can see the end
  | @closedCh _ cc hcc hpc =>
    refine hL.setConn hcc fun _ hacc => hacc.reader rfl (fun _ => rfl) ?_ ?_
    · intro t hbal
      rw [hpc] at hbal
      exact hbal
    · exact fun hbuf _ => ⟨hbuf, rfl⟩
  | @closedOwn _ cc hcc hpc =>
    exact hL.setConn hcc fun _ hacc =>
      hacc.readerMoved (by rw [hpc]; rfl) (by rw [hpc]; rfl) fun _ => rfl
  | @unregisteredOwn _ cc hcc hpc =>
    exact (hL.unregisterClient cc.connID).setConn hcc fun _ hacc =>
      hacc.readerMoved (by rw [hpc]; rfl) (by rw [hpc]; rfl) fun _ => rfl

/-- A download that has yet to look its connection up is as `start` left it. -/
theorem Ledger.own_asked (hL : Ledger connID c h s) (hh : s.handlers[h]? = some hd) {id : UInt32}
    (hpc : hd.pc = .downLookup id) : hd = .at (.downLookup connID) := by
  obtain ⟨cc, -, hacc⟩ := hL.conn
  rcases hacc.phase hd hh with hask | ⟨-, hloop | ⟨data, hwrite⟩ | ⟨hend, -⟩⟩
  · exact hask
  · exact absurd (hpc.symm.trans hloop) (by simp)
  · exact absurd (hpc.symm.trans hwrite) (by simp)
  · exact absurd (hpc.symm.trans hend) (by simp)

/-- A handler that serves an upload is not the client's download. -/
theorem Ledger.ne_own (hL : Ledger connID c h s) (hg : s.handlers[g]? = some gd)
    (hpc : ∀ id, gd.pc ≠ .downLookup id) (hdr : gd.pc.drains c = false) (hdone : gd.pc ≠ .done) :
    g ≠ h := by
  rintro rfl
  obtain ⟨cc, -, hacc⟩ := hL.conn
  rcases hacc.phase gd hg with rfl | ⟨-, hloop | ⟨data, hwrite⟩ | ⟨hend, -⟩⟩
  · exact hpc connID rfl
  · rw [hloop, Bool.eq_false_iff] at hdr
    exact hdr ((Pc.drains_downLoop connID c c).mpr rfl)
  · rw [hwrite, Bool.eq_false_iff] at hdr
    exact hdr ((Pc.drains_downWrite connID c c data).mpr rfl)
  · exact hdone hend

/-- The lookup of a download: the client's own finds the connection, another finds another. -/
theorem Ledger.downLookup (hL : Ledger connID c h s) (hok : Orderly connID c h s (.handler g .lookup))
    (hg : s.handlers[g]? = some gd) {id : UInt32} (hpc : gd.pc = .downLookup id)
    (hc : s.clients id = some d) :
    Ledger connID c h (s.setHandler g ⟨.downLoop id d, some streaming, []⟩) := by
  obtain ⟨hund, hfinds⟩ := hok
  by_cases hgh : g = h
  · subst hgh
    have hask := hL.own_asked hg hpc
    subst hask
    obtain rfl : connID = id := Pc.downLookup.inj hpc
    have hdc : d = c := by
      have hfound := of_decide_eq_true hfinds rfl
      rw [hfound] at hc
      exact (Option.some.inj hc).symm
    subst hdc
    -- nothing was taken before the lookup, so the balance is the same
    refine hL.setHandler_own hg fun cc hcc hacc => ⟨hacc.ended, hacc.opened, hacc.balance, ?_⟩
    intro hd hhd
    cases hhd
    exact Or.inr ⟨rfl, Or.inl rfl⟩
  · refine hL.setHandler_other hgh ?_
    have hpcOf : s.pcOf g = .downLookup id := by simp only [Server.pcOf, hg, hpc]
    simp only [undisturbed, hpcOf, decide_eq_true_eq] at hund
    have hdc : d ≠ c := by
      rintro rfl
      exact (hund.resolve_left hgh) hc
    rw [Bool.eq_false_iff]
    exact fun hdr => hdc ((Pc.drains_downLoop id d c).mp hdr).symm

/-- A chunk goes from the queue to a download: the client's, or another connection's. -/
theorem Ledger.downReceived (hL : Ledger connID c h s) (hg : s.handlers[g]? = some gd)
    {id : UInt32} (hpc : gd.pc = .downLoop id d) (hdd : s.conns[d]? = some dd) {data : Bytes}
    {ch : Chan 16 Bytes} (hbuf : dd.dataCh.buf = data :: ch.buf)
    (hclosed : ch.closed = dd.dataCh.closed) :
    Ledger connID c h ((s.setConn d { dd with dataCh := ch }).setHandler g
      { gd with pc := .downWrite id d data }) := by
  -- another download of this connection would be a second one
  by_cases hgh : g = h
  · subst hgh
    obtain ⟨rfl, rfl, hresp⟩ := hL.own_target hg (by rw [hpc]; rfl)
    refine hL.setBoth_own hg hdd fun hacc => ⟨hclosed.trans hacc.ended, hacc.opened, ?_, ?_⟩
    · -- the head of the queue is now in the download's hand
      have hbal := hacc.balance
      simp only [Option.map_some, Option.getD_some, Handler.taken, hpc, hbuf, Pc.hand,
        List.append_nil] at hbal ⊢
      rw [← hbal]
      simp
    · intro hd hhd
      cases hhd
      exact Or.inr ⟨hresp, Or.inr (Or.inl ⟨data, rfl⟩)⟩
  · have hdc : d ≠ c := by
      rintro rfl
      have hno := hL.sole g gd hgh hg
      rw [hpc, Bool.eq_false_iff] at hno
      exact hno ((Pc.drains_downLoop id d d).mpr rfl)
    refine (hL.setConn hdd fun heq => absurd heq hdc).setHandler_other hgh ?_
    rw [Bool.eq_false_iff]
    exact fun hdr => hdc ((Pc.drains_downWrite id d c data).mp hdr).symm

/-- A download writes the chunk in its hand. -/
theorem Ledger.emitted (hL : Ledger connID c h s) (hg : s.handlers[g]? = some gd) {id : UInt32}
    {data : Bytes} (hpc : gd.pc = .downWrite id d data) (nonce : Nonce) :
    Ledger connID c h (s.setHandler g
      { gd with pc := .downLoop id d, sent := gd.sent ++ [(nonce, data)] }) := by
  by_cases hgh : g = h
  · subst hgh
    obtain ⟨rfl, rfl, hresp⟩ := hL.own_target hg (by rw [hpc]; rfl)
    refine hL.setHandler_own hg fun cc hcc hacc => ⟨hacc.ended, hacc.opened, ?_, ?_⟩
    · -- the chunk goes from the hand to the frames
      have hbal := hacc.balance
      simp only [Option.map_some, Option.getD_some, Handler.taken, hpc, Pc.hand, List.map_append,
        List.map_cons, List.map_nil, List.append_nil] at hbal ⊢
      exact hbal
    · intro hd hhd
      cases hhd
      exact Or.inr ⟨hresp, Or.inl rfl⟩
  · refine hL.setHandler_other hgh ?_
    have hno := hL.sole g gd hgh hg
    rw [hpc] at hno
    exact hno

/-- A download finds the queue drained and closed. -/
theorem Ledger.downDrained (hL : Ledger connID c h s) (hg : s.handlers[g]? = some gd)
    {id : UInt32} (hpc : gd.pc = .downLoop id d) (hdd : s.conns[d]? = some dd)
    (hbuf : dd.dataCh.buf = []) (hclosed : dd.dataCh.closed = true) :
    Ledger connID c h (s.setHandler g { gd with pc := .done }) := by
  by_cases hgh : g = h
  · subst hgh
    obtain ⟨rfl, rfl, hresp⟩ := hL.own_target hg (by rw [hpc]; rfl)
    refine hL.setHandler_own hg fun cc hcc hacc => ⟨hacc.ended, hacc.opened, ?_, ?_⟩
    · have hbal := hacc.balance
      simp only [Option.map_some, Option.getD_some, Handler.taken, hpc, Pc.hand] at hbal ⊢
      exact hbal
    · intro hd hhd
      cases hhd
      rw [hdd] at hcc
      cases hcc
      exact Or.inr ⟨hresp, Or.inr (Or.inr ⟨rfl, hbuf, hclosed⟩)⟩
  · exact hL.setHandler_other hgh rfl

/-- A step of an upload handler to a place outside the download loop. -/
theorem Ledger.upload (hL : Ledger connID c h s) (hg : s.handlers[g]? = some gd) {pc : Pc}
    (hpc : gd.pc = pc) (hplace : ∀ id, pc ≠ .downLookup id) (hdr : pc.drains c = false)
    (hdone : pc ≠ .done) (hdr' : gd'.pc.drains c = false) :
    Ledger connID c h (s.setHandler g gd') := by
  subst hpc
  exact hL.setHandler_other (hL.ne_own hg hplace hdr hdone) hdr'

/-- Steps of a handler. -/
theorem Ledger.handlerStep (hL : Ledger connID c h s) {m : HandlerMove}
    (hok : Orderly connID c h s (.handler g m)) (hs : Step cfg s (.handler g m) s') :
    Ledger connID c h s' := by
  cases hs with
  -- uploads: only a close of the remote would touch the books
  | dialed hh hpc => exact (hL.registerClient _ _).upload hh hpc nofun rfl nofun rfl
  | dialFailed hh hpc => exact hL.upload hh hpc nofun rfl nofun rfl
  | dataFound hh hpc _ => exact hL.upload hh hpc nofun rfl nofun rfl
  | dataUnknown hh hpc _ => exact hL.upload hh hpc nofun rfl nofun rfl
  | wrote hh hpc hcc _ =>
    exact (hL.setConn hcc fun _ hacc => hacc.written _).upload hh hpc nofun rfl nofun rfl
  | writeFailed hh hpc hcc _ =>
    exact (hL.setConn hcc fun _ hacc => hacc.written _).upload hh hpc nofun rfl nofun rfl
  | closeFound hh hpc _ => exact hL.upload hh hpc nofun rfl nofun rfl
  | closeUnknown hh hpc _ => exact hL.upload hh hpc nofun rfl nofun rfl
  | @closedRemote _ gd id d dd hh hpc hdd =>
    -- the remote closed here is another connection's
    have hpcOf : s.pcOf g = .closeRemote id d := by simp only [Server.pcOf, hh, hpc]
    have hdc := hok.1
    simp only [undisturbed, hpcOf, decide_eq_true_eq] at hdc
    exact (hL.setConn hdd fun heq => absurd heq hdc).upload hh hpc nofun rfl nofun rfl
  | unregistered hh hpc => exact (hL.unregisterClient _).upload hh hpc nofun rfl nofun rfl
  -- downloads
  | downFound hh hpc hc => exact hL.downLookup hok hh hpc hc
  | @downUnknown _ gd id hh hpc hc =>
    refine hL.setHandler_other ?_ rfl
    rintro rfl
    -- the client's own lookup would have found the connection
    have hask := hL.own_asked hh hpc
    subst hask
    obtain rfl : connID = id := Pc.downLookup.inj hpc
    rw [of_decide_eq_true hok.2 rfl] at hc
    cases hc
  | downReceived hh hpc hcc hbuf hclosed => exact hL.downReceived hh hpc hcc hbuf hclosed
  | downDrained hh hpc hcc hbuf hclosed => exact hL.downDrained hh hpc hcc hbuf hclosed
  | downCancelled _ _ => exact hL.setHandler_other (of_decide_eq_true hok.1) rfl
  | downStopped _ _ hstop =>
    rw [hL.running] at hstop
    cases hstop
  | emitted hh hpc => exact hL.emitted hh hpc _
  | emitFailed _ _ =>
    exact hL.setHandler_other (fun heq => nomatch (of_decide_eq_true hok.1 heq).2) rfl
  | encryptFailed _ _ =>
    exact hL.setHandler_other (fun heq => (of_decide_eq_true hok.1 heq).1 rfl) rfl

/-- One step keeps the ledger. -/
theorem Ledger.preserved (hL : Ledger connID c h s) (hok : Orderly connID c h s a)
    (hs : Step cfg s a s') : Ledger connID c h s' := by
  cases a with
  | handler g m => exact hL.handlerStep hok hs
  | reader d m => exact hL.readerStep hs
  | request r =>
    cases hs
    exact hL.request (of_decide_eq_true hok.1)
  | shutdown => exact absurd hok.1 Bool.false_ne_true

/-! ## The download comes to its end -/

/-- The reader goroutine has read the remote's end. -/
def ReaderPc.endRead : ReaderPc → Bool
  | .reading => false
  | .sending _ err => err.isSome
  | _ => true

/-- What the reader goroutine still has to do for the download. -/
def ReaderPc.weight : ReaderPc → Nat
  | .sending _ _ => 4
  | .closing => 1
  | _ => 0

def Pc.weight : Pc → Nat
  | .downLoop _ _ => 1
  | .downWrite _ _ _ => 2
  | _ => 0

/-- A bound on the steps until the download has returned. -/
def weight (cc : ClientConn) (hd : Handler) : Nat :=
  2 * cc.dataCh.buf.length + cc.reader.weight + hd.pc.weight

/-- A step of the reader goroutine of `c` or of the download `h`. -/
def Act.Own (c h : Nat) : Act → Prop
  | .reader d _ => d = c
  | .handler g _ => g = h
  | _ => False

theorem finds_of_ne (hne : a ≠ .handler h .lookup) : finds connID c h s a = true :=
  decide_eq_true fun heq => absurd heq hne

/-- While the download runs and the remote's end was read, the reader or the download can make a
step, and there is less to do after it. -/
theorem Ledger.advance (hL : Ledger connID c h s) (hcc : s.conns[c]? = some cc)
    (hend : cc.reader.endRead = true) (hh : s.handlers[h]? = some hd)
    (hresp : hd.response = some streaming) (hrun : hd.pc ≠ .done) :
    ∃ a s' cc' hd', a.Own c h ∧ Orderly connID c h s a ∧ Step cfg s a s' ∧
      s'.conns[c]? = some cc' ∧ cc'.reader.endRead = true ∧ s'.handlers[h]? = some hd' ∧
      hd'.response = some streaming ∧ weight cc' hd' < weight cc hd := by
  obtain ⟨dd, hdd, hacc⟩ := hL.conn
  rw [hcc] at hdd
  cases hdd
  rcases hacc.phase hd hh with rfl | ⟨-, hloop | ⟨data, hwrite⟩ | ⟨hdone, -⟩⟩
  · cases hresp
  · cases hbuf : cc.dataCh.buf with
    | cons data rest =>
      -- a chunk is queued: the download takes it
      have htail : cc.dataCh.buf = data :: cc.dataCh.tail.buf := by
        rw [Chan.tail_buf, hbuf, List.tail_cons]
      refine ⟨.handler h .receive, _, _, _, rfl, ⟨rfl, finds_of_ne nofun⟩,
        .downReceived hh hloop hcc htail rfl, pool_set_self hcc, hend, pool_set_self hh, hresp, ?_⟩
      simp only [weight, hbuf, hloop, Pc.weight, Chan.tail_buf, List.tail_cons, List.length_cons]
      omega
    | nil =>
      cases hclosed : cc.dataCh.closed with
      | true =>
        refine ⟨.handler h .receive, _, cc, _, rfl, ⟨rfl, finds_of_ne nofun⟩,
          .downDrained hh hloop hcc hbuf hclosed, hcc, hend, pool_set_self hh, hresp, ?_⟩
        simp only [weight, hloop, Pc.weight]
        omega
      | false =>
        -- the channel is open, so the reader still has to send or to close
        have hended := hacc.ended
        rw [hclosed] at hended
        cases hreader : cc.reader with
        | reading =>
          rw [hreader] at hend
          cases hend
        | sending data err =>
          have hroom : cc.dataCh.buf.length < 16 := by
            rw [hbuf]
            exact Nat.succ_pos 15
          obtain ⟨ch, hch, hchclosed⟩ := Chan.exists_send hroom data
          refine ⟨.reader c .send, _, _, hd, rfl, ⟨rfl, rfl⟩,
            .sent hcc hreader hclosed hroom hch hchclosed, pool_set_self hcc, ?_, hh, hresp, ?_⟩
          · rw [hreader] at hend
            cases err with
            | none => cases hend
            | some e => rfl
          · rw [hreader] at hend
            cases err with
            | none => cases hend
            | some e =>
              simp only [weight, hreader, hch, hbuf, ReaderPc.weight, reduceCtorEq, ↓reduceIte,
                List.nil_append, List.length_singleton, List.length_nil]
              omega
        | closing =>
          refine ⟨.reader c .closeCh, _, _, hd, rfl, ⟨rfl, rfl⟩, .closedCh hcc hreader,
            pool_set_self hcc, rfl, hh, hresp, ?_⟩
          simp only [weight, hreader, ReaderPc.weight, Chan.close_buf]
          omega
        | closingRemote =>
          rw [hreader] at hended
          cases hended
        | unregistering =>
          rw [hreader] at hended
          cases hended
        | exited =>
          rw [hreader] at hended
          cases hended
  · refine ⟨.handler h (.emit (some .zero) true), _, cc, _, rfl,
      ⟨decide_eq_true fun _ => ⟨nofun, rfl⟩, finds_of_ne nofun⟩, .emitted hh hwrite, hcc,
      hend, pool_set_self hh, hresp, ?_⟩
    simp only [weight, hwrite, Pc.weight]
    omega
  · exact absurd hdone hrun

/-- The reader and the download alone bring the download to its end. -/
theorem Ledger.completes (hL : Ledger connID c h s) (hcc : s.conns[c]? = some cc)
    (hend : cc.reader.endRead = true) (hh : s.handlers[h]? = some hd)
    (hresp : hd.response = some streaming) :
    ∃ more t, (∀ a ∈ more, a.Own c h) ∧ Meets (step cfg) (Orderly connID c h) s more ∧
      exec (step cfg) s more = some t ∧ t.pcOf h = .done := by
  -- on what is left to do
  induction hw : weight cc hd using Nat.strong_induction_on generalizing s cc hd with
  | _ n ih =>
    by_cases hrun : hd.pc = .done
    · exact ⟨[], s, nofun, trivial, rfl, by simp only [Server.pcOf, hh, hrun]⟩
    · obtain ⟨a, s', cc', hd', hown, hok, hs, hcc', hend', hh', hresp', hless⟩ :=
        @Ledger.advance cfg connID c h s hd cc hL hcc hend hh hresp hrun
      obtain ⟨more, t, hmore, hmeets, hexec, hdone⟩ :=
        ih _ (hw ▸ hless) (hL.preserved hok hs) hcc' hend' hh' hresp' rfl
      refine ⟨a :: more, t, ?_, ?_, ?_, hdone⟩
      · intro b hb
        rcases List.mem_cons.mp hb with rfl | hb
        · exact hown
        · exact hmore b hb
      · exact (meets_cons_of_step hs.enabled).mpr ⟨hok, hmeets⟩
      · exact exec_cons_some.mpr ⟨s', hs.enabled, hexec⟩

/-- The books open with the `Connect` that dials the connection. -/
theorem ledger_dialed (hwf : WellFormed s) (hrun : s.stopped = false)
    (hg : s.handlers[g]? = some gd) {req : ConnectRequest} (hpc : gd.pc = .dial connID req)
    (hs : step cfg s (.handler g (.dial true)) = some s') (hlater : s'.handlers.length ≤ h) :
    Ledger connID s.conns.length h s' := by
  have hs' := @Step.dialed cfg s g gd connID req hg hpc
  rw [hs'.enabled] at hs
  cases hs
  have hnone : (s.handlers.set g (.reply (connected connID)))[h]? = none :=
    List.getElem?_eq_none hlater
  refine ⟨hrun, ⟨_, pool_snoc_new, rfl, nofun, ?_, ?_⟩, ?_⟩
  · rw [Server.setHandler_handlers, Server.registerClient_handlers, hnone]
    rfl
  · intro hd hhd
    rw [Server.setHandler_handlers, Server.registerClient_handlers, hnone] at hhd
    cases hhd
  · -- no handler can work on a connection that did not exist
    intro k kd _ hkd
    rcases pool_set_some hkd with ⟨-, rfl⟩ | ⟨-, hold⟩
    · rfl
    · cases hdr : kd.pc.drains s.conns.length with
      | false => rfl
      | true =>
        obtain ⟨id, hid⟩ := Pc.target_of_drains hdr
        obtain ⟨dd, hdd, -⟩ := hwf.target k kd id _ hold hid
        rw [List.getElem?_eq_none (Nat.le_refl _)] at hdd
        cases hdd

end Steps

/-! ## Every run -/

/-- What download `h` of `connID` makes of connection `c`. -/
structure CarriesAll (cfg : Config) (connID : UInt32) (c h : Nat) (s : Server) : Prop where
  /-- The remote was not closed before its end was read. -/
  remote : ∃ cc, s.conns[c]? = some cc ∧ (cc.remoteClosed = true → cc.reader.ended = true)
  /-- A download that has returned carried every chunk that was read, and the reader had ended. -/
  complete : ∀ (cc : ClientConn) (hd : Handler), s.conns[c]? = some cc → s.handlers[h]? = some hd →
    hd.pc = .done → hd.response = some streaming ∧ hd.sent.map Prod.snd = cc.received ∧
      cc.reader.ended = true
  /-- Once the remote's end was read, the reader and the download alone bring it to its end. -/
  ends : ∀ (cc : ClientConn) (hd : Handler), s.conns[c]? = some cc → s.handlers[h]? = some hd →
    hd.response = some streaming → cc.reader.endRead = true →
    ∃ more t, (∀ a ∈ more, a.Own c h) ∧ Meets (step cfg) (Orderly connID c h) s more ∧
      exec (step cfg) s more = some t ∧ t.pcOf h = .done

theorem Ledger.carriesAll {cfg : Config} {connID : UInt32} {c h : Nat} {s : Server}
    (hL : Ledger connID c h s) : CarriesAll cfg connID c h s where
  remote := by
    obtain ⟨cc, hcc, hacc⟩ := hL.conn
    exact ⟨cc, hcc, hacc.opened⟩
  complete cc hd hcc hh hdone := by
    obtain ⟨dd, hdd, hacc⟩ := hL.conn
    rw [hcc] at hdd
    cases hdd
    rw [hh] at hacc
    rcases hacc.phase hd rfl with rfl | ⟨hresp, hloop | ⟨data, hwrite⟩ | ⟨-, hbuf, hclosed⟩⟩
    · cases hdone
    · rw [hdone] at hloop
      cases hloop
    · rw [hdone] at hwrite
      cases hwrite
    · have hended : cc.reader.ended = true := hacc.ended.symm.trans hclosed
      refine ⟨hresp, ?_, hended⟩
      -- nothing is queued and the reader, which has ended, has nothing in hand
      have hhand : cc.reader.hand = [] := by
        cases hr : cc.reader <;> rw [hr] at hended <;> first | rfl | cases hended
      have hbal := hacc.balance
      simpa [Handler.taken, hdone, Pc.hand, hbuf, hhand] using hbal
  ends cc hd hcc hh hresp hend := hL.completes hcc hend hh hresp

/-- After a successful `Connect`, in every run that leaves the connection and its one later
download to themselves and in which the download finds the connection registered, the download
carries all that the remote sends until its end. -/
theorem download_carries_all (cfg : Config) (before after : List Act) (s₀ s₁ s : Server)
    (connID : UInt32) (req : ConnectRequest) (g h : Nat)
    (hbefore : exec (step cfg) .new before = some s₀) (hrunning : s₀.stopped = false)
    (hpc : s₀.pcOf g = .dial connID req)
    (hdial : step cfg s₀ (.handler g (.dial true)) = some s₁) (hlater : s₁.handlers.length ≤ h)
    (hok : Meets (step cfg) (Orderly connID s₀.conns.length h) s₁ after)
    (hafter : exec (step cfg) s₁ after = some s) :
    CarriesAll cfg connID s₀.conns.length h s := by
  obtain ⟨gd, hg, hgd⟩ := Server.pcOf_eq hpc nofun
  have hstart : Ledger connID s₀.conns.length h s₁ :=
    ledger_dialed (wellFormed_run hbefore) hrunning hg hgd hdial hlater
  have hL : Ledger connID s₀.conns.length h s :=
    exec_invariant (fun _ _ _ hl ha hs => Ledger.preserved hl ha (step_cases hs)) after s₁ s hstart
      hok hafter
  exact hL.carriesAll

/-- The remote sends one chunk and ends; the reader runs to its end. -/
def readToEnd : List Act :=
  [.reader 0 (.read [7] (some .eof)), .reader 0 .send, .reader 0 .closeCh, .reader 0 .closeRemote,
    .reader 0 .unregister]

/-- Handler 1 serves a download of id 1 up to its lookup. -/
def askOne : List Act := [.request (downloadRequest 1), .handler 1 .lookup]

/-- Handler 1 writes one chunk and finds the channel closed. -/
def drainOne : List Act :=
  [.handler 1 .receive, .handler 1 (.emit (some .zero) true), .handler 1 .receive]

/-- The client asks before the remote sends and ends. -/
theorem download_carries_all_early :
    ∃ s, exec (step .plain) .new (connectOne ++ (askOne ++ readToEnd ++ drainOne)) = some s ∧
      CarriesAll .plain 1 0 1 s := by
  obtain ⟨s, hs⟩ : ∃ s, exec (step .plain) connectedOne (askOne ++ readToEnd ++ drainOne) = some s :=
    Option.isSome_iff_exists.mp (by decide +kernel)
  refine ⟨s, exec_append_some.mpr ⟨connectedOne, exec_connectOne, hs⟩, ?_⟩
  exact download_carries_all .plain
    [.request (connectRequest Config.plain.encryptor .zero 1 ⟨[116], [97]⟩)]
    (askOne ++ readToEnd ++ drainOne) dialingOne connectedOne s 1 ⟨[116], [97]⟩ 0 1
    (exec_cons_some.mpr ⟨_, step_connectOne, rfl⟩) rfl rfl rfl (by decide) (by decide +kernel) hs

/-- The client asks after the reader has ended: it gets a 404, and what the remote sent is lost. -/
theorem download_after_eof_is_empty :
    exec (step .plain) .new connectOne = some connectedOne ∧
      Meets (step .plain) (fun t a => undisturbed 1 0 1 t a = true) connectedOne
        (readToEnd ++ askOne) ∧
      ∃ s, exec (step .plain) connectedOne (readToEnd ++ askOne) = some s ∧
        s.conns.map (·.received) = [[[7]]] ∧
        s.handlers[1]? = some ⟨.done, some notFound, []⟩ := by
  refine ⟨exec_connectOne, by decide +kernel, ?_⟩
  apply exec_reaches (P := fun s : Server => s.conns.map (·.received) = [[[7]]] ∧
    s.handlers[1]? = some ⟨.done, some notFound, []⟩)
  · decide +kernel
  · exact fun _ _ hlost => hlost

end PTBridge.Dpi
