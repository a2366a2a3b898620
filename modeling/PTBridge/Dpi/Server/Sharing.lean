import PTBridge.Dpi.Server.Delivery
import PTBridge.Transition.Log

/-!
# Several downloads of one connection

Nothing keeps a client, or anyone who knows the connection id, from asking for a second download
while one runs: then two loops of `handleDownload` receive from one `dataCh`. This file says how
the chunks of the remote are divided between all the downloads there ever were.

- `takes` is the chunk that a step takes from a `dataCh`, with its download and its connection. The
  log of a run lists them in order.
- `SharedOut` relates a log to a state: read by connection it is what the remote sent, read by
  download it is what the download wrote. `SharedOut.step` carries it along.
- `Divides` is what the log of every run says, and `downloads_share` is the result.
-/

namespace PTBridge.Dpi

open PTBridge.Stream PTBridge.Container PTBridge.Transition

/-- The chunk that a step takes from a `dataCh`: the download, the connection, and the chunk. -/
def takes (s : Server) : Act → List (Nat × Nat × Bytes)
  | .handler h .receive =>
      match s.pcOf h with
      | .downLoop _ c =>
          match s.conns[c]? with
          | none => []
          | some cc => (cc.dataCh.buf.take 1).map fun data => (h, c, data)
      | _ => []
  | _ => []

/-- The chunks that were taken from connection `c`. -/
def takenFrom (log : List (Nat × Nat × Bytes)) (c : Nat) : List Bytes := ofKey (log.map Prod.snd) c

/-- The chunks that download `h` took. -/
def takenBy (log : List (Nat × Nat × Bytes)) (h : Nat) : List Bytes := (ofKey log h).map Prod.snd

/-- What was taken from the connection, with what is queued and what the reader goroutine holds, is
what was read. Only a stop of the server drops a chunk before a download has taken it. -/
structure ClientConn.Balance (stopped : Bool) (taken : List Bytes) (cc : ClientConn) : Prop where
  first : taken ++ cc.dataCh.buf ++ cc.reader.hand <+: cc.received
  all : stopped = false ∨ cc.reader.ended = false →
    taken ++ cc.dataCh.buf ++ cc.reader.hand = cc.received

/-- What a download wrote, with the chunk in its hand, is what it took. Only the last chunk of one
that has returned may be missing, if it was not encrypted. -/
structure Handler.Balance (taken : List Bytes) (hd : Handler) : Prop where
  first : hd.taken <+: taken
  all : hd.pc ≠ .done → hd.taken = taken
  last : taken.length ≤ hd.sent.length + 1

/-- The handler is in the loop of `handleDownload`, or has returned. -/
def Pc.inDownload : Pc → Bool
  | .downLoop _ _ => true
  | .downWrite _ _ _ => true
  | .done => true
  | _ => false

theorem Pc.inDownload_of {pc : Pc} {d : Nat} (h : pc = .done ∨ pc.drains d = true) :
    pc.inDownload = true := by
  cases pc <;> simp_all [Pc.drains, Pc.inDownload]

/-- The log of the chunks that downloads took. -/
structure SharedOut (s : Server) (log : List (Nat × Nat × Bytes)) : Prop where
  conn : ∀ (c : Nat) (cc : ClientConn), s.conns[c]? = some cc →
    cc.Balance s.stopped (takenFrom log c)
  handler : ∀ (h : Nat) (hd : Handler), s.handlers[h]? = some hd → hd.Balance (takenBy log h)
  /-- A download that took a chunk is still in its loop on that connection, or has returned. -/
  owner : ∀ e ∈ log, e.2.1 < s.conns.length ∧
    ∃ hd, s.handlers[e.1]? = some hd ∧ (hd.pc = .done ∨ hd.pc.drains e.2.1 = true)
  one : ∀ e ∈ log, ∀ f ∈ log, e.1 = f.1 → e.2.1 = f.2.1

section Steps

variable {cfg : Config} {s s' : Server} {a : Act} {log : List (Nat × Nat × Bytes)} {c h : Nat}
  {cc cc' : ClientConn} {hd hd' : Handler}

theorem takenFrom_snoc_self (log : List (Nat × Nat × Bytes)) (h c : Nat) (data : Bytes) :
    takenFrom (log ++ [(h, c, data)]) c = takenFrom log c ++ [data] := by
  simp only [takenFrom, List.map_append, List.map_cons, List.map_nil, ofKey_snoc_self]

theorem takenFrom_snoc_other (log : List (Nat × Nat × Bytes)) (h : Nat) {c d : Nat} (data : Bytes)
    (hdc : d ≠ c) : takenFrom (log ++ [(h, c, data)]) d = takenFrom log d := by
  simp only [takenFrom, List.map_append, List.map_cons, List.map_nil, ofKey_snoc_other _ _ hdc]

theorem takenBy_snoc_self (log : List (Nat × Nat × Bytes)) (h c : Nat) (data : Bytes) :
    takenBy (log ++ [(h, c, data)]) h = takenBy log h ++ [data] := by
  simp only [takenBy, ofKey_snoc_self, List.map_append, List.map_cons, List.map_nil]

theorem takenBy_snoc_other (log : List (Nat × Nat × Bytes)) {g h : Nat} (c : Nat) (data : Bytes)
    (hgh : g ≠ h) : takenBy (log ++ [(h, c, data)]) g = takenBy log g := by
  simp only [takenBy, ofKey_snoc_other _ _ hgh]

/-! ## One thread moves -/

/-- Replacing a handler leaves the others and their place in the log. -/
theorem owner_setHandler (h₀ : SharedOut s log) (hh : s.handlers[h]? = some hd)
    (hpc : ∀ d, hd.pc = .done ∨ hd.pc.drains d = true → hd'.pc = .done ∨ hd'.pc.drains d = true) :
    ∀ e ∈ log, ∃ gd, (s.handlers.set h hd')[e.1]? = some gd ∧
      (gd.pc = .done ∨ gd.pc.drains e.2.1 = true) := by
  intro e he
  obtain ⟨-, gd, hgd, hrun⟩ := h₀.owner e he
  by_cases heh : e.1 = h
  · rw [heh] at hgd ⊢
    rw [hh] at hgd
    cases hgd
    exact ⟨hd', pool_set_self hh, hpc e.2.1 hrun⟩
  · exact ⟨gd, by rw [List.getElem?_set_ne (Ne.symm heh), hgd], hrun⟩

/-- A handler moves on and takes nothing. -/
theorem SharedOut.setHandler (h₀ : SharedOut s log) (hh : s.handlers[h]? = some hd)
    (hbal : ∀ taken, hd.Balance taken → hd'.Balance taken)
    (hpc : ∀ d, hd.pc = .done ∨ hd.pc.drains d = true → hd'.pc = .done ∨ hd'.pc.drains d = true) :
    SharedOut (s.setHandler h hd') log where
  conn := h₀.conn
  handler g gd hg := by
    rcases pool_set_some hg with ⟨rfl, rfl⟩ | ⟨-, hg⟩
    · exact hbal _ (h₀.handler g hd hh)
    · exact h₀.handler g gd hg
  owner e he := ⟨(h₀.owner e he).1, owner_setHandler h₀ hh hpc e he⟩
  one := h₀.one

/-- A handler that has not come to the loop of a download took nothing. -/
theorem SharedOut.moves (h₀ : SharedOut s log) (hh : s.handlers[h]? = some hd)
    (hbefore : hd.pc.inDownload = false) (hsent : hd'.sent = []) (hhand : hd'.pc.hand = []) :
    SharedOut (s.setHandler h hd') log := by
  have houtside : ∀ d, ¬ (hd.pc = .done ∨ hd.pc.drains d = true) := by
    intro d hrun
    rw [Pc.inDownload_of hrun] at hbefore
    cases hbefore
  have hempty : takenBy log h = [] := by
    rw [takenBy, List.map_eq_nil_iff, List.eq_nil_iff_forall_not_mem]
    intro e he
    obtain ⟨-, gd, hgd, hrun⟩ := h₀.owner _ (mem_ofKey.mp he)
    rw [hh] at hgd
    cases hgd
    exact houtside _ hrun
  have htaken : hd'.taken = [] := by rw [Handler.taken, hsent, hhand]; rfl
  refine ⟨h₀.conn, fun g gd hg => ?_, fun e he => ⟨(h₀.owner e he).1, ?_⟩, h₀.one⟩
  · rcases pool_set_some hg with ⟨rfl, rfl⟩ | ⟨-, hg⟩
    · exact ⟨by rw [htaken]; exact List.nil_prefix, fun _ => by rw [htaken, hempty],
        by rw [hempty]; exact Nat.zero_le _⟩
    · exact h₀.handler g gd hg
  · exact owner_setHandler h₀ hh (fun d hrun => absurd hrun (houtside d)) e he

/-- A connection changes, and its balance is kept whatever was taken from it. -/
theorem SharedOut.setConn (h₀ : SharedOut s log) (hcc : s.conns[c]? = some cc)
    (hbal : ∀ taken, cc.Balance s.stopped taken → cc'.Balance s.stopped taken) :
    SharedOut (s.setConn c cc') log where
  conn d dd hdd := by
    rcases pool_set_some hdd with ⟨rfl, rfl⟩ | ⟨-, hdd⟩
    · exact hbal _ (h₀.conn d cc hcc)
    · exact h₀.conn d dd hdd
  handler := h₀.handler
  owner e he := by
    obtain ⟨hlt, hrest⟩ := h₀.owner e he
    exact ⟨by rw [Server.setConn_conns, List.length_set]; exact hlt, hrest⟩
  one := h₀.one

theorem ClientConn.Balance.of_eq {stopped : Bool} {taken : List Bytes}
    (h₀ : taken ++ cc.dataCh.buf ++ cc.reader.hand = cc.received) : cc.Balance stopped taken :=
  ⟨by rw [h₀], fun _ => h₀⟩

/-- What the balance depends on. -/
theorem ClientConn.Balance.congr {stopped : Bool} {taken : List Bytes}
    (h₀ : cc.Balance stopped taken) (hbuf : cc'.dataCh.buf = cc.dataCh.buf)
    (hhand : cc'.reader.hand = cc.reader.hand) (hreceived : cc'.received = cc.received)
    (hended : cc'.reader.ended = false → cc.reader.ended = false) : cc'.Balance stopped taken := by
  refine ⟨?_, fun hrun => ?_⟩
  · rw [hbuf, hhand, hreceived]
    exact h₀.first
  · rw [hbuf, hhand, hreceived]
    exact h₀.all (hrun.imp_right hended)

/-- A download takes the oldest chunk of its connection. -/
theorem SharedOut.receives {connID : UInt32} {data : Bytes} {ch : Chan 16 Bytes} (h₀ : SharedOut s log)
    (hh : s.handlers[h]? = some hd) (hpc : hd.pc = .downLoop connID c)
    (hcc : s.conns[c]? = some cc) (hbuf : cc.dataCh.buf = data :: ch.buf) :
    SharedOut ((s.setConn c { cc with dataCh := ch }).setHandler h
      { hd with pc := .downWrite connID c data }) (log ++ [(h, c, data)]) where
  conn d dd hdd := by
    rcases pool_set_some hdd with ⟨rfl, rfl⟩ | ⟨hdc, hdd⟩
    · rw [takenFrom_snoc_self]
      obtain ⟨hfirst, hall⟩ := h₀.conn d cc hcc
      rw [hbuf] at hfirst hall
      exact ⟨by simpa using hfirst, fun hrun => by simpa using hall hrun⟩
    · rw [takenFrom_snoc_other _ _ _ hdc]
      exact h₀.conn d dd hdd
  handler g gd hg := by
    rcases pool_set_some hg with ⟨rfl, rfl⟩ | ⟨hgh, hg⟩
    · -- it is in its loop with empty hands, so it has written all it took before
      have hold := (h₀.handler g hd hh).all (by rw [hpc]; nofun)
      have hnew : Handler.taken { hd with pc := .downWrite connID c data } =
          takenBy (log ++ [(g, c, data)]) g := by
        rw [takenBy_snoc_self, ← hold, Handler.taken, Handler.taken, hpc]
        simp [Pc.hand]
      refine ⟨by rw [hnew], fun _ => hnew, ?_⟩
      rw [← hnew, Handler.taken, List.length_append, List.length_map]
      exact Nat.le_refl _
    · rw [takenBy_snoc_other _ _ _ hgh]
      exact h₀.handler g gd hg
  owner e he := by
    have hlt : c < s.conns.length := (List.getElem?_eq_some_iff.mp hcc).1
    simp only [Server.setHandler_conns, Server.setConn_conns, List.length_set]
    rcases List.mem_append.mp he with he | he
    · refine ⟨(h₀.owner e he).1, owner_setHandler h₀ hh (fun d hrun => ?_) e he⟩
      rw [hpc] at hrun
      exact Or.inr (hrun.resolve_left nofun)
    · cases List.mem_singleton.mp he
      exact ⟨hlt, _, pool_set_self hh, Or.inr ((Pc.drains_downWrite connID c c data).mpr rfl)⟩
  one := by
    -- a download that is in its loop on `c` took from `c` before
    have hconn : ∀ e ∈ log, e.1 = h → e.2.1 = c := by
      rintro e he rfl
      obtain ⟨-, gd, hgd, hrun⟩ := h₀.owner e he
      rw [hh] at hgd
      cases hgd
      rw [hpc] at hrun
      exact (Pc.drains_downLoop connID c e.2.1).mp (hrun.resolve_left nofun)
    intro e he f hf hef
    rcases List.mem_append.mp he with he | he <;> rcases List.mem_append.mp hf with hf | hf
    · exact h₀.one e he f hf hef
    · cases List.mem_singleton.mp hf
      exact hconn e he hef
    · cases List.mem_singleton.mp he
      exact (hconn f hf hef.symm).symm
    · cases List.mem_singleton.mp he
      cases List.mem_singleton.mp hf
      rfl

theorem Pc.hand_of_target {pc : Pc} (ht : pc.target = none) : pc.hand = [] := by
  cases pc <;> simp_all [Pc.target, Pc.hand]

/-- A request arrives. -/
theorem SharedOut.request (h₀ : SharedOut s log) (r : Request) :
    SharedOut { s with handlers := s.handlers ++ [start cfg r] } log where
  conn := h₀.conn
  handler g gd hg := by
    rcases pool_snoc_some hg with hg | ⟨rfl, rfl⟩
    · exact h₀.handler g gd hg
    · -- the log has no entry for a handler that was not there
      have hempty : takenBy log s.handlers.length = [] := by
        rw [takenBy, List.map_eq_nil_iff, List.eq_nil_iff_forall_not_mem]
        intro e he
        obtain ⟨-, gd, hgd, -⟩ := h₀.owner _ (mem_ofKey.mp he)
        exact Nat.lt_irrefl _ (List.getElem?_eq_some_iff.mp hgd).1
      have htaken : (start cfg r).taken = [] := by
        rw [Handler.taken, start_sent, Pc.hand_of_target (start_target cfg r)]
        rfl
      exact ⟨by rw [htaken]; exact List.nil_prefix, fun _ => by rw [htaken, hempty],
        by rw [hempty]; exact Nat.zero_le _⟩
  owner e he := by
    obtain ⟨hlt, gd, hgd, hrun⟩ := h₀.owner e he
    exact ⟨hlt, gd, pool_snoc_old hgd, hrun⟩
  one := h₀.one

/-- A connection is dialed and registered. -/
theorem SharedOut.registerClient (h₀ : SharedOut s log) (connID : UInt32) (req : ConnectRequest) :
    SharedOut (s.registerClient connID (.dialed connID req h)) log where
  conn d dd hdd := by
    rcases pool_snoc_some hdd with hdd | ⟨rfl, rfl⟩
    · exact h₀.conn d dd hdd
    · have hempty : takenFrom log s.conns.length = [] := by
        rw [takenFrom, List.eq_nil_iff_forall_not_mem]
        intro data hdata
        obtain ⟨e, he, heq⟩ := List.mem_map.mp (mem_ofKey.mp hdata)
        obtain ⟨hlt, -⟩ := h₀.owner e he
        rw [heq] at hlt
        exact Nat.lt_irrefl _ hlt
      rw [hempty]
      exact ⟨List.nil_prefix, fun _ => rfl⟩
  handler := h₀.handler
  owner e he := by
    obtain ⟨hlt, hrest⟩ := h₀.owner e he
    refine ⟨?_, hrest⟩
    rw [Server.registerClient_conns, List.length_append]
    exact Nat.lt_add_right _ hlt
  one := h₀.one

theorem SharedOut.unregisterClient (h₀ : SharedOut s log) (connID : UInt32) :
    SharedOut (s.unregisterClient connID) log := ⟨h₀.conn, h₀.handler, h₀.owner, h₀.one⟩

/-! ## One step -/

/-- A download moves on: it keeps what it took, or returns without its last chunk. -/
theorem Handler.Balance.moves {taken : List Bytes} (h₀ : hd.Balance taken)
    (htaken : hd'.taken <+: hd.taken) (hsent : hd.sent <+: hd'.sent)
    (hlive : hd'.pc ≠ .done → hd.pc ≠ .done ∧ hd'.taken = hd.taken) : hd'.Balance taken where
  first := htaken.trans h₀.first
  all hne := by
    obtain ⟨hne', heq⟩ := hlive hne
    rw [heq, h₀.all hne']
  last := h₀.last.trans (Nat.add_le_add_right hsent.length_le 1)

/-- A download returns. -/
theorem SharedOut.returns (h₀ : SharedOut s log) (hh : s.handlers[h]? = some hd)
    (hdone : hd'.pc = .done) (htaken : hd'.taken <+: hd.taken) (hsent : hd.sent <+: hd'.sent) :
    SharedOut (s.setHandler h hd') log :=
  h₀.setHandler hh (fun _ hbal => hbal.moves htaken hsent fun hne => absurd hdone hne)
    fun _ _ => Or.inl hdone

theorem takes_receive {connID : UInt32} (hh : s.handlers[h]? = some hd)
    (hpc : hd.pc = .downLoop connID c) (hcc : s.conns[c]? = some cc) :
    takes s (.handler h .receive) = (cc.dataCh.buf.take 1).map fun data => (h, c, data) := by
  have hat : s.pcOf h = .downLoop connID c := by
    rw [Server.pcOf, hh]
    exact hpc
  simp only [takes, hat, hcc]

/-- A step that takes nothing. -/
theorem SharedOut.kept (h₀ : SharedOut s' log) (hnone : takes s a = []) :
    SharedOut s' (log ++ takes s a) := by
  rw [hnone, List.append_nil]
  exact h₀

theorem SharedOut.handlerStep {m : HandlerMove} (h₀ : SharedOut s log)
    (hs : Step cfg s (.handler h m) s') : SharedOut s' (log ++ takes s (.handler h m)) := by
  cases hs with
  -- handlers of uploads, and downloads that look their connection up
  | dialed hh hpc => exact ((h₀.registerClient _ _).moves hh (by rw [hpc]; rfl) rfl rfl).kept rfl
  | dialFailed hh hpc => exact (h₀.moves hh (by rw [hpc]; rfl) rfl rfl).kept rfl
  | dataFound hh hpc _ => exact (h₀.moves hh (by rw [hpc]; rfl) rfl rfl).kept rfl
  | dataUnknown hh hpc _ => exact (h₀.moves hh (by rw [hpc]; rfl) rfl rfl).kept rfl
  | wrote hh hpc hcc _ =>
    refine SharedOut.kept (.moves (h₀.setConn hcc fun _ hbal => ?_) hh (by rw [hpc]; rfl) rfl rfl) rfl
    exact hbal.congr rfl rfl rfl fun hrun => hrun
  | writeFailed hh hpc hcc _ =>
    refine SharedOut.kept (.moves (h₀.setConn hcc fun _ hbal => ?_) hh (by rw [hpc]; rfl) rfl rfl) rfl
    exact hbal.congr rfl rfl rfl fun hrun => hrun
  | closeFound hh hpc _ => exact (h₀.moves hh (by rw [hpc]; rfl) rfl rfl).kept rfl
  | closeUnknown hh hpc _ => exact (h₀.moves hh (by rw [hpc]; rfl) rfl rfl).kept rfl
  | closedRemote hh hpc hcc =>
    refine SharedOut.kept (.moves (h₀.setConn hcc fun _ hbal => ?_) hh (by rw [hpc]; rfl) rfl rfl) rfl
    exact hbal.congr rfl rfl rfl fun hrun => hrun
  | unregistered hh hpc =>
    exact ((h₀.unregisterClient _).moves hh (by rw [hpc]; rfl) rfl rfl).kept rfl
  | downFound hh hpc _ => exact (h₀.moves hh (by rw [hpc]; rfl) rfl rfl).kept rfl
  | downUnknown hh hpc _ => exact (h₀.moves hh (by rw [hpc]; rfl) rfl rfl).kept rfl
  -- the loop of a download
  | downReceived hh hpc hcc hbuf _ =>
    rw [takes_receive hh hpc hcc, hbuf]
    exact h₀.receives hh hpc hcc hbuf
  | downDrained hh hpc hcc hbuf _ =>
    refine SharedOut.kept ?_ (by rw [takes_receive hh hpc hcc, hbuf]; rfl)
    exact h₀.returns hh rfl (by simp [Handler.taken, hpc, Pc.hand]) (List.prefix_refl _)
  | downCancelled hh hpc =>
    refine SharedOut.kept ?_ rfl
    exact h₀.returns hh rfl (by simp [Handler.taken, hpc, Pc.hand]) (List.prefix_refl _)
  | downStopped hh hpc _ =>
    refine SharedOut.kept ?_ rfl
    exact h₀.returns hh rfl (by simp [Handler.taken, hpc, Pc.hand]) (List.prefix_refl _)
  | @emitted _ hd connID c data nonce hh hpc =>
    -- the chunk goes from the hand to the frames
    have hsame : Handler.taken { hd with
        pc := .downLoop connID c, sent := hd.sent ++ [(nonce, data)] } = hd.taken := by
      simp [Handler.taken, hpc, Pc.hand]
    refine SharedOut.kept (h₀.setHandler hh (fun _ hbal =>
      hbal.moves (by rw [hsame]) (List.prefix_append _ _) fun _ => ?_) ?_) rfl
    · exact ⟨by simp [hpc], hsame⟩
    · intro d hrun
      rw [hpc] at hrun
      exact Or.inr (hrun.resolve_left (by simp))
  | emitFailed hh hpc =>
    refine SharedOut.kept ?_ rfl
    exact h₀.returns hh rfl (by simp [Handler.taken, hpc, Pc.hand]) (List.prefix_append _ _)
  | encryptFailed hh hpc =>
    refine SharedOut.kept ?_ rfl
    exact h₀.returns hh rfl (by simp [Handler.taken, hpc, Pc.hand]) (List.prefix_refl _)

theorem SharedOut.readerStep {m : ReaderMove} (h₀ : SharedOut s log)
    (hs : Step cfg s (.reader c m) s') : SharedOut s' log := by
  cases hs with
  | @readData _ cc data err hcc hpc _ _ _ =>
    refine h₀.setConn hcc fun taken hbal => .of_eq ?_
    have hall := hbal.all (Or.inr (by rw [hpc]; rfl))
    -- nothing was in the reader's hand, so the chunk follows what was read
    rw [hpc, ReaderPc.hand, List.append_nil] at hall
    · rw [← hall]
      rfl
    · simp
  | readEmpty hcc _ _ => exact h₀.setConn hcc fun _ hbal => hbal
  | readErr hcc hpc =>
    exact h₀.setConn hcc fun _ hbal =>
      hbal.congr rfl (by rw [hpc]; rfl) rfl fun _ => by rw [hpc]; rfl
  | @sent _ cc data err ch hcc hpc _ _ hbuf _ =>
    refine h₀.setConn hcc fun taken hbal => .of_eq ?_
    have hall := hbal.all (Or.inr (by rw [hpc]; rfl))
    -- the chunk goes from the reader's hand to the end of the queue
    have hhand : ReaderPc.hand (if err = none then .reading else .closing) = [] := by
      split <;> rfl
    rw [← hall, hpc, hhand, hbuf]
    simp [ReaderPc.hand]
  | @sendStopped _ cc data err hcc hpc hstop =>
    -- the chunk in the reader's hand is gone
    refine h₀.setConn hcc fun taken hbal => ⟨?_, fun hrun => ?_⟩
    · refine List.IsPrefix.trans ?_ hbal.first
      rw [hpc]
      simp [ReaderPc.hand]
    · rw [hstop] at hrun
      rcases hrun with hrun | hrun <;> cases hrun
  | closedCh hcc hpc =>
    refine h₀.setConn hcc fun _ hbal => .of_eq ?_
    have hall := hbal.all (Or.inr (by rw [hpc]; rfl))
    rw [hpc] at hall
    exact hall
  | closedOwn hcc hpc =>
    exact h₀.setConn hcc fun _ hbal =>
      hbal.congr rfl (by rw [hpc]; rfl) rfl (by simp [ReaderPc.ended])
  | unregisteredOwn hcc hpc =>
    exact (h₀.unregisterClient _).setConn hcc fun _ hbal =>
      hbal.congr rfl (by rw [hpc]; rfl) rfl (by simp [ReaderPc.ended])

theorem SharedOut.step (h₀ : SharedOut s log) (hs : Step cfg s a s') :
    SharedOut s' (log ++ takes s a) := by
  cases a with
  | request r =>
    cases hs with
    | request => exact (h₀.request r).kept rfl
  | handler h m => exact h₀.handlerStep hs
  | reader c m => exact (h₀.readerStep hs).kept rfl
  | shutdown =>
    cases hs with
    | shutdown hstop =>
      refine SharedOut.kept ⟨fun c cc hcc => ?_, h₀.handler, h₀.owner, h₀.one⟩ rfl
      exact .of_eq ((h₀.conn c cc hcc).all (Or.inl hstop))

end Steps

/-! ## Every run -/

/-- The chunks that downloads took in a run. -/
def takenIn (cfg : Config) (acts : List Act) : List (Nat × Nat × Bytes) :=
  collect (step cfg) takes .new acts

theorem sharedOut_run {cfg : Config} {acts : List Act} {s : Server}
    (hrun : exec (step cfg) .new acts = some s) : SharedOut s (takenIn cfg acts) := by
  have hnew : SharedOut .new [] := ⟨nofun, nofun, nofun, nofun⟩
  exact collect_invariant (fun _ _ _ _ h₀ hs => h₀.step (step_cases hs)) acts .new s [] hnew hrun

/-- How the chunks of the remotes are divided among the downloads. An entry of `log` is a download,
the connection it is for, and a chunk. -/
structure Divides (s : Server) (log : List (Nat × Nat × Bytes)) : Prop where
  /-- The chunks taken from a connection are the first that came from its remote, in order. -/
  chunks : ∀ (c : Nat) (cc : ClientConn), s.conns[c]? = some cc → takenFrom log c <+: cc.received
  /-- Until the server is stopped, every other chunk is on its way. -/
  rest : s.stopped = false → ∀ (c : Nat) (cc : ClientConn), s.conns[c]? = some cc →
    takenFrom log c ++ cc.dataCh.buf ++ cc.reader.hand = cc.received
  /-- Each was taken by a download of the connection, which is still in its loop or has returned. -/
  owner : ∀ e ∈ log, e.2.1 < s.conns.length ∧
    ∃ hd, s.handlers[e.1]? = some hd ∧ (hd.pc = .done ∨ hd.pc.drains e.2.1 = true)
  /-- A download writes its chunks in order, all but one at most. -/
  frames : ∀ (h : Nat) (hd : Handler), s.handlers[h]? = some hd →
    hd.sent.map Prod.snd <+: takenBy log h ∧ (takenBy log h).length ≤ hd.sent.length + 1
  /-- The one it has not written is in its hand, as long as it runs. -/
  running : ∀ (h : Nat) (hd : Handler), s.handlers[h]? = some hd → hd.pc ≠ .done →
    takenBy log h = hd.sent.map Prod.snd ++ hd.pc.hand
  /-- All its chunks are from one connection. -/
  one : ∀ e ∈ log, ∀ f ∈ log, e.1 = f.1 → e.2.1 = f.2.1

/-- In every run, however many downloads a connection has at a time: each chunk that was read from
its remote goes to one of them, and each of them gets its chunks in the order they were read. -/
theorem downloads_share (cfg : Config) (acts : List Act) (s : Server)
    (hrun : exec (step cfg) .new acts = some s) : Divides s (takenIn cfg acts) := by
  have h₀ := sharedOut_run hrun
  refine ⟨fun c cc hcc => ?_, fun hrunning c cc hcc => ?_, h₀.owner, fun h hd hh => ?_,
    fun h hd hh hpc => ((h₀.handler h hd hh).all hpc).symm, h₀.one⟩
  · have hfirst := (h₀.conn c cc hcc).first
    rw [List.append_assoc] at hfirst
    exact (List.prefix_append _ _).trans hfirst
  · exact (h₀.conn c cc hcc).all (Or.inl hrunning)
  · obtain ⟨hfirst, -, hlast⟩ := h₀.handler h hd hh
    exact ⟨(List.prefix_append _ _).trans hfirst, hlast⟩

/-- Handlers 1 and 2 are downloads of id 1, and the remote sends three chunks, which they take in
turn. -/
def takeTurns : List Act :=
  [.request (downloadRequest 1), .handler 1 .lookup, .request (downloadRequest 1),
    .handler 2 .lookup, .reader 0 (.read [7] none), .reader 0 .send, .reader 0 (.read [8] none),
    .reader 0 .send, .reader 0 (.read [9] none), .reader 0 .send, .handler 1 .receive,
    .handler 2 .receive, .handler 2 (.emit (some .zero) true), .handler 1 (.emit (some .zero) true),
    .handler 1 .receive, .handler 1 (.emit (some .zero) true)]

theorem downloads_share_turns :
    ∃ s, exec (step .plain) .new (connectOne ++ takeTurns) = some s ∧
      s.conns.map (·.received) = [[[7], [8], [9]]] ∧
      s.handlers.map (fun hd => hd.sent.map Prod.snd) = [[], [[7], [9]], [[8]]] ∧
      takenIn .plain (connectOne ++ takeTurns) = [(1, 0, [7]), (2, 0, [8]), (1, 0, [9])] ∧
      Divides s (takenIn .plain (connectOne ++ takeTurns)) := by
  have hlog : takenIn .plain (connectOne ++ takeTurns) =
      [(1, 0, [7]), (2, 0, [8]), (1, 0, [9])] := by
    decide +kernel
  apply exec_reaches (P := fun s : Server => s.conns.map (·.received) = [[[7], [8], [9]]] ∧
    s.handlers.map (fun hd => hd.sent.map Prod.snd) = [[], [[7], [9]], [[8]]])
  · decide +kernel
  · rintro s hs ⟨hreceived, hsent⟩
    exact ⟨hreceived, hsent, hlog, downloads_share .plain _ s hs⟩

end PTBridge.Dpi
