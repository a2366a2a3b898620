import PTBridge.Dpi.Client.Transport
import PTBridge.Dpi.Server.Wellformed

/-!
# Reader goroutines of closed connections

A reader goroutine that has data waits in its `select` for room in `dataCh` or for the server to
stop. Nothing in that `select` hears that its own remote was closed, so the room has to come from
a `handleDownload` loop.

- `Released` is the property: no reader of a closed and unregistered connection waits on a full
  channel that nobody drains.
- `abandons` are the two ways a handler can break it: closing the remote of a reader that waits
  with nobody draining, and the last draining download leaving such a connection.
- `readers_released` is the property over every run without such a step; `closed_reader_waits` is
  a run with one.
-/

namespace PTBridge.Dpi

open PTBridge.Stream PTBridge.Container PTBridge.Transition

/-! ## Waiting readers and draining downloads -/

/-- The number of `handleDownload` loops on connection `c`. -/
def Server.drainers (s : Server) (c : Nat) : Nat := s.handlers.countP fun hd => hd.pc.drains c

/-- The reader goroutine is in its `select` and the channel has no room. -/
def ClientConn.waits (cc : ClientConn) : Bool :=
  match cc.reader with
  | .sending _ _ => decide cc.dataCh.Full
  | _ => false

/-- No reader of a closed, unregistered connection waits for a download that is not there. A
connection is only ever registered under its own id. -/
def Released (s : Server) : Prop :=
  ∀ (c : Nat) (cc : ClientConn), s.conns[c]? = some cc →
    s.clients cc.connID ≠ some c → cc.remoteClosed = true → s.stopped = false →
      ¬ (cc.waits = true ∧ s.drainers c = 0)

/-- The move of handler `h` leaves a waiting reader behind: it closes the remote while nobody
drains the channel, or it is the last to drain it after the remote was closed. A server that stops
releases its readers itself. -/
def abandons (s : Server) (h : Nat) (m : HandlerMove) : Bool :=
  !s.stopped &&
    match s.handlers[h]? with
    | none => false
    | some hd =>
        match hd.pc, m with
        | .closeRemote _ c, .closeRemote => s.conns[c]?.any (·.waits) && s.drainers c == 0
        | .downLoop _ c, .cancel =>
            s.conns[c]?.any (fun cc => cc.remoteClosed && cc.waits) && s.drainers c == 1
        | .downWrite _ c _, .emit none _ =>
            s.conns[c]?.any (fun cc => cc.remoteClosed && cc.waits) && s.drainers c == 1
        | .downWrite _ c _, .emit (some _) false =>
            s.conns[c]?.any (fun cc => cc.remoteClosed && cc.waits) && s.drainers c == 1
        | _, _ => false

/-- The condition on the steps of a run. -/
def NoAbandon (s : Server) : Act → Prop
  | .handler h m => abandons s h m = false
  | _ => True

instance (s : Server) : ∀ a, Decidable (NoAbandon s a)
  | .handler h m => inferInstanceAs (Decidable (abandons s h m = false))
  | .request _ => isTrue trivial
  | .reader _ _ => isTrue trivial
  | .shutdown => isTrue trivial

/-! ## The invariant -/

/-- Every reader that waits after its remote was closed has a download to drain it. -/
def Drained (s : Server) : Prop :=
  ∀ (c : Nat) (cc : ClientConn), s.conns[c]? = some cc → cc.remoteClosed = true →
    s.stopped = false → cc.waits = true → 0 < s.drainers c

section Lemmas

variable {cfg : Config} {s : Server} {h c : Nat} {hd hd' : Handler} {cc cc' : ClientConn}

theorem drainers_setHandler (hh : s.handlers[h]? = some hd) :
    (s.setHandler h hd').drainers c + (hd.pc.drains c).toNat =
      s.drainers c + (hd'.pc.drains c).toNat :=
  pool_countP_set hh

/-- A handler that does not leave a loop keeps the count. -/
theorem drainers_le_setHandler (hh : s.handlers[h]? = some hd)
    (hkeep : hd.pc.drains c = true → hd'.pc.drains c = true) :
    s.drainers c ≤ (s.setHandler h hd').drainers c := by
  have hcount := @drainers_setHandler s h c hd hd' hh
  cases hold : hd.pc.drains c with
  | false =>
    rw [hold] at hcount
    simp at hcount
    omega
  | true =>
    rw [hold, hkeep hold] at hcount
    omega

/-- A step that changes only a handler, and no loop's end, keeps the invariant. -/
theorem Drained.setHandler (hinv : Drained s) (hh : s.handlers[h]? = some hd)
    (hkeep : ∀ c, hd.pc.drains c = true → hd'.pc.drains c = true) :
    Drained (s.setHandler h hd') := by
  intro c cc hcc hclosed hrun hwait
  have hpos := hinv c cc hcc hclosed hrun hwait
  have hle := @drainers_le_setHandler s h c hd hd' hh (hkeep c)
  omega

/-- A step that changes one connection keeps the invariant if that connection does not start to
wait with a closed remote. -/
theorem Drained.setConn (hinv : Drained s)
    (hnew : cc'.remoteClosed = true → s.stopped = false → cc'.waits = true → 0 < s.drainers c) :
    Drained (s.setConn c cc') := by
  intro d dd hdd hclosed hrun hwait
  rcases pool_set_some hdd with ⟨rfl, rfl⟩ | ⟨-, hold⟩
  · exact hnew hclosed hrun hwait
  · exact hinv d dd hold hclosed hrun hwait

/-- A download that leaves connection `c` keeps the invariant if `c` does not need it. -/
theorem Drained.leave (hinv : Drained s) (hh : s.handlers[h]? = some hd)
    (hon : ∀ d, hd.pc.drains d = true ↔ d = c)
    (hneed : ∀ cc, s.conns[c]? = some cc → cc.remoteClosed = true → s.stopped = false →
      cc.waits = true → s.drainers c ≠ 1) :
    Drained (s.setHandler h hd') := by
  intro d dd hdd hclosed hrun hwait
  have hpos := hinv d dd hdd hclosed hrun hwait
  have hcount := @drainers_setHandler s h d hd hd' hh
  -- the count falls by one at `c` and stays elsewhere
  by_cases hdc : d = c
  · subst hdc
    have hone := hneed dd hdd hclosed hrun hwait
    rw [(hon d).mpr rfl] at hcount
    simp only [Bool.toNat_true] at hcount
    omega
  · have hoff : hd.pc.drains d = false := by
      cases hdr : hd.pc.drains d with
      | false => rfl
      | true => exact absurd ((hon d).mp hdr) hdc
    rw [hoff] at hcount
    simp only [Bool.toNat_false] at hcount
    omega

theorem not_waits_of_room (hroom : cc.dataCh.buf.length < 16) : cc.waits = false := by
  have hfull : ¬ cc.dataCh.Full := fun hf => by
    have : cc.dataCh.buf.length = 16 := hf
    omega
  cases hr : cc.reader <;> simp [ClientConn.waits, hr, hfull]

/-- A connection that was just dialed is open. -/
theorem Drained.registerClient (hinv : Drained s) (connID : UInt32) (req : ConnectRequest) :
    Drained (s.registerClient connID (.dialed connID req h)) := by
  intro d dd hdd hclosed hrun hwait
  rcases pool_snoc_some hdd with hold | ⟨-, rfl⟩
  · exact hinv d dd hold hclosed hrun hwait
  · cases hclosed

theorem Drained.unregisterClient (hinv : Drained s) (connID : UInt32) :
    Drained (s.unregisterClient connID) := hinv

/-- A handler outside the download loop may go anywhere. -/
theorem Drained.setHandler_of_idle (hinv : Drained s) (hh : s.handlers[h]? = some hd)
    (hidle : ∀ c, hd.pc.drains c = false) : Drained (s.setHandler h hd') :=
  hinv.setHandler hh fun c hc => absurd (hidle c) (by rw [hc]; decide)

/-- The need that `abandons` tests for when a download leaves. -/
theorem drainers_ne_one_of_not_abandons
    (hno : (!s.stopped && (s.conns[c]?.any (fun cc => cc.remoteClosed && cc.waits) &&
      s.drainers c == 1)) = false) :
    ∀ cc, s.conns[c]? = some cc → cc.remoteClosed = true → s.stopped = false → cc.waits = true →
      s.drainers c ≠ 1 := by
  intro cc hcc hclosed hrun hwait hone
  simp [hcc, hclosed, hrun, hwait, hone] at hno

end Lemmas

/-- One step keeps the invariant, unless it abandons a reader. -/
theorem Drained.step {cfg : Config} {s s' : Server} {a : Act} (hinv : Drained s)
    (hok : NoAbandon s a) (hs : Step cfg s a s') : Drained s' := by
  cases hs with
  | request r =>
    intro c cc hcc hclosed hrun hwait
    have hpos := hinv c cc hcc hclosed hrun hwait
    rw [Server.drainers, List.countP_append]
    exact Nat.add_pos_left hpos _
  -- handlers that drain nothing do not count
  | dialed hh hpc =>
    exact (hinv.registerClient _ _).setHandler_of_idle hh fun c => by rw [hpc]; rfl
  | dialFailed hh hpc => exact hinv.setHandler_of_idle hh fun c => by rw [hpc]; rfl
  | dataFound hh hpc _ => exact hinv.setHandler_of_idle hh fun c => by rw [hpc]; rfl
  | dataUnknown hh hpc _ => exact hinv.setHandler_of_idle hh fun c => by rw [hpc]; rfl
  | closeFound hh hpc _ => exact hinv.setHandler_of_idle hh fun c => by rw [hpc]; rfl
  | closeUnknown hh hpc _ => exact hinv.setHandler_of_idle hh fun c => by rw [hpc]; rfl
  | downFound hh hpc _ => exact hinv.setHandler_of_idle hh fun c => by rw [hpc]; rfl
  | downUnknown hh hpc _ => exact hinv.setHandler_of_idle hh fun c => by rw [hpc]; rfl
  | unregistered hh hpc =>
    exact (hinv.unregisterClient _).setHandler_of_idle hh fun c => by rw [hpc]; rfl
  | wrote hh hpc hcc hopen =>
    refine Drained.setHandler_of_idle (hinv.setConn ?_) hh fun c => by rw [hpc]; rfl
    exact fun hclosed hrun hwait => hinv _ _ hcc hclosed hrun hwait
  | writeFailed hh hpc hcc _ =>
    refine Drained.setHandler_of_idle (hinv.setConn ?_) hh fun c => by rw [hpc]; rfl
    exact fun hclosed hrun hwait => hinv _ _ hcc hclosed hrun hwait
  | @closedRemote h hd connID c cc hh hpc hcc =>
    -- the remote is closed here: the condition says somebody drains a reader that waits
    have hno : abandons s h .closeRemote = false := hok
    simp only [abandons, hh, hpc, hcc, Option.any_some] at hno
    refine (hinv.setConn fun _ hrun hwait => ?_).setHandler_of_idle hh fun c => by rw [hpc]; rfl
    have hwait' : cc.waits = true := hwait
    rw [hrun, hwait', Bool.not_false, Bool.true_and, Bool.true_and, beq_eq_false_iff_ne] at hno
    exact Nat.pos_of_ne_zero hno
  | @downReceived h hd connID c cc data ch hh hpc hcc hbuf hclosed =>
    -- a receive makes room
    refine (hinv.setConn fun _ _ hwait => ?_).setHandler hh fun c => by rw [hpc]; exact id
    have hfits := cc.dataCh.fits
    rw [hbuf, List.length_cons] at hfits
    exact absurd hwait (Bool.eq_false_iff.mp (not_waits_of_room hfits))
  -- an empty channel has room, so nobody waits
  | @downDrained h hd connID c cc hh hpc hcc hbuf hclosed =>
    refine hinv.leave hh (fun d => by rw [hpc]; exact Pc.drains_downLoop _ _ d) ?_
    intro cc' hcc' _ _ hwait
    rw [hcc] at hcc'
    cases hcc'
    have hroom : cc.dataCh.buf.length < 16 := by
      rw [hbuf]
      exact Nat.succ_pos 15
    exact absurd hwait (Bool.eq_false_iff.mp (not_waits_of_room hroom))
  -- a download that leaves is not the last one a closed reader needs
  | @downCancelled h hd connID c hh hpc =>
    have hno : abandons s h .cancel = false := hok
    simp only [abandons, hh, hpc] at hno
    exact hinv.leave hh (fun d => by rw [hpc]; exact Pc.drains_downLoop _ _ d)
      (drainers_ne_one_of_not_abandons hno)
  | downStopped hh hpc hstop =>
    refine hinv.leave hh (fun d => by rw [hpc]; exact Pc.drains_downLoop _ _ d) ?_
    intro _ _ _ hrun
    rw [hstop] at hrun
    cases hrun
  | emitted hh hpc => exact hinv.setHandler hh fun c => by rw [hpc]; exact id
  | @emitFailed h hd connID c data nonce hh hpc =>
    have hno : abandons s h (.emit (some nonce) false) = false := hok
    simp only [abandons, hh, hpc] at hno
    exact hinv.leave hh (fun d => by rw [hpc]; exact Pc.drains_downWrite _ _ d _)
      (drainers_ne_one_of_not_abandons hno)
  | @encryptFailed h hd connID c data ok hh hpc =>
    have hno : abandons s h (.emit none ok) = false := hok
    simp only [abandons, hh, hpc] at hno
    exact hinv.leave hh (fun d => by rw [hpc]; exact Pc.drains_downWrite _ _ d _)
      (drainers_ne_one_of_not_abandons hno)
  | readData hcc hpc _ _ hopen =>
    -- new data comes only from an open remote
    exact hinv.setConn fun hclosed => absurd hclosed (by rw [hopen]; decide)
  | readEmpty hcc _ _ =>
    exact hinv.setConn fun hclosed hrun hwait => hinv _ _ hcc hclosed hrun hwait
  -- the reader leaves its select, or was not in it
  | readErr _ _ => exact hinv.setConn fun _ _ hwait => by cases hwait
  | @sent c cc data err ch _ _ _ _ _ _ =>
    refine hinv.setConn fun _ _ hwait => ?_
    cases err <;> cases hwait
  | sendStopped _ _ _ => exact hinv.setConn fun _ _ hwait => by cases hwait
  | closedCh _ _ => exact hinv.setConn fun _ _ hwait => by cases hwait
  | closedOwn _ _ => exact hinv.setConn fun _ _ hwait => by cases hwait
  | unregisteredOwn _ _ =>
    exact (hinv.unregisterClient _).setConn fun _ _ hwait => by cases hwait
  | shutdown _ =>
    intro _ _ _ _ hrun
    cases hrun

theorem drained_new : Drained .new := by
  intro c cc hcc
  cases hcc

/-! ## Runs -/

/-- Seventeen one-byte chunks arrive on connection 0: sixteen fill the channel, one waits. -/
def fillChannel : List Act :=
  (List.replicate 16 [Act.reader 0 (.read [7] none), .reader 0 .send]).flatten ++
    [.reader 0 (.read [7] none)]

/-- Handler `h` serves a `CloseConn` for id 1. -/
def closeOne (h : Nat) : List Act :=
  [.request (closeConnRequest Config.plain.encryptor .zero 1), .handler h .lookup,
    .handler h .closeRemote, .handler h .unregister]

/-- In every run in which no step abandons a reader, no reader of a closed and unregistered
connection waits on a full channel that nobody drains. -/
theorem readers_released (cfg : Config) (acts : List Act) (s : Server)
    (hok : Meets (step cfg) NoAbandon .new acts) (hrun : exec (step cfg) .new acts = some s) :
    Released s := by
  have hinv : Drained s :=
    exec_invariant (fun _ _ _ hi ha hs => Drained.step hi ha (step_cases hs)) acts .new s drained_new
      hok hrun
  intro c cc hcc _ hclosed hstop hstuck
  have hpos := hinv c cc hcc hclosed hstop hstuck.1
  omega

/-- A reader that waits when its connection is closed, with a download to drain its channel. -/
theorem readers_released_attached :
    ∃ s, exec (step .plain) .new
        (connectOne ++ [.request (downloadRequest 1), .handler 1 .lookup] ++ fillChannel ++
          closeOne 2) = some s ∧ Released s := by
  have hok : Meets (step .plain) NoAbandon .new
      (connectOne ++ [.request (downloadRequest 1), .handler 1 .lookup] ++ fillChannel ++
        closeOne 2) := by decide +kernel
  apply exec_reaches (P := fun _ => True)
  · decide +kernel
  · intro s hs _
    exact readers_released .plain _ s hok hs

/-- With no download attached, a close leaves the reader waiting for good. -/
theorem closed_reader_waits :
    ∃ s, exec (step .plain) .new (connectOne ++ fillChannel ++ closeOne 1) = some s ∧
      ¬ Released s := by
  have hrun : (exec (step .plain) .new (connectOne ++ fillChannel ++ closeOne 1)).any (fun s =>
      s.conns[0]?.any fun cc => decide (s.clients cc.connID ≠ some 0) && cc.remoteClosed &&
        !s.stopped && cc.waits && s.drainers 0 == 0) = true := by decide +kernel
  obtain ⟨s, hs, hstuck⟩ := (Option.any_eq_true _ _).mp hrun
  obtain ⟨cc, hcc, hbad⟩ := (Option.any_eq_true _ _).mp hstuck
  simp only [Bool.and_eq_true, decide_eq_true_eq, Bool.not_eq_true', beq_iff_eq] at hbad
  obtain ⟨⟨⟨⟨hgone, hclosed⟩, hstop⟩, hwait⟩, hnone⟩ := hbad
  exact ⟨s, hs, fun hrel => hrel 0 cc hcc hgone hclosed hstop ⟨hwait, hnone⟩⟩

end PTBridge.Dpi
