import PTBridge.Snowflake.Redial

/-!
# Who waits for whom in `RedialPacketConn.exchange`

The error channels of an `exchange` are unbuffered. A goroutine that fails waits until somebody
receives its error: the select of `exchange`, which receives once, or the other goroutine, if that
one comes back to its own select.

## Architecture

- `View` is one connection as seen from its two channels: where its goroutines stand, and whether
  its `exchange` is still at the select. `Move` lists what can happen to it, and `step_view` says
  that every step of the whole system is one of these moves, or none, for each connection.
- `Leaks` is the property to exclude: `exchange` has returned, and a goroutine waits to send
  whatever happens from now on.
- `exchange_leaves_none_blocked` excludes it for runs in which errors come while somebody listens;
  `unheard_error_leaks` says that any other error can leave a goroutine behind.
-/

namespace PTBridge.Snowflake.Redial

open PTBridge.Stream PTBridge.Container PTBridge.Transition

/-! ## One connection, seen from its channels -/

structure View where
  reader : ReaderPc
  writer : WriterPc
  /-- `exchange` is at its select. -/
  selecting : Bool
  deriving DecidableEq

/-- The view of connection `d`, once it is dialed. -/
def RedialPacketConn.view (s : RedialPacketConn) (d : Nat) : Option View :=
  s.conns[d]?.map fun c => ⟨c.reader, c.writer, decide (s.dialer = .exchanging d)⟩

inductive Label where
  /-- `exchange` receives from `readErrCh` and returns -/
  | exchangeRead
  /-- `exchange` receives from `writeErrCh` and returns -/
  | exchangeWrite
  | readFails
  | writeFails
  /-- neither `exchange` nor an error is involved -/
  | goesOn

/-- What can happen to a connection. -/
inductive Move : View → Label → View → Prop where
  | readErr {w} : Move ⟨.reporting, w, true⟩ .exchangeRead ⟨.done, w, false⟩
  | readDone {w} : Move ⟨.done, w, true⟩ .exchangeRead ⟨.done, w, false⟩
  | writeErr {r} : Move ⟨r, .reporting, true⟩ .exchangeWrite ⟨r, .done, false⟩
  | writeDone {r} : Move ⟨r, .done, true⟩ .exchangeWrite ⟨r, .done, false⟩
  | readFails {w x} : Move ⟨.reading, w, x⟩ .readFails ⟨.reporting, w, x⟩
  | writeFails {r i p x} : Move ⟨r, .writing i p, x⟩ .writeFails ⟨r, .reporting, x⟩
  -- the reading goroutine at its select and after a packet
  | readerQuits {w x} : Move ⟨.checking, w, x⟩ .goesOn ⟨.done, w, x⟩
  | readerHears {x} : Move ⟨.checking, .reporting, x⟩ .goesOn ⟨.done, .done, x⟩
  | reads {w x} : Move ⟨.checking, w, x⟩ .goesOn ⟨.reading, w, x⟩
  | gotPacket {w x p} : Move ⟨.reading, w, x⟩ .goesOn ⟨.queueing p, w, x⟩
  | queued {w x p} : Move ⟨.queueing p, w, x⟩ .goesOn ⟨.checking, w, x⟩
  -- the writing goroutine at its select and after a packet
  | writerQuits {r x} : Move ⟨r, .selecting, x⟩ .goesOn ⟨r, .done, x⟩
  | writerHears {x} : Move ⟨.reporting, .selecting, x⟩ .goesOn ⟨.done, .done, x⟩
  | takes {r i p x} : Move ⟨r, .selecting, x⟩ .goesOn ⟨r, .writing i p, x⟩
  | wrote {r i p x} : Move ⟨r, .writing i p, x⟩ .goesOn ⟨r, .selecting, x⟩

/-- Somebody listens: an error comes while `exchange` is at its select and the other goroutine is
not waiting to report as well, and `exchange` takes a closed channel only if no goroutine is
waiting on the other one. -/
def Timely (v : View) : Label → Prop
  | .exchangeRead => ¬ (v.reader = .done ∧ v.writer = .reporting)
  | .exchangeWrite => ¬ (v.writer = .done ∧ v.reader = .reporting)
  | .readFails => v.selecting = true ∧ v.writer ≠ .reporting
  | .writeFails => v.selecting = true ∧ v.reader ≠ .reporting
  | .goesOn => True

/-- Every goroutine that waits to report is heard: `exchange` is at its select, and will not take
another error instead. -/
structure Heard (v : View) : Prop where
  reader : v.reader = .reporting → v.selecting = true ∧ v.writer ≠ .reporting
  writer : v.writer = .reporting → v.selecting = true ∧ v.reader ≠ .reporting

theorem Heard.move {v v' : View} {l : Label} (hv : Heard v) (hm : Move v l v')
    (ht : Timely v l) : Heard v' := by
  cases hm with
  | readErr => exact ⟨nofun, fun hw => absurd hw (hv.reader rfl).2⟩
  | readDone => exact ⟨nofun, fun hw => absurd ⟨rfl, hw⟩ ht⟩
  | writeErr => exact ⟨fun hr => absurd hr (hv.writer rfl).2, nofun⟩
  | writeDone => exact ⟨fun hr => absurd ⟨rfl, hr⟩ ht, nofun⟩
  | readFails => exact ⟨fun _ => ht, fun hw => absurd hw ht.2⟩
  | writeFails => exact ⟨fun hr => absurd hr ht.2, fun _ => ht⟩
  | readerQuits => exact ⟨nofun, fun hw => ⟨(hv.writer hw).1, nofun⟩⟩
  | readerHears => exact ⟨nofun, nofun⟩
  | reads => exact ⟨nofun, fun hw => ⟨(hv.writer hw).1, nofun⟩⟩
  | gotPacket => exact ⟨nofun, fun hw => ⟨(hv.writer hw).1, nofun⟩⟩
  | queued => exact ⟨nofun, fun hw => ⟨(hv.writer hw).1, nofun⟩⟩
  | writerQuits => exact ⟨fun hr => ⟨(hv.reader hr).1, nofun⟩, nofun⟩
  | writerHears => exact ⟨nofun, nofun⟩
  | takes => exact ⟨fun hr => ⟨(hv.reader hr).1, nofun⟩, nofun⟩
  | wrote => exact ⟨fun hr => ⟨(hv.reader hr).1, nofun⟩, nofun⟩

/-- `exchange` returns only once one of its goroutines has. -/
def OneDone (v : View) : Prop :=
  v.selecting = false → v.reader = .done ∨ v.writer = .done

theorem OneDone.move {v v' : View} {l : Label} (hv : OneDone v) (hm : Move v l v') :
    OneDone v' := by
  intro hx
  cases hm with
  | readErr => exact Or.inl rfl
  | readDone => exact Or.inl rfl
  | writeErr => exact Or.inr rfl
  | writeDone => exact Or.inr rfl
  | readerQuits => exact Or.inl rfl
  | readerHears => exact Or.inl rfl
  | writerQuits => exact Or.inr rfl
  | writerHears => exact Or.inl rfl
  -- the goroutine that moves has not returned, so it is the other one
  | readFails => exact (hv hx).imp nofun id
  | writeFails => exact (hv hx).imp id nofun
  | reads => exact (hv hx).imp nofun id
  | gotPacket => exact (hv hx).imp nofun id
  | queued => exact (hv hx).imp nofun id
  | takes => exact (hv hx).imp id nofun
  | wrote => exact (hv hx).imp id nofun

/-- With `exchange` and the other goroutine gone, nothing happens any more to one that waits. -/
theorem not_move_reader {v' : View} {l : Label} : ¬ Move ⟨.reporting, .done, false⟩ l v' := nofun

theorem not_move_writer {v' : View} {l : Label} : ¬ Move ⟨.done, .reporting, false⟩ l v' := nofun

/-! ## Every step is a move -/

/-- The write that `room` allows fails. -/
def Conn.writeFails (c : Conn) (room : Option Nat) : Bool :=
  match c.writer with
  | .writing _ p => !(writePacket p c.bw ⟨c.writes, room⟩).1
  | _ => false

/-- The connection that a step brings an error to, or whose `exchange` it ends. -/
def RedialPacketConn.about (s : RedialPacketConn) : Act → Option (Nat × Label)
  | .dial .readErr =>
      match s.dialer with
      | .exchanging d => some (d, .exchangeRead)
      | _ => none
  | .dial .writeErr =>
      match s.dialer with
      | .exchanging d => some (d, .exchangeWrite)
      | _ => none
  | .reader d (.read none) => some (d, .readFails)
  | .writer d (.write room) =>
      if s.conns[d]?.any (fun c => c.writeFails room) then some (d, .writeFails) else none
  | _ => none

/-- The step is timely for the connection it is about. -/
def InTime (s : RedialPacketConn) (a : Act) : Prop :=
  ∀ p ∈ s.about a, ∀ v ∈ s.view p.1, Timely v p.2

instance (v : View) : ∀ l, Decidable (Timely v l)
  | .exchangeRead => inferInstanceAs (Decidable (¬ (_ ∧ _)))
  | .exchangeWrite => inferInstanceAs (Decidable (¬ (_ ∧ _)))
  | .readFails => inferInstanceAs (Decidable (_ ∧ _))
  | .writeFails => inferInstanceAs (Decidable (_ ∧ _))
  | .goesOn => isTrue trivial

instance (s : RedialPacketConn) (a : Act) : Decidable (InTime s a) :=
  inferInstanceAs (Decidable (∀ p ∈ s.about a, ∀ v ∈ s.view p.1, Timely v p.2))

theorem about_write {s : RedialPacketConn} {d : Nat} {c : Conn} {room : Option Nat}
    (hc : s.conns[d]? = some c) (hfails : c.writeFails room = true) :
    s.about (.writer d (.write room)) = some (d, .writeFails) := by
  simp [RedialPacketConn.about, hc, hfails]

/-- How a step changes the view of one connection. -/
inductive ViewStep (inTime : Prop) : Option View → Option View → Prop where
  | same {v} : ViewStep inTime v v
  | moved {v l v'} (hm : Move v l v') (ht : inTime → Timely v l) :
      ViewStep inTime (some v) (some v')
  | dialed : ViewStep inTime none (some ⟨.checking, .selecting, true⟩)
  | cut : ViewStep inTime none (some ⟨.done, .done, false⟩)

section Views

variable {id : ClientID} {s s' t : RedialPacketConn} {a : Act} {d e : Nat} {c c' : Conn}

theorem view_eq (hc : s.conns[d]? = some c) :
    s.view d = some ⟨c.reader, c.writer, decide (s.dialer = .exchanging d)⟩ := by
  rw [RedialPacketConn.view, hc, Option.map_some]

theorem view_exchanging (hpc : s.dialer = .exchanging d) (hc : s.conns[d]? = some c) :
    s.view d = some ⟨c.reader, c.writer, true⟩ := by
  rw [view_eq hc, decide_eq_true hpc]

/-- A connection that a step does not touch looks the same, if `dialLoop` neither enters nor leaves
its `exchange`. -/
theorem view_same (hconns : t.conns[e]? = s.conns[e]?)
    (hdialer : t.dialer = .exchanging e ↔ s.dialer = .exchanging e) : t.view e = s.view e := by
  rw [RedialPacketConn.view, RedialPacketConn.view, hconns]
  simp only [hdialer]

theorem viewStep_same {p : Prop} (hconns : t.conns[e]? = s.conns[e]?)
    (hdialer : t.dialer = .exchanging e ↔ s.dialer = .exchanging e) :
    ViewStep p (s.view e) (t.view e) := by
  rw [view_same hconns hdialer]
  exact .same

/-- A step of a goroutine of connection `d`, or of `exchange` with it. -/
theorem viewStep_set {p : Prop} (hc : s.conns[d]? = some c) (hconns : t.conns = s.conns.set d c')
    (hdialer : ∀ e, e ≠ d → (t.dialer = .exchanging e ↔ s.dialer = .exchanging e))
    (hself : ViewStep p (some ⟨c.reader, c.writer, decide (s.dialer = .exchanging d)⟩)
      (some ⟨c'.reader, c'.writer, decide (t.dialer = .exchanging d)⟩)) :
    ViewStep p (s.view e) (t.view e) := by
  by_cases hde : e = d
  · subst hde
    have hc' : t.conns[e]? = some c' := by
      rw [hconns]
      exact pool_set_self hc
    rw [view_eq hc, view_eq hc']
    exact hself
  · have hother : t.conns[e]? = s.conns[e]? := by
      rw [hconns, List.getElem?_set_ne (Ne.symm hde)]
    exact viewStep_same hother (hdialer e hde)

/-- A goroutine moves without `dialLoop`. -/
theorem viewStep_goroutine {p : Prop} (hc : s.conns[d]? = some c)
    (hconns : t.conns = s.conns.set d c') (hdialer : t.dialer = s.dialer) {l : Label}
    (hm : Move ⟨c.reader, c.writer, decide (s.dialer = .exchanging d)⟩ l
      ⟨c'.reader, c'.writer, decide (s.dialer = .exchanging d)⟩)
    (ht : p → Timely ⟨c.reader, c.writer, decide (s.dialer = .exchanging d)⟩ l) :
    ViewStep p (s.view e) (t.view e) := by
  refine viewStep_set hc hconns (fun e _ => by rw [hdialer]) ?_
  rw [hdialer]
  exact .moved hm ht

theorem viewStep_goesOn {p : Prop} (hc : s.conns[d]? = some c)
    (hconns : t.conns = s.conns.set d c') (hdialer : t.dialer = s.dialer)
    (hm : Move ⟨c.reader, c.writer, decide (s.dialer = .exchanging d)⟩ .goesOn
      ⟨c'.reader, c'.writer, decide (s.dialer = .exchanging d)⟩) :
    ViewStep p (s.view e) (t.view e) :=
  viewStep_goroutine hc hconns hdialer hm fun _ => trivial

/-- `exchange` with connection `d` returns. -/
theorem viewStep_exchange {p : Prop} (hpc : s.dialer = .exchanging d) (hc : s.conns[d]? = some c)
    (hconns : t.conns = s.conns.set d c') (hdialer : t.dialer = .closing d) {l : Label}
    (hm : Move ⟨c.reader, c.writer, true⟩ l ⟨c'.reader, c'.writer, false⟩)
    (ht : p → Timely ⟨c.reader, c.writer, true⟩ l) : ViewStep p (s.view e) (t.view e) := by
  refine viewStep_set hc hconns (fun e hne => ?_) ?_
  · rw [hpc, hdialer]
    simp [Ne.symm hne]
  · rw [hpc, hdialer]
    simpa using .moved hm ht

/-- A new connection joins the others. -/
theorem viewStep_snoc {p : Prop} (hconns : t.conns = s.conns ++ [c])
    (hdialer : ∀ e, e < s.conns.length →
      (t.dialer = .exchanging e ↔ s.dialer = .exchanging e))
    (hself : ViewStep p none
      (some ⟨c.reader, c.writer, decide (t.dialer = .exchanging s.conns.length)⟩)) :
    ViewStep p (s.view e) (t.view e) := by
  rcases Nat.lt_trichotomy e s.conns.length with hlt | heq | hgt
  · have hold : t.conns[e]? = s.conns[e]? := by rw [hconns, List.getElem?_append_left hlt]
    exact viewStep_same hold (hdialer e hlt)
  · subst heq
    have hnew : t.conns[s.conns.length]? = some c := by
      rw [hconns]
      exact pool_snoc_new
    have hnone : s.view s.conns.length = none := by
      rw [RedialPacketConn.view, List.getElem?_eq_none (Nat.le_refl _), Option.map_none]
    rw [view_eq hnew, hnone]
    exact hself
  · have hnone : s.view e = none := by
      rw [RedialPacketConn.view, List.getElem?_eq_none (Nat.le_of_lt hgt), Option.map_none]
    have hnone' : t.view e = none := by
      have hlen : t.conns.length ≤ e := by
        rw [hconns, List.length_append, List.length_singleton]
        exact hgt
      rw [RedialPacketConn.view, List.getElem?_eq_none hlen, Option.map_none]
    rw [hnone, hnone']
    exact .same

/-- Every step of the system is, for each connection, one of its moves or none. -/
theorem step_view (hs : Step id s a s') (e : Nat) :
    ViewStep (InTime s a) (s.view e) (s'.view e) := by
  cases hs with
  | writeTo _ => exact .same
  | writeRefused _ _ => exact .same
  | readFrom => exact .same
  | close => exact .same
  -- the dial loop outside of `exchange`
  | loopEnds hpc _ => exact viewStep_same rfl (by simp [hpc])
  | loopDials hpc _ => exact viewStep_same rfl (by simp [hpc])
  | dialFailed hpc => exact viewStep_same rfl (by simp [hpc])
  | dialed hpc _ =>
    refine viewStep_snoc rfl (fun e hlt => ?_) (by simpa using .dialed)
    simp [hpc, Nat.ne_of_gt hlt]
  | dialCut hpc _ =>
    refine viewStep_snoc rfl (fun e _ => ?_) (by simpa using .cut)
    simp [hpc]
  | connClosed hpc hc =>
    refine viewStep_set hc rfl (fun e _ => by simp [hpc]) ?_
    simpa [hpc] using .same
  -- `exchange` returns, having met a goroutine that reports or found a channel closed
  | @exchangeReadErr d c hpc hc hr =>
    refine viewStep_exchange hpc hc rfl rfl (by rw [hr]; exact .readErr) fun hin => ?_
    exact hin (d, .exchangeRead) (by rw [RedialPacketConn.about, hpc]; rfl) _ (view_exchanging hpc hc)
  | @exchangeReadDone d c hpc hc hr =>
    refine viewStep_exchange hpc hc (pool_set_same hc).symm rfl (by rw [hr]; exact .readDone)
      fun hin => ?_
    exact hin (d, .exchangeRead) (by rw [RedialPacketConn.about, hpc]; rfl) _ (view_exchanging hpc hc)
  | @exchangeWriteErr d c hpc hc hw =>
    refine viewStep_exchange hpc hc rfl rfl (by rw [hw]; exact .writeErr) fun hin => ?_
    exact hin (d, .exchangeWrite) (by rw [RedialPacketConn.about, hpc]; rfl) _ (view_exchanging hpc hc)
  | @exchangeWriteDone d c hpc hc hw =>
    refine viewStep_exchange hpc hc (pool_set_same hc).symm rfl (by rw [hw]; exact .writeDone)
      fun hin => ?_
    exact hin (d, .exchangeWrite) (by rw [RedialPacketConn.about, hpc]; rfl) _ (view_exchanging hpc hc)
  -- the goroutines
  | readerQuit hc hr _ =>
    exact viewStep_goesOn hc rfl rfl (by rw [hr]; exact .readerQuits)
  | readerWriteErr hc hr hw =>
    exact viewStep_goesOn hc rfl rfl (by rw [hr, hw]; exact .readerHears)
  | readerWriteDone hc hr _ =>
    exact viewStep_goesOn hc rfl rfl (by rw [hr]; exact .readerQuits)
  | readerGoesOn hc hr _ _ =>
    exact viewStep_goesOn hc rfl rfl (by rw [hr]; exact .reads)
  | @readFailed d c hc hr =>
    refine viewStep_goroutine hc rfl rfl (by rw [hr]; exact .readFails) fun hin => ?_
    exact hin (d, .readFails) rfl _ (view_eq hc)
  | readPacket hc hr _ =>
    exact viewStep_goesOn hc rfl rfl (by rw [hr]; exact .gotPacket)
  | packetQueued hc hr =>
    exact viewStep_goesOn hc rfl rfl (by rw [hr]; exact .queued)
  | writerQuit hc hw _ =>
    exact viewStep_goesOn hc rfl rfl (by rw [hw]; exact .writerQuits)
  | writerReadErr hc hw hr =>
    exact viewStep_goesOn hc rfl rfl (by rw [hw, hr]; exact .writerHears)
  | writerReadDone hc hw _ =>
    exact viewStep_goesOn hc rfl rfl (by rw [hw]; exact .writerQuits)
  | took hc hw _ =>
    exact viewStep_goesOn hc rfl rfl (by rw [hw]; exact .takes)
  | @wrote d c i p room ok bw k hc hw _ hwrite =>
    cases ok with
    | true =>
      exact viewStep_goesOn hc rfl rfl (by rw [hw]; exact .wrote)
    | false =>
      refine viewStep_goroutine hc rfl rfl (by rw [hw]; exact .writeFails) fun hin => ?_
      have hfails : c.writeFails room = true := by rw [Conn.writeFails, hw]; simp [hwrite]
      exact hin (d, .writeFails) (about_write hc hfails) _ (view_eq hc)

end Views

/-! ## Goroutines that are left behind -/

/-- The reading goroutine of connection `d` waits to send its error, whatever else happens. -/
def ReaderStuck (id : ClientID) (s : RedialPacketConn) (d : Nat) : Prop :=
  ∀ (acts : List Act) (t : RedialPacketConn), exec (step id) s acts = some t →
    ∃ c, t.conns[d]? = some c ∧ c.reader = .reporting

/-- The writing goroutine of connection `d` waits to send its error, whatever else happens. -/
def WriterStuck (id : ClientID) (s : RedialPacketConn) (d : Nat) : Prop :=
  ∀ (acts : List Act) (t : RedialPacketConn), exec (step id) s acts = some t →
    ∃ c, t.conns[d]? = some c ∧ c.writer = .reporting

/-- An `exchange` has returned, and one of its goroutines will wait for ever. -/
def Leaks (id : ClientID) (s : RedialPacketConn) : Prop :=
  ∃ d, s.dialer ≠ .exchanging d ∧ (ReaderStuck id s d ∨ WriterStuck id s d)

section Runs

variable {id : ClientID} {s s' t : RedialPacketConn} {a : Act} {d : Nat} {v : View} {c : Conn}

theorem conn_of_view (h : s.view d = some v) :
    ∃ c, s.conns[d]? = some c ∧ c.reader = v.reader ∧ c.writer = v.writer := by
  obtain ⟨c, hc, rfl⟩ := Option.map_eq_some_iff.mp h
  exact ⟨c, hc, rfl, rfl⟩

/-- A view without moves stays as it is. -/
theorem view_stuck (hno : ∀ l v', ¬ Move v l v') (h : s.view d = some v) {acts : List Act}
    (hrun : exec (step id) s acts = some t) : t.view d = some v := by
  refine exec_invariant_all (I := fun x => x.view d = some v) (fun x b x' hx hs => ?_) acts s t h
    hrun
  have hview := step_view (step_cases hs) d
  rw [hx] at hview
  generalize x'.view d = next at hview ⊢
  cases hview with
  | same => rfl
  | moved hm _ => exact absurd hm (hno _ _)

/-- One goroutine waits to report, the other has returned, and so has `exchange`. -/
theorem leaks_of_conn (hc : s.conns[d]? = some c) (hout : s.dialer ≠ .exchanging d)
    (h : (c.reader = .reporting ∧ c.writer = .done) ∨ (c.reader = .done ∧ c.writer = .reporting)) :
    Leaks id s := by
  have hview := view_eq hc
  rw [decide_eq_false hout] at hview
  rcases h with ⟨hr, hw⟩ | ⟨hr, hw⟩
  · rw [hr, hw] at hview
    refine ⟨d, hout, Or.inl fun acts t hrun => ?_⟩
    obtain ⟨c', hc', hr', -⟩ := conn_of_view (view_stuck (fun _ _ => not_move_reader) hview hrun)
    exact ⟨c', hc', hr'⟩
  · rw [hr, hw] at hview
    refine ⟨d, hout, Or.inr fun acts t hrun => ?_⟩
    obtain ⟨c', hc', -, hw'⟩ := conn_of_view (view_stuck (fun _ _ => not_move_writer) hview hrun)
    exact ⟨c', hc', hw'⟩

/-! ## Errors in time -/

/-- Every connection satisfies `P`. -/
def EachView (P : View → Prop) (s : RedialPacketConn) : Prop :=
  ∀ d v, s.view d = some v → P v

/-- A step keeps what the moves keep, if it holds for a new connection. -/
theorem EachView.step {P : View → Prop} (hnew : P ⟨.checking, .selecting, true⟩)
    (hcut : P ⟨.done, .done, false⟩)
    (hmove : ∀ v l v', P v → Move v l v' → (InTime s a → Timely v l) → P v')
    (hI : EachView P s) (hs : Step id s a s') : EachView P s' := by
  intro d v' hv'
  have hview := step_view hs d
  rw [hv'] at hview
  generalize hold : s.view d = old at hview
  cases hview with
  | same => exact hI d v' hold
  | moved hm ht => exact hmove _ _ _ (hI d _ hold) hm ht
  | dialed => exact hnew
  | cut => exact hcut

/-- For every interleaving in which errors come while somebody listens, no `exchange` leaves a
goroutine behind. -/
theorem exchange_leaves_none_blocked (id : ClientID) (acts : List Act) (s : RedialPacketConn)
    (hin : Meets (step id) InTime .new acts) (hrun : exec (step id) .new acts = some s) :
    ¬ Leaks id s := by
  have hI : EachView Heard s :=
    exec_invariant (fun x b x' hx hok hs => EachView.step ⟨nofun, nofun⟩ ⟨nofun, nofun⟩
        (fun v l v' hv hm ht => hv.move hm (ht hok)) hx (step_cases hs))
      acts _ s (fun d v h => by cases h) hin hrun
  rintro ⟨d, hout, hstuck | hstuck⟩
  · obtain ⟨c, hc, hr⟩ := hstuck [] s rfl
    exact hout (of_decide_eq_true ((hI d _ (view_eq hc)).reader hr).1)
  · obtain ⟨c, hc, hw⟩ := hstuck [] s rfl
    exact hout (of_decide_eq_true ((hI d _ (view_eq hc)).writer hw).1)

/-! ## Errors that nobody hears -/

theorem inTime_of_about (h : s.about a = none) : InTime s a := by
  intro p hp
  rw [h] at hp
  cases hp

theorem inTime_iff {l : Label} (habout : s.about a = some (d, l)) (hv : s.view d = some v) :
    InTime s a ↔ Timely v l := by
  simp only [InTime, habout, Option.mem_some_iff, forall_eq', hv]

/-- With both goroutines waiting, `exchange` takes one error and leaves the other. -/
theorem both_reporting_leaks (hc : s.conns[d]? = some c) (hpc : s.dialer = .exchanging d)
    (hr : c.reader = .reporting) (hw : c.writer = .reporting) :
    ∃ t, exec (step id) s [.dial .readErr] = some t ∧ Leaks id t := by
  refine ⟨{ s.setConn d { c with reader := .done } with dialer := .closing d }, ?_, ?_⟩
  · simp only [exec, step, dialStep, hpc, hc, hr]
  · exact leaks_of_conn (d := d) (pool_set_self hc) (by simp) (Or.inr ⟨rfl, hw⟩)

/-- A goroutine that starts to wait too late: `exchange` is gone, and the other goroutine with it,
or the other one waits as well. -/
theorem late_report_leaks (hc : s.conns[d]? = some c)
    (hwaits : c.reader = .reporting ∨ c.writer = .reporting)
    (hlate : (s.dialer ≠ .exchanging d ∧ (c.reader = .done ∨ c.writer = .done)) ∨
      (s.dialer = .exchanging d ∧ c.reader = .reporting ∧ c.writer = .reporting)) :
    ∃ (more : List Act) (t : RedialPacketConn), exec (step id) s more = some t ∧ Leaks id t := by
  rcases hlate with ⟨hout, hdone⟩ | ⟨hpc, hr, hw⟩
  · refine ⟨[], s, rfl, leaks_of_conn hc hout ?_⟩
    rcases hwaits with hr | hw
    · exact Or.inl ⟨hr, hdone.resolve_left (by rw [hr]; exact nofun)⟩
    · exact Or.inr ⟨hdone.resolve_right (by rw [hw]; exact nofun), hw⟩
  · obtain ⟨t, ht, hleaks⟩ := @both_reporting_leaks id s d c hc hpc hr hw
    exact ⟨_, t, ht, hleaks⟩

/-- In every reachable state, an error or a return of `exchange` that is not in time leaves a
goroutine behind, at once or with the next error that `exchange` takes. -/
theorem unheard_error_leaks {acts : List Act} (hrun : exec (step id) .new acts = some s)
    (hs : step id s a = some s') (hlate : ¬ InTime s a) :
    ∃ (more : List Act) (t : RedialPacketConn), exec (step id) s' more = some t ∧ Leaks id t := by
  have hone : EachView OneDone s :=
    exec_invariant_all (fun x b x' hx hs => EachView.step nofun (fun _ => Or.inl rfl)
      (fun v l v' hv hm _ => hv.move hm) hx (step_cases hs)) acts _ s (fun d v h => by cases h) hrun
  cases step_cases hs with
  -- `exchange` meets the goroutine that waits, or turns its back on it
  | exchangeReadErr hpc hc hr =>
    rw [inTime_iff (by rw [RedialPacketConn.about, hpc]) (view_exchanging hpc hc)] at hlate
    exact absurd (fun h => by rw [hr] at h; cases h.1) hlate
  | exchangeWriteErr hpc hc hw =>
    rw [inTime_iff (by rw [RedialPacketConn.about, hpc]) (view_exchanging hpc hc)] at hlate
    exact absurd (fun h => by rw [hw] at h; cases h.1) hlate
  | exchangeReadDone hpc hc hr =>
    rw [inTime_iff (by rw [RedialPacketConn.about, hpc]) (view_exchanging hpc hc)] at hlate
    exact ⟨[], _, rfl, leaks_of_conn hc nofun (Or.inr (not_not.mp hlate))⟩
  | exchangeWriteDone hpc hc hw =>
    rw [inTime_iff (by rw [RedialPacketConn.about, hpc]) (view_exchanging hpc hc)] at hlate
    exact ⟨[], _, rfl, leaks_of_conn hc nofun (Or.inl (not_not.mp hlate).symm)⟩
  -- a goroutine fails, and starts to wait
  | @readFailed d c hc hr =>
    rw [inTime_iff rfl (view_eq hc)] at hlate
    refine late_report_leaks (pool_set_self hc) (Or.inl rfl) ?_
    by_cases hpc : s.dialer = .exchanging d
    · refine Or.inr ⟨hpc, rfl, ?_⟩
      by_contra hw
      exact hlate ⟨decide_eq_true hpc, hw⟩
    · refine Or.inl ⟨hpc, Or.inr ?_⟩
      exact (hone d _ (view_eq hc) (decide_eq_false hpc)).resolve_left (by simp [hr])
  | @wrote d c i p room ok bw k hc hw _ hwrite =>
    cases ok with
    | true =>
      refine absurd (inTime_of_about ?_) hlate
      simp [RedialPacketConn.about, hc, Conn.writeFails, hw, hwrite]
    | false =>
      have hfails : c.writeFails room = true := by rw [Conn.writeFails, hw]; simp [hwrite]
      rw [inTime_iff (about_write hc hfails) (view_eq hc)] at hlate
      refine late_report_leaks (pool_set_self hc) (Or.inr rfl) ?_
      by_cases hpc : s.dialer = .exchanging d
      · refine Or.inr ⟨hpc, ?_, rfl⟩
        by_contra hr
        exact hlate ⟨decide_eq_true hpc, hr⟩
      · refine Or.inl ⟨hpc, Or.inl ?_⟩
        exact (hone d _ (view_eq hc) (decide_eq_false hpc)).resolve_right (by simp [hw])
  | _ => exact absurd (inTime_of_about rfl) hlate

end Runs

/-- A client id for runs on fixed inputs. -/
def someID : ClientID := ⟨List.replicate 8 0, rfl⟩

/-- One connection is dialed, and its reading goroutine waits for a packet. -/
def dialAndRead : List Act := [.dial .check, .dial (.dialed none), .reader 0 .goOn]

/-- The read fails first: `exchange` takes its error, and the writing goroutine finds `readErrCh`
closed. -/
theorem exchange_ends_after_read_error :
    ∃ s, exec (step someID) .new (dialAndRead ++
        [.reader 0 (.read none), .dial .readErr, .dial .closeConn, .writer 0 .readErr]) = some s ∧
      (s.dialer = .top ∧ s.view 0 = some ⟨.done, .done, false⟩) ∧ ¬ Leaks someID s := by
  apply exec_reaches (P := fun s : RedialPacketConn =>
    s.dialer = .top ∧ s.view 0 = some ⟨.done, .done, false⟩)
  · decide +kernel
  · intro s hs hend
    exact ⟨hend, exchange_leaves_none_blocked someID _ s (by decide +kernel) hs⟩

/-- The write fails first: `exchange` takes its error and `dialLoop` closes the connection, which
makes the read fail with nobody left to hear of it. -/
theorem exchange_leaks_reader :
    ∃ s, exec (step someID) .new (dialAndRead ++
        [.writeTo [1], .writer 0 .take, .writer 0 (.write (some 0)), .dial .writeErr,
          .dial .closeConn, .reader 0 (.read none)]) = some s ∧ Leaks someID s := by
  apply exec_reaches (P := fun s : RedialPacketConn =>
    s.dialer = .top ∧ ∃ c ∈ s.conns[0]?, c.reader = .reporting ∧ c.writer = .done)
  · decide +kernel
  · rintro s - ⟨hpc, c, hc, hwaits⟩
    exact leaks_of_conn hc (by rw [hpc]; exact nofun) (Or.inl hwaits)

end PTBridge.Snowflake.Redial
