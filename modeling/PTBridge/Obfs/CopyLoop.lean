import PTBridge.Container.Channel
import PTBridge.Stream.Copy
import PTBridge.Transition.Run

/-!
# `copyLoop` of `obfs/client/client.go` and `obfs/server/server.go`

Client and server have the same `copyLoop(a, b)`: two goroutines copy between the connections, one
for each direction. A goroutine puts the error of its copy into `errChan`, then closes the
connection it has read from and the one it has written to. `copyLoop` waits for both and returns the
first error in `errChan`.

- `step` is the code, `Step` and `step_cases` list what a step can do.
- `Relays` is the invariant. `copyLoop_result`: what `copyLoop` returns is the error of a direction
  that has ended by itself, never one that its own `Close` has caused.
- `copyLoop_returns`: once one direction has ended `copyLoop` can return by `OwnStep`s alone, which
  need nothing from a peer.
-/

namespace PTBridge.Obfs

open PTBridge.Stream PTBridge.Container PTBridge.Transition

/-! ## State -/

/-- The arguments of `copyLoop`. -/
inductive End where
  | a
  | b
  deriving DecidableEq

def End.other : End → End
  | .a => .b
  | .b => .a

@[simp] theorem End.other_other (x : End) : x.other.other = x := by cases x <;> rfl

theorem End.eq_or_other (x y : End) : y = x ∨ y = x.other := by cases x <;> cases y <;> simp [other]

@[simp] theorem End.other_ne (x : End) : x.other ≠ x := by cases x <;> simp [other]

/-- Where a goroutine of `copyLoop` stands. -/
inductive CopierPc where
  /-- in `io.Copy`, or before `errChan <- err` -/
  | copying
  /-- at the `Close` of the connection it has read from -/
  | closingSource
  /-- at the `Close` of the connection it has written to -/
  | closingDest
  /-- at `wg.Done()` -/
  | finishing
  | done
  deriving DecidableEq

/-- Where the caller stands. -/
inductive CallerPc where
  /-- at `wg.Wait()` -/
  | waiting
  /-- at `len(errChan)` -/
  | collecting
  | returned (err : Option CopyError)
  deriving DecidableEq

/-- `copyLoop(a, b)`; a goroutine is named by the connection it writes to. -/
structure CopyLoop where
  copy : End → Copy
  copier : End → CopierPc
  /-- `Close` was called on this connection. -/
  closed : End → Bool
  errChan : Chan 2 (Option CopyError)
  wg : Nat
  caller : CallerPc

namespace CopyLoop

def new : CopyLoop := ⟨fun _ => .new, fun _ => .copying, fun _ => false, .make, 2, .waiting⟩

/-! ## Steps -/

inductive Act where
  /-- a step of `io.Copy(x, …)`, or of the peer it reads from -/
  | copy (x : End) (m : CopyMove)
  /-- `errChan <- err` -/
  | report (x : End)
  /-- the next deferred `Close` -/
  | close (x : End)
  /-- `wg.Done()` -/
  | finish (x : End)
  /-- `wg.Wait()` returns -/
  | wait
  | collect
  deriving DecidableEq

def setCopier (s : CopyLoop) (x : End) (pc : CopierPc) : CopyLoop :=
  { s with copier := Function.update s.copier x pc }

def setClosed (s : CopyLoop) (x : End) : CopyLoop :=
  { s with closed := Function.update s.closed x true }

def step (s : CopyLoop) : Act → Option CopyLoop
  | .copy x m =>
      ((s.copy x).step (s.closed x.other) (s.closed x) m).map fun c =>
        { s with copy := Function.update s.copy x c }
  | .report x =>
      match s.copier x, (s.copy x).pc with
      | .copying, .returned err =>
          (s.errChan.send err).map fun ch => { s.setCopier x .closingSource with errChan := ch }
      | _, _ => none
  | .close x =>
      match s.copier x with
      | .closingSource => some ((s.setClosed x.other).setCopier x .closingDest)
      | .closingDest => some ((s.setClosed x).setCopier x .finishing)
      | _ => none
  | .finish x =>
      if s.copier x = .finishing then some { s.setCopier x .done with wg := s.wg - 1 } else none
  | .wait => if s.caller = .waiting ∧ s.wg = 0 then some { s with caller := .collecting } else none
  | .collect =>
      if s.caller = .collecting then
        match s.errChan.recv with
        | some (some err, ch) => some { s with errChan := ch, caller := .returned err }
        | _ => some { s with caller := .returned none }
      else none

/-- What a step can do. -/
inductive Step (s : CopyLoop) : Act → CopyLoop → Prop where
  | copied {x m c} (hcopy : Copy.Step (s.closed x.other) (s.closed x) (s.copy x) m c) :
      Step s (.copy x m) { s with copy := Function.update s.copy x c }
  | reported {x err ch} (hcopier : s.copier x = .copying) (hpc : (s.copy x).pc = .returned err)
      (hsend : s.errChan.send err = some ch) :
      Step s (.report x) { s.setCopier x .closingSource with errChan := ch }
  | closedSource {x} (hcopier : s.copier x = .closingSource) :
      Step s (.close x) ((s.setClosed x.other).setCopier x .closingDest)
  | closedDest {x} (hcopier : s.copier x = .closingDest) :
      Step s (.close x) ((s.setClosed x).setCopier x .finishing)
  | finished {x} (hcopier : s.copier x = .finishing) :
      Step s (.finish x) { s.setCopier x .done with wg := s.wg - 1 }
  | waited (hcaller : s.caller = .waiting) (hwg : s.wg = 0) :
      Step s .wait { s with caller := .collecting }
  | collected {err ch} (hcaller : s.caller = .collecting)
      (hrecv : s.errChan.recv = some (some err, ch)) :
      Step s .collect { s with errChan := ch, caller := .returned err }
  | collectedNone (hcaller : s.caller = .collecting)
      (hrecv : ∀ err ch, s.errChan.recv ≠ some (some err, ch)) :
      Step s .collect { s with caller := .returned none }

variable {s s' : CopyLoop} {act : Act}

theorem step_cases (h : step s act = some s') : Step s act s' := by
  cases act with
  | copy x m =>
    obtain ⟨c, hc, rfl⟩ := Option.map_eq_some_iff.mp h
    exact .copied (Copy.step_cases hc)
  | report x =>
    simp only [step] at h
    split at h
    · rename_i hcopier hpc
      obtain ⟨ch, hch, rfl⟩ := Option.map_eq_some_iff.mp h
      exact .reported hcopier hpc hch
    · cases h
  | close x =>
    simp only [step] at h
    split at h
    · rename_i hcopier
      cases h
      exact .closedSource hcopier
    · rename_i hcopier
      cases h
      exact .closedDest hcopier
    · cases h
  | finish x =>
    simp only [step] at h
    split at h
    · rename_i hcopier
      cases h
      exact .finished hcopier
    · cases h
  | wait =>
    simp only [step] at h
    split at h
    · rename_i hwait
      cases h
      exact .waited hwait.1 hwait.2
    · cases h
  | collect =>
    simp only [step] at h
    split at h
    · rename_i hcaller
      split at h
      · rename_i hrecv
        cases h
        exact .collected hcaller hrecv
      · rename_i hnone
        cases h
        exact .collectedNone hcaller hnone
    · cases h

/-! ## The invariant -/

/-- The goroutine has put its error into `errChan`. -/
def reports : CopierPc → Nat
  | .copying => 0
  | _ => 1

/-- What the goroutine still owes to the wait group. -/
def owes : CopierPc → Nat
  | .done => 0
  | _ => 1

theorem reports_eq_zero {pc : CopierPc} : reports pc = 0 ↔ pc = .copying := by
  cases pc <;> simp [reports]

theorem reports_of_ne {pc : CopierPc} (h : pc ≠ .copying) : reports pc = 1 := by
  cases pc <;> simp_all [reports]

theorem owes_eq_zero {pc : CopierPc} : owes pc = 0 ↔ pc = .done := by
  cases pc <;> simp [owes]

/-- A sum over the goroutines changes by what one of them does. -/
theorem sum_update (f : CopierPc → Nat) (g : End → CopierPc) (x : End) (pc : CopierPc) :
    f (Function.update g x pc .a) + f (Function.update g x pc .b) + f (g x) =
      f (g .a) + f (g .b) + f pc := by
  cases x <;> simp [Function.update] <;> omega

theorem le_sum (f : CopierPc → Nat) (g : End → CopierPc) (x : End) :
    f (g x) ≤ f (g .a) + f (g .b) := by
  cases x <;> omega

/-- What a goroutine has closed where it stands. -/
def HasClosed (s : CopyLoop) (x : End) : CopierPc → Prop
  | .copying | .closingSource => True
  | .closingDest => s.closed x.other = true
  | .finishing | .done => s.closed x = true ∧ s.closed x.other = true

/-- The error is that of a direction that has ended by itself. -/
def Genuine (s : CopyLoop) (err : Option CopyError) : Prop :=
  err ≠ some (.conn .closed) ∧ ∃ x, (s.copy x).pc = .returned err ∧ s.copier x ≠ .copying

structure Relays (s : CopyLoop) : Prop where
  books : ∀ x, (s.copy x).Accounts
  wg : s.wg = owes (s.copier .a) + owes (s.copier .b)
  openChan : s.errChan.closed = false
  count : (∀ err, s.caller ≠ .returned err) →
    s.errChan.buf.length = reports (s.copier .a) + reports (s.copier .b)
  /-- Nothing is closed before the first report. -/
  quiet : (∀ x, s.copier x = .copying) → ∀ x, s.closed x = false ∧ (s.copy x).Undisturbed
  first : (∀ err, s.caller ≠ .returned err) →
    ∀ err rest, s.errChan.buf = err :: rest → s.Genuine err
  closed : ∀ x, s.HasClosed x (s.copier x)
  waited : s.caller ≠ .waiting → s.wg = 0
  result : ∀ err, s.caller = .returned err → s.Genuine err

theorem relays_new : Relays new where
  books _ := Copy.accounts_new
  wg := rfl
  openChan := rfl
  count _ := rfl
  quiet _ _ := ⟨rfl, Copy.undisturbed_new⟩
  first := by simp [new]
  closed _ := trivial
  waited h := absurd rfl h
  result := by simp [new]

/-- A direction that has ended stays so. -/
theorem Genuine.copied {err : Option CopyError} {x : End} {m : CopyMove} {c : Copy}
    (h : s.Genuine err) (hcopy : Copy.Step (s.closed x.other) (s.closed x) (s.copy x) m c) :
    Genuine { s with copy := Function.update s.copy x c } err := by
  obtain ⟨herr, y, hpc, hcopier⟩ := h
  refine ⟨herr, y, ?_, hcopier⟩
  by_cases hy : y = x
  · subst hy
    simpa using Copy.returned_step hpc hcopy
  · simpa [Function.update_of_ne hy] using hpc

/-- A goroutine that goes on does not go back to its copy. -/
theorem Genuine.setCopier {err : Option CopyError} {x : End} {pc : CopierPc} (h : s.Genuine err)
    (hpc : pc ≠ .copying) (hcopy : s'.copy = s.copy)
    (hcopier : s'.copier = Function.update s.copier x pc) : s'.Genuine err := by
  obtain ⟨herr, y, hy, hne⟩ := h
  refine ⟨herr, y, by rw [hcopy]; exact hy, ?_⟩
  rw [hcopier]
  by_cases hyx : y = x
  · subst hyx
    simpa using hpc
  · simpa [Function.update_of_ne hyx] using hne

theorem HasClosed.mono {x : End} {pc : CopierPc} (h : s.HasClosed x pc)
    (hgrow : ∀ y, s.closed y = true → s'.closed y = true) : s'.HasClosed x pc := by
  cases pc with
  | copying => trivial
  | closingSource => trivial
  | closingDest => exact hgrow _ h
  | finishing => exact ⟨hgrow _ h.1, hgrow _ h.2⟩
  | done => exact ⟨hgrow _ h.1, hgrow _ h.2⟩

/-- When the wait is over, both goroutines have returned. -/
theorem Relays.all_done (h : Relays s) (hwg : s.wg = 0) (x : End) : s.copier x = .done := by
  have hsum := h.wg
  have hle := le_sum owes s.copier x
  exact owes_eq_zero.mp (by omega)

/-- As long as a goroutine runs, the caller waits. -/
theorem Relays.waiting {x : End} (h : Relays s) (hx : s.copier x ≠ .done) :
    s.caller = .waiting := by
  by_contra hne
  exact hx (h.all_done (h.waited hne) x)

/-- A goroutine behind its report goes on. -/
theorem Relays.goesOn {x : End} {pc : CopierPc} (h : Relays s)
    (hnow : s.copier x ≠ .copying) (hlive : s.copier x ≠ .done) (hnext : pc ≠ .copying)
    (hcopy : s'.copy = s.copy) (hcopier : s'.copier = Function.update s.copier x pc)
    (hchan : s'.errChan = s.errChan) (hcaller : s'.caller = s.caller)
    (hgrow : ∀ y, s.closed y = true → s'.closed y = true) (hclosed : s'.HasClosed x pc)
    (hwg : s'.wg + owes (s.copier x) = s.wg + owes pc) : Relays s' := by
  have hwaiting := h.waiting hlive
  constructor
  · rw [hcopy]
    exact h.books
  · have hsum := sum_update owes s.copier x pc
    have := h.wg
    rw [hcopier]
    omega
  · rw [hchan]
    exact h.openChan
  · intro _
    have hsum := sum_update reports s.copier x pc
    have hcount := h.count (by simp [hwaiting])
    rw [reports_of_ne hnow, reports_of_ne hnext] at hsum
    rw [hchan, hcopier]
    omega
  · intro hall
    have hx := hall x
    rw [hcopier, Function.update_self] at hx
    exact absurd hx hnext
  · intro _ err rest hbuf
    rw [hchan] at hbuf
    exact (h.first (by simp [hwaiting]) err rest hbuf).setCopier hnext hcopy hcopier
  · intro y
    rw [hcopier]
    by_cases hy : y = x
    · subst hy
      simpa using hclosed
    · rw [Function.update_of_ne hy]
      exact (h.closed y).mono hgrow
  · intro hne
    rw [hcaller, hwaiting] at hne
    exact absurd rfl hne
  · intro err hret
    rw [hcaller, hwaiting] at hret
    cases hret

/-- The first report comes from a direction that nothing has disturbed. -/
theorem Relays.reported {x : End} {err : Option CopyError} {ch : Chan 2 (Option CopyError)}
    (h : Relays s) (hcopier : s.copier x = .copying) (hpc : (s.copy x).pc = .returned err)
    (hsend : s.errChan.send err = some ch) :
    Relays { s.setCopier x .closingSource with errChan := ch } := by
  obtain ⟨-, -, hbuf, hsame⟩ := Chan.send_eq_some.mp hsend
  have hwaiting : s.caller = .waiting := h.waiting (x := x) (by simp [hcopier])
  have hcount := h.count (by simp [hwaiting])
  have howes := sum_update owes s.copier x .closingSource
  have hreports := sum_update reports s.copier x .closingSource
  rw [hcopier] at howes hreports
  constructor
  · exact h.books
  · have hwg := h.wg
    have hone : owes .copying = owes .closingSource := rfl
    dsimp only [setCopier]
    omega
  · dsimp only
    rw [hsame]
    exact h.openChan
  · intro _
    have hone : reports .closingSource = reports .copying + 1 := rfl
    dsimp only [setCopier]
    rw [hbuf, List.length_append, List.length_singleton]
    omega
  · intro hall
    have hx := hall x
    simp [setCopier] at hx
  · intro _ e rest hnew
    dsimp only at hnew
    rw [hbuf] at hnew
    cases hold : s.errChan.buf with
    | cons e' rest' =>
      rw [hold] at hnew
      cases hnew
      exact (h.first (by simp [hwaiting]) e rest' hold).setCopier (x := x) (by simp) rfl rfl
    | nil =>
      -- neither goroutine has reported, so both connections are open
      rw [hold] at hnew
      cases hnew
      have hquiet : ∀ y, s.copier y = .copying := by
        intro y
        rw [hold, List.length_nil] at hcount
        have hle := le_sum reports s.copier y
        exact reports_eq_zero.mp (by omega)
      have hundisturbed := (h.quiet hquiet x).2
      rw [Copy.Undisturbed, hpc] at hundisturbed
      exact ⟨hundisturbed, x, hpc, by simp [setCopier]⟩
  · intro y
    by_cases hy : y = x
    · subst hy
      simp [setCopier, HasClosed]
    · simp only [setCopier, Function.update_of_ne hy]
      exact (h.closed y).mono fun _ hz => hz
  · intro hne
    exact absurd hwaiting hne
  · intro e hret
    rw [setCopier, hwaiting] at hret
    cases hret

/-- A step of a copy. -/
theorem Relays.copied {x : End} {m : CopyMove} {c : Copy} (h : Relays s)
    (hcopy : Copy.Step (s.closed x.other) (s.closed x) (s.copy x) m c) :
    Relays { s with copy := Function.update s.copy x c } := by
  refine ⟨fun y => ?_, h.wg, h.openChan, h.count, fun hall y => ?_, fun hne err rest hbuf => ?_,
    h.closed, h.waited, fun err hret => ?_⟩
  · by_cases hy : y = x
    · subst hy
      simpa using Copy.accounts_step (h.books y) hcopy
    · simpa [Function.update_of_ne hy] using h.books y
  · refine ⟨(h.quiet hall y).1, ?_⟩
    by_cases hy : y = x
    · subst hy
      rw [(h.quiet hall y).1, (h.quiet hall y.other).1] at hcopy
      simpa using Copy.undisturbed_step (h.quiet hall y).2 hcopy
    · simpa [Function.update_of_ne hy] using (h.quiet hall y).2
  · exact (h.first hne err rest hbuf).copied hcopy
  · exact (h.result err hret).copied hcopy

/-- When the wait is over both errors are there. -/
theorem Relays.collectable (h : Relays s) (hcaller : s.caller = .collecting) :
    ∃ err ch, s.errChan.recv = some (some err, ch) ∧ s.Genuine err := by
  have hwg := h.waited (by simp [hcaller])
  have hcount := h.count (by simp [hcaller])
  rw [h.all_done hwg, h.all_done hwg] at hcount
  cases hrecv : s.errChan.recv with
  | none =>
    rw [(Chan.recv_eq_none.mp hrecv).1] at hcount
    cases hcount
  | some v =>
    obtain ⟨v, ch⟩ := v
    cases v with
    | none =>
      rw [(Chan.recv_eq_closed.mp hrecv).1] at hcount
      cases hcount
    | some err =>
      exact ⟨err, ch, rfl, h.first (by simp [hcaller]) err _ (Chan.recv_eq_value.mp hrecv).1⟩

theorem Relays.step (h : Relays s) (hs : Step s act s') : Relays s' := by
  cases hs with
  | copied hcopy => exact h.copied hcopy
  | reported hcopier hpc hsend => exact h.reported hcopier hpc hsend
  | @closedSource x hcopier =>
    refine h.goesOn (x := x) (by simp [hcopier]) (by simp [hcopier]) (by simp) rfl rfl rfl rfl
      ?_ ?_ ?_
    · intro y hy
      by_cases hyx : y = x.other
      · simp [setClosed, setCopier, hyx]
      · simpa [setClosed, setCopier, Function.update_of_ne hyx] using hy
    · simp [HasClosed, setClosed, setCopier]
    · simp [hcopier, owes, setClosed, setCopier]
  | @closedDest x hcopier =>
    have hsource := h.closed x
    rw [hcopier] at hsource
    have hother : s.closed x.other = true := hsource
    refine h.goesOn (x := x) (by simp [hcopier]) (by simp [hcopier]) (by simp) rfl rfl rfl rfl
      ?_ ?_ ?_
    · intro y hy
      by_cases hyx : y = x
      · simp [setClosed, setCopier, hyx]
      · simpa [setClosed, setCopier, Function.update_of_ne hyx] using hy
    · simp [HasClosed, setClosed, setCopier, hother]
    · simp [hcopier, owes, setClosed, setCopier]
  | @finished x hcopier =>
    have hclosed := h.closed x
    rw [hcopier] at hclosed
    have hle := le_sum owes s.copier x
    have hwg := h.wg
    refine h.goesOn (x := x) (by simp [hcopier]) (by simp [hcopier]) (by simp) rfl rfl rfl rfl
      (fun _ hy => hy) hclosed ?_
    have hone : owes .finishing = 1 := rfl
    have hzero : owes .done = 0 := rfl
    rw [hcopier] at hle ⊢
    dsimp only
    omega
  | waited hcaller hwg =>
    have hnot : ∀ err, s.caller ≠ .returned err := by simp [hcaller]
    exact ⟨h.books, h.wg, h.openChan, fun _ => h.count hnot, h.quiet, fun _ => h.first hnot,
      h.closed, fun _ => hwg, by simp⟩
  | @collected err ch hcaller hrecv =>
    obtain ⟨err', ch', hrecv', hgenuine⟩ := h.collectable hcaller
    rw [hrecv] at hrecv'
    cases hrecv'
    have hopen : ch.closed = false := by
      rw [(Chan.recv_eq_value.mp hrecv).2]
      exact h.openChan
    refine ⟨h.books, h.wg, hopen, fun hne => absurd rfl (hne err), h.quiet,
      fun hne => absurd rfl (hne err), h.closed, fun _ => h.waited (by simp [hcaller]), ?_⟩
    intro e he
    cases he
    exact hgenuine
  | collectedNone hcaller hrecv =>
    obtain ⟨err, ch, hsome, -⟩ := h.collectable hcaller
    exact absurd hsome (hrecv err ch)

theorem relays_run {acts : List Act} (hrun : exec step new acts = some s) : Relays s :=
  exec_invariant_all (fun _ _ _ h hs => h.step (step_cases hs)) acts new s relays_new hrun

/-- In every run, each direction writes in order what its peer has sent. When `copyLoop` returns,
both connections are closed and both goroutines have returned; its error is that of a direction that
ended by itself, and if it is nil that direction has delivered its whole stream. -/
theorem copyLoop_result (acts : List Act) (s : CopyLoop) (hrun : exec step new acts = some s) :
    (∀ x, (s.copy x).written <+: (s.copy x).sent) ∧
      ∀ err, s.caller = .returned err →
        (∀ x, s.closed x = true ∧ s.copier x = .done) ∧ err ≠ some (.conn .closed) ∧
          ∃ x, (s.copy x).pc = .returned err ∧
            (err = none → (s.copy x).ended = true ∧ (s.copy x).written = (s.copy x).sent) := by
  have h := relays_run hrun
  refine ⟨fun x => (h.books x).in_order, fun err hret => ?_⟩
  have hdone := h.all_done (h.waited (by simp [hret]))
  obtain ⟨hself, x, hpc, -⟩ := h.result err hret
  refine ⟨fun y => ⟨?_, hdone y⟩, hself, x, hpc, ?_⟩
  · have hclosed := h.closed y
    rw [hdone y] at hclosed
    exact hclosed.1
  · rintro rfl
    exact (h.books x).complete hpc

/-- The peer of `a` ends its stream, and the other copy is cut off. -/
theorem copyLoop_result_half_closed :
    ∃ s, exec step new
        [.copy .b (.send [1]), .copy .b .finish, .copy .b (.read 1 .eof), .copy .b (.write 1 none),
          .report .b, .close .b, .close .b, .copy .a (.read 0 (.failed .closed)), .report .a,
          .close .a, .close .a, .finish .b, .finish .a, .wait, .collect] = some s ∧
      s.caller = .returned none ∧ (s.copy .a).pc = .returned (some (.conn .closed)) ∧
      ∃ x, (s.copy x).ended = true ∧ (s.copy x).written = (s.copy x).sent := by
  apply exec_reaches (P := fun s : CopyLoop => s.caller = .returned none ∧
    (s.copy .a).pc = .returned (some (.conn .closed)))
  · decide +kernel
  · rintro s hs ⟨hret, ha⟩
    obtain ⟨-, -, x, -, hall⟩ := (copyLoop_result _ s hs).2 none hret
    exact ⟨hret, ha, x, hall rfl⟩

/-! ## `copyLoop` returns -/

/-- The steps that `copyLoop` makes by itself. No peer moves, and a `Read` or `Write` is on a
connection that was closed here: on an open one it would wait for the peer or the network. -/
def OwnStep (s : CopyLoop) : Act → Prop
  | .copy x (.read _ _) => s.closed x.other = true
  | .copy x (.write _ _) => s.closed x = true
  | .copy _ (.send _) => False
  | .copy _ .finish => False
  | .report _ | .close _ | .finish _ | .wait | .collect => True

/-- A run of `copyLoop` by itself. -/
def Reaches (s t : CopyLoop) : Prop :=
  ∃ acts, Meets step OwnStep s acts ∧ exec step s acts = some t

theorem Reaches.refl (s : CopyLoop) : Reaches s s := ⟨[], trivial, rfl⟩

theorem Reaches.head {t : CopyLoop} (hstep : step s act = some s') (hown : s.OwnStep act)
    (h : Reaches s' t) : Reaches s t := by
  obtain ⟨acts, hacts, hrun⟩ := h
  refine ⟨act :: acts, ?_, exec_cons_some.mpr ⟨s', hstep, hrun⟩⟩
  exact (meets_cons_of_step hstep).mpr ⟨hown, hacts⟩

theorem Reaches.trans {t : CopyLoop} (h : Reaches s s') (h' : Reaches s' t) : Reaches s t := by
  obtain ⟨acts, hacts, hrun⟩ := h
  obtain ⟨acts', hacts', hrun'⟩ := h'
  refine ⟨acts ++ acts', ?_, exec_append_some.mpr ⟨s', hrun, hrun'⟩⟩
  refine meets_append.mpr ⟨hacts, fun m hm => ?_⟩
  obtain rfl := Option.some.inj (hrun.symm.trans hm)
  exact hacts'

theorem Reaches.relays (h : Reaches s s') (hs : Relays s) : Relays s' := by
  obtain ⟨acts, -, hrun⟩ := h
  exact exec_invariant_all (fun _ _ _ h hs => h.step (step_cases hs)) acts s s' hs hrun

theorem done_step {x : End} (hx : s.copier x = .done) (hs : Step s act s') :
    s'.copier x = .done := by
  -- a goroutine that goes on is another one
  have hother : ∀ {y : End} {pc : CopierPc}, s.copier y ≠ .done →
      Function.update s.copier y pc x = .done := by
    intro y pc hy
    rw [Function.update_of_ne]
    · exact hx
    · rintro rfl
      exact hy hx
  cases hs with
  | copied hcopy => exact hx
  | reported hcopier hpc hsend => exact hother (by simp [hcopier])
  | closedSource hcopier => exact hother (by simp [hcopier])
  | closedDest hcopier => exact hother (by simp [hcopier])
  | finished hcopier => exact hother (by simp [hcopier])
  | waited hcaller hwg => exact hx
  | collected hcaller hrecv => exact hx
  | collectedNone hcaller hrecv => exact hx

theorem Reaches.stays_done {x : End} (h : Reaches s s') (hx : s.copier x = .done) :
    s'.copier x = .done := by
  obtain ⟨acts, -, hrun⟩ := h
  exact exec_invariant_all (I := fun t : CopyLoop => t.copier x = .done)
    (fun _ _ _ h hs => done_step h (step_cases hs)) acts s s' hx hrun

/-- How far a goroutine is from its end. -/
def rank : CopierPc → Nat
  | .copying => 4
  | .closingSource => 3
  | .closingDest => 2
  | .finishing => 1
  | .done => 0

/-- A goroutine whose copy has ended is never stuck: there is room for both errors. -/
theorem Relays.advance {x : End} {err : Option CopyError} (h : Relays s)
    (hpc : (s.copy x).pc = .returned err) (hx : s.copier x ≠ .done) :
    ∃ act s', s.OwnStep act ∧ CopyLoop.step s act = some s' ∧ s'.copy = s.copy ∧
      rank (s'.copier x) < rank (s.copier x) := by
  cases hcopier : s.copier x with
  | copying =>
    have hcount := h.count (by simp [h.waiting hx])
    have hroom : s.errChan.buf.length < 2 := by
      have hmax : ∀ pc, reports pc ≤ 1 := by
        intro pc
        cases pc <;> simp [reports]
      have ha := hmax (s.copier .a)
      have hb := hmax (s.copier .b)
      have hzero : reports (s.copier x) = 0 := by rw [hcopier]; rfl
      cases x <;> omega
    obtain ⟨ch, hbuf, hsame⟩ := Chan.exists_send hroom err
    have hch := Chan.send_eq_some.mpr ⟨h.openChan, hroom, hbuf, hsame⟩
    refine ⟨.report x, { s.setCopier x .closingSource with errChan := ch }, trivial, ?_, rfl, ?_⟩
    · simp [CopyLoop.step, hcopier, hpc, hch]
    · simp [setCopier, rank]
  | closingSource =>
    refine ⟨.close x, (s.setClosed x.other).setCopier x .closingDest, trivial, ?_, rfl, ?_⟩
    · simp [CopyLoop.step, hcopier]
    · simp [setCopier, rank]
  | closingDest =>
    refine ⟨.close x, (s.setClosed x).setCopier x .finishing, trivial, ?_, rfl, ?_⟩
    · simp [CopyLoop.step, hcopier]
    · simp [setCopier, rank]
  | finishing =>
    refine ⟨.finish x, { s.setCopier x .done with wg := s.wg - 1 }, trivial, ?_, rfl, ?_⟩
    · simp [CopyLoop.step, hcopier]
    · simp [setCopier, rank]
  | done => exact absurd hcopier hx

/-- A goroutine whose copy has ended runs to its end. -/
theorem Relays.finishes {x : End} {err : Option CopyError} (h : Relays s)
    (hpc : (s.copy x).pc = .returned err) :
    ∃ t, Reaches s t ∧ t.copy = s.copy ∧ t.copier x = .done := by
  induction hn : rank (s.copier x) using Nat.strong_induction_on generalizing s with
  | _ n ih =>
    by_cases hx : s.copier x = .done
    · exact ⟨s, .refl s, rfl, hx⟩
    · obtain ⟨act, s', hown, hstep, hcopy, hrank⟩ := h.advance hpc hx
      rw [hn] at hrank
      obtain ⟨t, hreach, hcopy', hdone⟩ := ih _ hrank (h.step (step_cases hstep))
        (by rw [hcopy]; exact hpc) rfl
      exact ⟨t, hreach.head hstep hown, by rw [hcopy', hcopy], hdone⟩

/-- A copy between closed connections ends at its next call. -/
theorem cutOff {x : End} (hclosed : ∀ y, s.closed y = true) :
    ∃ t err, Reaches s t ∧ (t.copy x).pc = .returned err := by
  -- it fails with the error of a closed connection
  let c : Copy := { s.copy x with pc := .returned (some (.conn .closed)) }
  let t : CopyLoop := { s with copy := Function.update s.copy x c }
  cases hpc : (s.copy x).pc with
  | returned err => exact ⟨s, err, .refl s, hpc⟩
  | reading =>
    have hstep : step s (.copy x (.read 0 (.failed .closed))) = some t := by
      simp [t, c, step, Copy.step, hpc, hclosed, Copy.Answers, Copy.afterRead]
    exact ⟨t, some (.conn .closed), .head hstep (hclosed x.other) (.refl t), by simp [t, c]⟩
  | writing buf r =>
    have hstep : step s (.copy x (.write 0 (some .closed))) = some t := by
      simp [t, c, step, Copy.step, hpc, hclosed, Copy.Takes, Copy.afterWrite]
    exact ⟨t, some (.conn .closed), .head hstep (hclosed x) (.refl t), by simp [t, c]⟩

/-- The caller returns when both goroutines have. -/
theorem Relays.collects (h : Relays s) (hdone : ∀ x, s.copier x = .done) :
    ∃ t res, Reaches s t ∧ t.caller = .returned res := by
  have hwg : s.wg = 0 := by rw [h.wg, hdone, hdone]; rfl
  have hcollect : ∀ {s : CopyLoop}, Relays s → s.caller = .collecting →
      ∃ t res, Reaches s t ∧ t.caller = .returned res := by
    intro s h hcaller
    obtain ⟨err, ch, hrecv, -⟩ := h.collectable hcaller
    have hstep : CopyLoop.step s .collect =
        some { s with errChan := ch, caller := .returned err } := by
      simp [CopyLoop.step, hcaller, hrecv]
    exact ⟨_, err, .head hstep trivial (.refl _), rfl⟩
  cases hcaller : s.caller with
  | returned res => exact ⟨s, res, .refl s, hcaller⟩
  | collecting => exact hcollect h hcaller
  | waiting =>
    have hstep : CopyLoop.step s .wait = some { s with caller := .collecting } := by
      simp [CopyLoop.step, hcaller, hwg]
    obtain ⟨t, res, hreach, hret⟩ := hcollect (h.step (step_cases hstep)) rfl
    exact ⟨t, res, .head hstep trivial hreach, hret⟩

/-- Once the copy of one direction has ended, for whatever reason, `copyLoop` can return by itself:
its goroutines do not wait for each other, and the one that still copies is cut off by the
connections that the other one closes. -/
theorem copyLoop_returns (acts : List Act) (s : CopyLoop) (hrun : exec step new acts = some s)
    (x : End) (err : Option CopyError) (hend : (s.copy x).pc = .returned err) :
    ∃ more t res, Meets step OwnStep s more ∧ exec step s more = some t ∧
      t.caller = .returned res := by
  have h := relays_run hrun
  -- the direction that has ended closes both connections
  obtain ⟨s₁, hreach₁, -, hdone₁⟩ := h.finishes hend
  have h₁ := hreach₁.relays h
  have hclosed : ∀ y, s₁.closed y = true := by
    have hx := h₁.closed x
    rw [hdone₁] at hx
    intro y
    rcases End.eq_or_other x y with rfl | rfl
    · exact hx.1
    · exact hx.2
  -- the other one is cut off
  obtain ⟨s₂, err₂, hreach₂, hend₂⟩ := cutOff (x := x.other) hclosed
  have h₂ := hreach₂.relays h₁
  obtain ⟨s₃, hreach₃, -, hdone₃⟩ := h₂.finishes hend₂
  have hreach := (hreach₁.trans hreach₂).trans hreach₃
  have hall : ∀ y, s₃.copier y = .done := by
    intro y
    rcases End.eq_or_other x y with rfl | rfl
    · exact (hreach₂.trans hreach₃).stays_done hdone₁
    · exact hdone₃
  obtain ⟨t, res, hlast, hret⟩ := (hreach.relays h).collects hall
  obtain ⟨more, hown, hmore⟩ := hreach.trans hlast
  exact ⟨more, t, res, hown, hmore, hret⟩

/-- A copy fails at its first read, while the other one is about to write and its peer takes
nothing. -/
theorem copyLoop_returns_failed :
    ∃ s, exec step new [.copy .a (.send [1]), .copy .a (.read 1 .more),
        .copy .b (.read 0 (.failed (.other 1)))] = some s ∧
      (s.copy .a).pc = .writing [1] .more ∧ (∀ x, s.closed x = false) ∧
      ∃ more t res, Meets step OwnStep s more ∧ exec step s more = some t ∧
        t.caller = .returned res := by
  apply exec_reaches (P := fun s : CopyLoop => (s.copy .a).pc = .writing [1] .more ∧
    s.closed .a = false ∧ s.closed .b = false ∧
    (s.copy .b).pc = .returned (some (.conn (.other 1))))
  · decide +kernel
  · rintro s hs ⟨hwriting, ha, hb, hend⟩
    refine ⟨hwriting, fun x => ?_, copyLoop_returns _ s hs .b _ hend⟩
    cases x with
    | a => exact ha
    | b => exact hb

end CopyLoop

end PTBridge.Obfs
