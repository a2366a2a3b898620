import PTBridge.Container.Channel
import PTBridge.Stream.Copy
import PTBridge.Transition.Run

/-!
# `snowflake/common/standalone/stream.go`: `CopyLoop`

Two goroutines copy between the connections `a` and `b`, one for each direction. When its copy ends
a goroutine closes the connection that it was writing to and signals on `done`; `CopyLoop` returns
at the first signal, and its caller then closes what it has deferred. The copy that is still running
finds its connection closed. There is no half-close here: `Close` ends both directions.

- `step` is the code of the goroutines and of the caller, `Step` and `step_cases` list what a step
  can do. `Copy` is a running `io.Copy` with the stream it reads.
- `copyLoop_delivers`: each direction delivers in order, one that returns nil has delivered
  everything, and no connection is closed before one direction has ended by itself.
- `reply_lost_to_half_close`: the other direction can lose bytes.
-/

namespace PTBridge.Snowflake.Standalone

open PTBridge.Stream PTBridge.Container PTBridge.Transition

/-! ## State -/

/-- The arguments of `CopyLoop`. -/
inductive Side where
  | a
  | b
  deriving DecidableEq

def Side.other : Side → Side
  | .a => .b
  | .b => .a

/-- Where a goroutine of `CopyLoop` stands. -/
inductive CopierPc where
  /-- in `io.Copy`, or before the `Close` that follows it -/
  | copying
  /-- before `done <- struct{}{}` -/
  | signalling
  | over
  deriving DecidableEq

/-- Where the caller of `CopyLoop` stands. -/
inductive RelayPc where
  /-- at `<-done`, with the connections it closes afterwards -/
  | waiting (defers : List Side)
  /-- `CopyLoop` has returned; the connections that are still to be closed -/
  | leaving (defers : List Side)
  deriving DecidableEq

/-- `CopyLoop(a, b)`; a goroutine is named by the connection it writes to. -/
structure CopyLoop where
  copy : Side → Copy
  copier : Side → CopierPc
  /-- `Close` was called on this side. -/
  closed : Side → Bool
  done : Chan 2 Unit
  caller : RelayPc

namespace CopyLoop

def new (defers : List Side) : CopyLoop :=
  ⟨fun _ => .new, fun _ => .copying, fun _ => false, .make, .waiting defers⟩

/-- `handleInboundStream` calls `CopyLoop(stream, remote)`, with `remote.Close()` and then
`stream.Close()` deferred. -/
def handleInboundStream : CopyLoop := .new [.b, .a]

/-- `handleLocalSocks` calls `CopyLoop(conn, stream)` and leaves the closing to it. -/
def handleLocalSocks : CopyLoop := .new []

/-! ## Steps -/

inductive Act where
  /-- a step of `io.Copy(x, …)`, or of the peer it reads from -/
  | copy (x : Side) (m : CopyMove)
  /-- `x.Close()` after it -/
  | close (x : Side)
  /-- `done <- struct{}{}` -/
  | signal (x : Side)
  /-- `<-done` -/
  | recv
  /-- the next deferred `Close` of the caller -/
  | deferred
  deriving DecidableEq

def setClosed (s : CopyLoop) (x : Side) : CopyLoop :=
  { s with closed := Function.update s.closed x true }

def step (s : CopyLoop) : Act → Option CopyLoop
  | .copy x m =>
      match (s.copy x).step (s.closed x.other) (s.closed x) m with
      | none => none
      | some c => some { s with copy := Function.update s.copy x c }
  | .close x =>
      match s.copier x, (s.copy x).pc with
      | .copying, .returned _ =>
          some { s.setClosed x with copier := Function.update s.copier x .signalling }
      | _, _ => none
  | .signal x =>
      match s.copier x, s.done.send () with
      | .signalling, some done =>
          some { s with done := done, copier := Function.update s.copier x .over }
      | _, _ => none
  | .recv =>
      match s.caller, s.done.recv with
      | .waiting defers, some (_, done) => some { s with done := done, caller := .leaving defers }
      | _, _ => none
  | .deferred =>
      match s.caller with
      | .leaving (x :: defers) => some { s.setClosed x with caller := .leaving defers }
      | _ => none

/-! ## What a step can do -/

/-- The steps, one case for each branch of the code. -/
inductive Step (s : CopyLoop) : Act → CopyLoop → Prop where
  | copied {x m c} (hcopy : Copy.Step (s.closed x.other) (s.closed x) (s.copy x) m c) :
      Step s (.copy x m) { s with copy := Function.update s.copy x c }
  | closed {x err} (hcopier : s.copier x = .copying) (hpc : (s.copy x).pc = .returned err) :
      Step s (.close x) { s.setClosed x with copier := Function.update s.copier x .signalling }
  | signalled {x done} (hcopier : s.copier x = .signalling) (hsend : s.done.send () = some done) :
      Step s (.signal x) { s with done := done, copier := Function.update s.copier x .over }
  | received {defers v done} (hcaller : s.caller = .waiting defers)
      (hrecv : s.done.recv = some (v, done)) :
      Step s .recv { s with done := done, caller := .leaving defers }
  | left {x defers} (hcaller : s.caller = .leaving (x :: defers)) :
      Step s .deferred { s.setClosed x with caller := .leaving defers }

variable {s s' : CopyLoop} {act : Act}

theorem step_cases (h : step s act = some s') : Step s act s' := by
  cases act with
  | copy x m =>
    simp only [step] at h
    split at h
    · cases h
    · rename_i c hcopy
      cases h
      exact .copied (Copy.step_cases hcopy)
  | close x =>
    simp only [step] at h
    split at h
    · rename_i hcopier hpc
      cases h
      exact .closed hcopier hpc
    · cases h
  | signal x =>
    simp only [step] at h
    split at h
    · rename_i hcopier hsend
      cases h
      exact .signalled hcopier hsend
    · cases h
  | recv =>
    simp only [step] at h
    split at h
    · rename_i hcaller hrecv
      cases h
      exact .received hcaller hrecv
    · cases h
  | deferred =>
    simp only [step] at h
    split at h
    · rename_i hcaller
      cases h
      exact .left hcaller
    · cases h

/-! ## Invariants -/

/-- Both directions account for the bytes of their streams. -/
def Books (s : CopyLoop) : Prop := ∀ x, (s.copy x).Accounts

theorem books_new (defers : List Side) : Books (.new defers) := fun _ => Copy.accounts_new

theorem books_step (h : Books s) (hstep : Step s act s') : Books s' := by
  cases hstep with
  | @copied x m c hcopy =>
    intro y
    by_cases hy : y = x
    · subst hy
      simpa using Copy.accounts_step (h y) hcopy
    · simpa [Function.update_of_ne hy] using h y
  | closed | signalled | received | left => exact h

/-- Some connection was closed. -/
def AnyClosed (s : CopyLoop) : Prop := ∃ y, s.closed y = true

/-- Some direction has ended by itself: at the end of its stream, or by a failure that is not the
closing of a connection on this side. -/
def SelfEnded (s : CopyLoop) : Prop :=
  ∃ x err, (s.copy x).pc = .returned err ∧ err ≠ some (.conn .closed)

/-- What closes a connection: a direction that has ended by itself comes first, then the signal,
then the caller. -/
structure Closes (s : CopyLoop) : Prop where
  /-- Until a connection is closed, no direction meets a closed one. -/
  undisturbed : ¬ s.AnyClosed → ∀ x, (s.copy x).Undisturbed
  ended : s.AnyClosed → s.SelfEnded
  copier : ∀ x, s.copier x ≠ .copying → s.AnyClosed
  signal : s.done.buf ≠ [] → s.AnyClosed
  /-- `done` is never closed. -/
  openDone : s.done.closed = false
  caller : ∀ defers, s.caller = .leaving defers → s.AnyClosed

theorem closes_new (defers : List Side) : Closes (.new defers) where
  undisturbed := fun _ _ => Copy.undisturbed_new
  ended := by simp [AnyClosed, new]
  copier := by simp [new]
  signal := by simp [new]
  openDone := rfl
  caller := by simp [new]

theorem anyClosed_setClosed (s : CopyLoop) (x : Side) : (s.setClosed x).AnyClosed :=
  ⟨x, by simp [setClosed]⟩

/-- A step that closes a connection, after a direction has ended by itself. -/
theorem Closes.of_closed (hclosed : s.AnyClosed) (hended : s.SelfEnded)
    (hopen : s.done.closed = false) : Closes s where
  undisturbed := fun hno => absurd hclosed hno
  ended := fun _ => hended
  copier := fun _ _ => hclosed
  signal := fun _ => hclosed
  openDone := hopen
  caller := fun _ _ => hclosed

/-- A direction that has ended stays so. -/
theorem SelfEnded.copied {x : Side} {m : CopyMove} {c : Copy} (h : s.SelfEnded)
    (hcopy : Copy.Step (s.closed x.other) (s.closed x) (s.copy x) m c) :
    SelfEnded { s with copy := Function.update s.copy x c } := by
  obtain ⟨y, err, hpc, herr⟩ := h
  refine ⟨y, err, ?_, herr⟩
  by_cases hy : y = x
  · subst hy
    simpa using Copy.returned_step hpc hcopy
  · simpa [Function.update_of_ne hy] using hpc

/-- The signal is received only after it was sent. -/
theorem Closes.received (h : Closes s) {v : Option Unit} {done : Chan 2 Unit}
    (hrecv : s.done.recv = some (v, done)) : s.AnyClosed ∧ done.closed = false := by
  cases v with
  | some u =>
    obtain ⟨hbuf, hsame⟩ := Chan.recv_eq_value.mp hrecv
    refine ⟨h.signal (by simp [hbuf]), ?_⟩
    rw [hsame]
    exact h.openDone
  | none =>
    obtain ⟨-, hclosed, -⟩ := Chan.recv_eq_closed.mp hrecv
    rw [h.openDone] at hclosed
    cases hclosed

theorem closes_step (h : Closes s) (hstep : Step s act s') : Closes s' := by
  cases hstep with
  | @copied x m c hcopy =>
    refine ⟨fun hno y => ?_, fun hany => (h.ended hany).copied hcopy, h.copier, h.signal,
      h.openDone, h.caller⟩
    -- both connections are open, so the step is one between open connections
    have hopen : ∀ z, s.closed z = false := fun z => by
      cases hz : s.closed z with
      | false => rfl
      | true => exact absurd ⟨z, hz⟩ hno
    by_cases hy : y = x
    · subst hy
      rw [hopen, hopen] at hcopy
      simpa using Copy.undisturbed_step (h.undisturbed hno y) hcopy
    · simpa [Function.update_of_ne hy] using h.undisturbed hno y
  | @closed x err hcopier hpc =>
    have hended : s.SelfEnded := by
      by_cases hany : s.AnyClosed
      · exact h.ended hany
      · refine ⟨x, err, hpc, ?_⟩
        have hundisturbed := h.undisturbed hany x
        rw [Copy.Undisturbed, hpc] at hundisturbed
        exact hundisturbed
    exact .of_closed (anyClosed_setClosed s x) hended h.openDone
  | @signalled x done hcopier hsend =>
    have hany : s.AnyClosed := h.copier x (by simp [hcopier])
    obtain ⟨-, -, -, hsame⟩ := Chan.send_eq_some.mp hsend
    exact .of_closed hany (h.ended hany) (by rw [hsame]; exact h.openDone)
  | received hcaller hrecv =>
    obtain ⟨hany, hopen⟩ := h.received hrecv
    exact .of_closed hany (h.ended hany) hopen
  | @left x defers hcaller =>
    have hany := h.caller _ hcaller
    exact .of_closed (anyClosed_setClosed s x) (h.ended hany) h.openDone

/-! ## Whole runs -/

/-- What `CopyLoop` delivers, whatever its caller closes afterwards. Each direction writes, in
order, the first part of what its peer has sent. A direction whose `io.Copy` returns nil has written
all of it, up to the end of the stream. A connection is closed only after some direction has
delivered its whole stream or has failed by itself. -/
theorem copyLoop_delivers (defers : List Side) (acts : List Act) (s : CopyLoop)
    (hrun : exec step (.new defers) acts = some s) :
    (∀ x, (s.copy x).written <+: (s.copy x).sent) ∧
      (∀ x, (s.copy x).pc = .returned none →
        (s.copy x).ended = true ∧ (s.copy x).written = (s.copy x).sent) ∧
      ∀ y, s.closed y = true →
        ∃ x, ((s.copy x).ended = true ∧ (s.copy x).written = (s.copy x).sent) ∨
          ∃ err, (s.copy x).pc = .returned (some err) ∧ err ≠ .conn .closed := by
  have hbooks : Books s :=
    exec_invariant_all (fun _ _ _ h hs => books_step h (step_cases hs)) acts _ _
      (books_new defers) hrun
  have hcloses : Closes s :=
    exec_invariant_all (fun _ _ _ h hs => closes_step h (step_cases hs)) acts _ _
      (closes_new defers) hrun
  refine ⟨fun x => (hbooks x).in_order, fun x hpc => (hbooks x).complete hpc, fun y hy => ?_⟩
  obtain ⟨x, err, hpc, herr⟩ := hcloses.ended ⟨y, hy⟩
  refine ⟨x, ?_⟩
  cases err with
  | none => exact Or.inl ((hbooks x).complete hpc)
  | some err =>
    right
    refine ⟨err, hpc, ?_⟩
    rintro rfl
    exact herr rfl

/-- The stream's peer sends a request of one byte. -/
def request : List Act :=
  [.copy .b (.send [1]), .copy .b (.read 1 .more), .copy .b (.write 1 none)]

/-- The remote replies, ends its stream, and is copied to the end; then everything is closed. -/
def replyFirst : List Act :=
  request ++ ([.copy .a (.send [2, 3]), .copy .a .finish, .copy .a (.read 2 .eof),
    .copy .a (.write 2 none), .close .a, .signal .a, .recv, .deferred, .deferred] : List Act)

theorem copyLoop_delivers_reply :
    ∃ s, exec step handleInboundStream replyFirst = some s ∧ (∀ x, s.closed x = true) ∧
      (s.copy .a).sent = [2, 3] ∧ (s.copy .a).written = (s.copy .a).sent ∧
      (s.copy .b).written <+: (s.copy .b).sent := by
  apply exec_reaches (P := fun s : CopyLoop => s.closed .a = true ∧ s.closed .b = true ∧
    (s.copy .a).sent = [2, 3] ∧ (s.copy .a).pc = .returned none)
  · decide +kernel
  · rintro s hs ⟨ha, hb, hsent, hpc⟩
    obtain ⟨horder, hcomplete, -⟩ := copyLoop_delivers _ _ s hs
    refine ⟨fun x => ?_, hsent, (hcomplete .a hpc).2, horder .b⟩
    cases x with
    | a => exact ha
    | b => exact hb

/-- The peer of `a` ends its stream after the request, while the reply is on its way. -/
def halfClosed : List Act :=
  request ++ ([.copy .b .finish, .copy .a (.send [2, 3]), .copy .b (.read 0 .eof), .close .b,
    .copy .a .finish, .copy .a (.read 0 (.failed .closed)), .close .a, .signal .b, .signal .a,
    .recv] : List Act)

/-- The request arrives and everything is closed, but the reply of two bytes is never written. -/
def LosesReply (relay : CopyLoop) : Prop :=
  ∃ s, exec step relay halfClosed = some s ∧ (s.copy .b).written = [1] ∧
    (s.copy .a).ended = true ∧ (s.copy .a).sent = [2, 3] ∧ (s.copy .a).written = [] ∧
    s.closed .a = true ∧ s.closed .b = true ∧ s.copier .a = .over ∧ s.copier .b = .over

theorem losesReply_of_run {relay : CopyLoop}
    (hrun : (exec step relay halfClosed).any (fun s =>
      decide ((s.copy .b).written = [1] ∧ (s.copy .a).ended = true ∧ (s.copy .a).sent = [2, 3] ∧
        (s.copy .a).written = [] ∧ s.closed .a = true ∧ s.closed .b = true ∧
        s.copier .a = .over ∧ s.copier .b = .over)) = true) : LosesReply relay := by
  obtain ⟨s, hs, hat⟩ := (Option.any_eq_true _ _).mp hrun
  exact ⟨s, hs, of_decide_eq_true hat⟩

/-- The copy of the request ends first and closes the other connection under the reply; it makes no
difference what the caller closes afterwards. -/
theorem reply_lost_to_half_close : LosesReply handleInboundStream ∧ LosesReply handleLocalSocks := by
  refine ⟨losesReply_of_run ?_, losesReply_of_run ?_⟩
  · decide +kernel
  · decide +kernel

end CopyLoop

end PTBridge.Snowflake.Standalone
