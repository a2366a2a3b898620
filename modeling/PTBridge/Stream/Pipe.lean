import PTBridge.Stream.Reader
import PTBridge.Transition.Pool
import PTBridge.Transition.Run

/-!
# `io.Pipe`

A synchronous pipe: a call of `Write` holds a mutex and offers its bytes until readers have taken
all of them, a call of `Read` takes what fits into its buffer of what is on offer. Either side can
close the pipe with an error, and then the calls that wait return.

- `step` interleaves any number of calls of `Read` and `Write`; `Step` and `step_cases` list what a
  step can do.
- `ReadSeq` says that calls of `Read` returned certain bytes of a `Reader`, without an error.
-/

namespace PTBridge.Stream

open PTBridge.Transition

universe u

/-! ## Runs of reads -/

/-- One call of `Read`: its number, the length of its buffer and what it returned. -/
structure Handover where
  reader : Nat
  size : Nat
  data : Bytes
  deriving DecidableEq, Repr

/-- The reads of `log`, one after the other, lead from `r` to `r'` without an error. -/
def ReadSeq : List Handover → Reader → Reader → Prop
  | [], r, r' => r = r'
  | h :: log, r, r' => ∃ r₁, read h.size r = (h.data, none, r₁) ∧ ReadSeq log r₁ r'

theorem ReadSeq.snoc {log : List Handover} {r r₁ r' : Reader} {h : Handover}
    (hlog : ReadSeq log r r₁) (hread : read h.size r₁ = (h.data, none, r')) :
    ReadSeq (log ++ [h]) r r' := by
  induction log generalizing r with
  | nil =>
    cases hlog
    exact ⟨r', hread, rfl⟩
  | cons g log ih =>
    obtain ⟨r₂, hg, hrest⟩ := hlog
    exact ⟨r₂, hg, ih hrest⟩

/-- A read without an error does not see what comes later. -/
theorem read_append {m : Nat} {r r' t : Reader} {b : Bytes} (h : read m r = (b, none, r')) :
    read m (r ++ t) = (b, none, r' ++ t) := by
  cases r with
  | nil => simp [read] at h
  | cons d ds =>
    simp only [List.cons_append, read] at h ⊢
    by_cases hlong : m < d.data.length
    · simp only [hlong, ↓reduceIte] at h ⊢
      cases h
      rfl
    · simp only [hlong, ↓reduceIte, Prod.mk.injEq] at h ⊢
      obtain ⟨rfl, herr, rfl⟩ := h
      simp [herr]

theorem ReadSeq.append {log : List Handover} {r r' : Reader} (h : ReadSeq log r r') (t : Reader) :
    ReadSeq log (r ++ t) (r' ++ t) := by
  induction log generalizing r with
  | nil => exact congrArg (· ++ t) h
  | cons g log ih =>
    obtain ⟨r₁, hg, hrest⟩ := h
    exact ⟨r₁ ++ t, read_append hg, ih hrest⟩

theorem read_bytes {m : Nat} {r r' : Reader} {b : Bytes} (h : read m r = (b, none, r')) :
    r.bytes = b ++ r'.bytes := by
  cases r with
  | nil => simp [read] at h
  | cons d ds =>
    simp only [read] at h
    split at h
    · cases h
      simp only [Reader.bytes, ← List.append_assoc, List.take_append_drop]
    · simp only [Prod.mk.injEq] at h
      obtain ⟨rfl, herr, rfl⟩ := h
      simp [Reader.bytes, herr]

/-- What was read, followed by what is left, is everything. -/
theorem ReadSeq.bytes {log : List Handover} {r r' : Reader} (h : ReadSeq log r r') :
    r.bytes = (log.map Handover.data).flatten ++ r'.bytes := by
  induction log generalizing r with
  | nil =>
    cases h
    rfl
  | cons g log ih =>
    obtain ⟨r₁, hg, hrest⟩ := h
    rw [read_bytes hg, ih hrest, List.map_cons, List.flatten_cons, List.append_assoc]

/-! ## The pipe -/

/-- The errors of a pipe; `given` is one that was passed to `CloseWithError`. -/
inductive PipeError (ε : Type u) where
  | eof
  | closedPipe
  | given (e : ε)
  deriving DecidableEq, Repr

/-- Where a call of `Write` stands. -/
inductive PipeWriteStage (ε : Type u) where
  /-- at the first select -/
  | entering
  /-- at `wrMu.Lock()` -/
  | locking
  /-- at the select of the loop, with `wrMu` held -/
  | sending
  | returned (err : Option (PipeError ε))
  deriving DecidableEq, Repr

structure PipeWrite (ε : Type u) where
  data : Bytes
  /-- The number of bytes that readers have taken. -/
  taken : Nat
  stage : PipeWriteStage ε
  deriving DecidableEq, Repr

/-- Where a call of `Read` stands. -/
inductive PipeReadStage (ε : Type u) where
  /-- at the first select -/
  | entering
  /-- at the second select -/
  | waiting
  | returned (data : Bytes) (err : Option (PipeError ε))
  deriving DecidableEq, Repr

structure PipeRead (ε : Type u) where
  /-- The length of the buffer. -/
  size : Nat
  stage : PipeReadStage ε
  deriving DecidableEq, Repr

structure Pipe (ε : Type u) where
  writes : List (PipeWrite ε)
  reads : List (PipeRead ε)
  /-- The call of `Write` that holds `wrMu`. -/
  holder : Option Nat
  /-- The channel `done` is closed. -/
  done : Bool
  rerr : Option (PipeError ε)
  werr : Option (PipeError ε)
  /-- The calls of `Write` that have got `wrMu`, in order. -/
  order : List Nat
  /-- The calls of `Read` that took something, in order. -/
  moved : List Handover
  deriving DecidableEq, Repr

section Calls

variable {ε : Type u}

/-- Some of the data on offer was taken: the call returns once nothing is left. -/
def PipeWrite.advance (x : PipeWrite ε) (n : Nat) : PipeWrite ε :=
  ⟨x.data, x.taken + n, if x.data.length ≤ x.taken + n then .returned none else .sending⟩

/-- The call has returned, with an error or without. -/
def PipeWrite.returned (x : PipeWrite ε) : Bool :=
  match x.stage with
  | .returned _ => true
  | _ => false

theorem PipeWrite.returned_iff {x : PipeWrite ε} :
    x.returned = true ↔ ∃ err, x.stage = .returned err := by
  unfold PipeWrite.returned
  split
  · rename_i err hstage
    exact ⟨fun _ => ⟨err, hstage⟩, fun _ => rfl⟩
  · rename_i hstage
    exact ⟨nofun, fun ⟨err, hret⟩ => absurd hret (hstage err)⟩

/-- What a call of `Write` still has for readers, if it is not cut off. -/
def PipeWrite.unread (x : PipeWrite ε) : Reader :=
  match x.stage with
  | .returned none => []
  | _ => [⟨x.data.drop x.taken, none⟩]

/-- The reader whose deliveries are the data of the calls. -/
def offered (xs : List (PipeWrite ε)) : Reader := xs.map fun x => ⟨x.data, none⟩

def unread (xs : List (PipeWrite ε)) : Reader := xs.flatMap PipeWrite.unread

end Calls

namespace Pipe

variable {ε : Type u}

def new : Pipe ε := ⟨[], [], none, false, none, none, [], []⟩

/-- `readCloseError`. -/
def readCloseError (p : Pipe ε) : PipeError ε :=
  match p.rerr, p.werr with
  | none, some e => e
  | _, _ => .closedPipe

/-- `writeCloseError`. -/
def writeCloseError (p : Pipe ε) : PipeError ε :=
  match p.werr, p.rerr with
  | none, some e => e
  | _, _ => .closedPipe

/-- `closeRead`. The error is stored before `done` is closed and not looked at before that, and the
first error that is stored stays. -/
def closeRead (p : Pipe ε) (err : Option (PipeError ε)) : Pipe ε :=
  { p with rerr := p.rerr <|> some (err.getD .closedPipe), done := true }

/-- `closeWrite`. -/
def closeWrite (p : Pipe ε) (err : Option (PipeError ε)) : Pipe ε :=
  { p with werr := p.werr <|> some (err.getD .eof), done := true }

inductive Act (ε : Type u) where
  | write (b : Bytes)
  /-- the first select of call `w` of `Write` -/
  | enter (w : Nat)
  | lock (w : Nat)
  /-- call `w` finds `done` closed in its loop -/
  | abort (w : Nat)
  /-- `Read` with a buffer of `m` bytes -/
  | read (m : Nat)
  /-- the first select of call `r` of `Read` -/
  | begin (r : Nat)
  /-- call `r` finds `done` closed in its second select -/
  | stop (r : Nat)
  /-- call `r` of `Read` takes bytes from the call of `Write` that holds the mutex -/
  | transfer (r : Nat)
  | closeRead (err : Option (PipeError ε))
  | closeWrite (err : Option (PipeError ε))
  deriving DecidableEq

/-- The pipe after call `r` of `Read`, with a buffer of `m` bytes, took bytes from call `w`. -/
def handOver (p : Pipe ε) (w r m : Nat) (x : PipeWrite ε) : Pipe ε :=
  let b := (x.data.drop x.taken).take m
  { p with
    writes := p.writes.set w (x.advance b.length)
    reads := p.reads.set r ⟨m, .returned b none⟩
    holder := if x.data.length ≤ x.taken + b.length then none else some w
    moved := p.moved ++ [⟨r, m, b⟩] }

def step (p : Pipe ε) : Act ε → Option (Pipe ε)
  | .write b => some { p with writes := p.writes ++ [⟨b, 0, .entering⟩] }
  | .enter w =>
      match p.writes[w]? with
      | some ⟨b, n, .entering⟩ =>
          if p.done then
            some { p with writes := p.writes.set w ⟨b, n, .returned (some p.writeCloseError)⟩ }
          else some { p with writes := p.writes.set w ⟨b, n, .locking⟩ }
      | _ => none
  | .lock w =>
      match p.writes[w]?, p.holder with
      | some ⟨b, n, .locking⟩, none =>
          some { p with
            writes := p.writes.set w ⟨b, n, .sending⟩, holder := some w, order := p.order ++ [w] }
      | _, _ => none
  | .abort w =>
      match p.writes[w]? with
      | some ⟨b, n, .sending⟩ =>
          if p.done then
            some { p with
              writes := p.writes.set w ⟨b, n, .returned (some p.writeCloseError)⟩, holder := none }
          else none
      | _ => none
  | .read m => some { p with reads := p.reads ++ [⟨m, .entering⟩] }
  | .begin r =>
      match p.reads[r]? with
      | some ⟨m, .entering⟩ =>
          if p.done then
            some { p with reads := p.reads.set r ⟨m, .returned [] (some p.readCloseError)⟩ }
          else some { p with reads := p.reads.set r ⟨m, .waiting⟩ }
      | _ => none
  | .stop r =>
      match p.reads[r]? with
      | some ⟨m, .waiting⟩ =>
          if p.done then
            some { p with reads := p.reads.set r ⟨m, .returned [] (some p.readCloseError)⟩ }
          else none
      | _ => none
  | .transfer r =>
      match p.holder with
      | none => none
      | some w =>
          match p.writes[w]?, p.reads[r]? with
          | some ⟨b, n, .sending⟩, some ⟨m, .waiting⟩ => some (p.handOver w r m ⟨b, n, .sending⟩)
          | _, _ => none
  | .closeRead err => some (p.closeRead err)
  | .closeWrite err => some (p.closeWrite err)

/-- What a step can do. -/
inductive Step (p : Pipe ε) : Act ε → Pipe ε → Prop where
  | write (b : Bytes) :
      Step p (.write b) { p with writes := p.writes ++ [⟨b, 0, .entering⟩] }
  | refuse {w n : Nat} {b : Bytes} (hx : p.writes[w]? = some ⟨b, n, .entering⟩)
      (hdone : p.done = true) :
      Step p (.enter w)
        { p with writes := p.writes.set w ⟨b, n, .returned (some p.writeCloseError)⟩ }
  | enter {w n : Nat} {b : Bytes} (hx : p.writes[w]? = some ⟨b, n, .entering⟩)
      (hopen : p.done = false) :
      Step p (.enter w) { p with writes := p.writes.set w ⟨b, n, .locking⟩ }
  | lock {w n : Nat} {b : Bytes} (hx : p.writes[w]? = some ⟨b, n, .locking⟩)
      (hfree : p.holder = none) :
      Step p (.lock w) { p with
        writes := p.writes.set w ⟨b, n, .sending⟩, holder := some w, order := p.order ++ [w] }
  | abort {w n : Nat} {b : Bytes} (hx : p.writes[w]? = some ⟨b, n, .sending⟩)
      (hdone : p.done = true) :
      Step p (.abort w) { p with
        writes := p.writes.set w ⟨b, n, .returned (some p.writeCloseError)⟩, holder := none }
  | read (m : Nat) : Step p (.read m) { p with reads := p.reads ++ [⟨m, .entering⟩] }
  | refuseRead {r m : Nat} (hx : p.reads[r]? = some ⟨m, .entering⟩) (hdone : p.done = true) :
      Step p (.begin r)
        { p with reads := p.reads.set r ⟨m, .returned [] (some p.readCloseError)⟩ }
  | begin {r m : Nat} (hx : p.reads[r]? = some ⟨m, .entering⟩) (hopen : p.done = false) :
      Step p (.begin r) { p with reads := p.reads.set r ⟨m, .waiting⟩ }
  | stop {r m : Nat} (hx : p.reads[r]? = some ⟨m, .waiting⟩) (hdone : p.done = true) :
      Step p (.stop r) { p with reads := p.reads.set r ⟨m, .returned [] (some p.readCloseError)⟩ }
  | transfer {w r n m : Nat} {b : Bytes} (hheld : p.holder = some w)
      (hx : p.writes[w]? = some ⟨b, n, .sending⟩) (hr : p.reads[r]? = some ⟨m, .waiting⟩) :
      Step p (.transfer r) (p.handOver w r m ⟨b, n, .sending⟩)
  | closeRead (err : Option (PipeError ε)) : Step p (.closeRead err) (p.closeRead err)
  | closeWrite (err : Option (PipeError ε)) : Step p (.closeWrite err) (p.closeWrite err)

theorem step_cases {p p' : Pipe ε} {a : Act ε} (h : step p a = some p') : Step p a p' := by
  cases a with
  | write b =>
    cases h
    exact .write b
  | enter w =>
    simp only [step] at h
    split at h
    · rename_i hx
      split at h <;> cases h
      · rename_i hdone
        exact .refuse hx hdone
      · rename_i hopen
        exact .enter hx (Bool.eq_false_iff.mpr hopen)
    · cases h
  | lock w =>
    simp only [step] at h
    split at h
    · rename_i hx hfree
      cases h
      exact .lock hx hfree
    · cases h
  | abort w =>
    simp only [step] at h
    split at h
    · rename_i hx
      split at h <;> cases h
      rename_i hdone
      exact .abort hx hdone
    · cases h
  | read m =>
    cases h
    exact .read m
  | begin r =>
    simp only [step] at h
    split at h
    · rename_i hx
      split at h <;> cases h
      · rename_i hdone
        exact .refuseRead hx hdone
      · rename_i hopen
        exact .begin hx (Bool.eq_false_iff.mpr hopen)
    · cases h
  | stop r =>
    simp only [step] at h
    split at h
    · rename_i hx
      split at h <;> cases h
      rename_i hdone
      exact .stop hx hdone
    · cases h
  | transfer r =>
    simp only [step] at h
    split at h
    · cases h
    · rename_i w hheld
      split at h
      · rename_i hx hr
        cases h
        exact .transfer hheld hx hr
      · cases h
  | closeRead err =>
    cases h
    exact .closeRead err
  | closeWrite err =>
    cases h
    exact .closeWrite err

end Pipe

end PTBridge.Stream
