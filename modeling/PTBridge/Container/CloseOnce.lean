import Mathlib.Data.List.Basic
import Mathlib.Tactic.Push
import PTBridge.Transition.Pool
import PTBridge.Transition.Run

/-!
# Objects that are closed once, with an error

An object is closed by a function that runs inside a `sync.Once`: it stores an error in an
`atomic.Value` and then closes a channel. Every other operation looks at the channel, and loads the
error when it finds the channel closed. `Store` panics when a second value has another type than the
first, closing a channel twice panics, and so does the use of an error that was not stored yet.

- `CloseOnce` is such an object with any number of callers that close it and of callers that use it;
  `step` interleaves them.
- `Agreed` is the invariant: the caller whose function runs is the only one, and everybody else
  sees the error of this caller. `agreed_run` gives it for every run.
- `closers_return` says that no caller that closes the object waits for ever.
-/

namespace PTBridge.Container

open PTBridge.Transition

universe u v w

/-- `sync.Once`: `Do` runs the function of its first caller, the others wait for it to return. -/
inductive OnceStage where
  | fresh
  | running
  | done
  deriving DecidableEq, Repr

/-- Where a call that closes the object stands. -/
inductive CloserPc (ε : Type u) where
  /-- at `Do` -/
  | entering
  /-- in the function, before the `Store` of its error -/
  | storing (err : ε)
  /-- in the function, before the channel is closed -/
  | shutting
  /-- the function has returned, `Do` has not -/
  | leaving
  /-- `Do` did not run the function; before the `Load` -/
  | loading
  /-- returned nil, or the error it loaded -/
  | returned (err : Option ε)
  | panicked
  deriving DecidableEq

/-- A call that closes the object, with the error it was given. -/
structure Closer (ε : Type u) where
  given : Option ε
  pc : CloserPc ε
  deriving DecidableEq

/-- Where a call that uses the object stands. -/
inductive UserPc (ε : Type u) where
  /-- before its check of the channel -/
  | checking
  /-- past the check -/
  | passed
  /-- the channel was closed; before the `Load` -/
  | loading
  | failed (err : ε)
  /-- returned without an error -/
  | succeeded
  | panicked
  deriving DecidableEq

/-- A call of method `method`. -/
structure User (μ : Type w) (ε : Type u) where
  method : μ
  pc : UserPc ε
  deriving DecidableEq

/-- An object that is closed once, and its callers. -/
structure CloseOnce (μ : Type w) (ε : Type u) where
  once : OnceStage
  /-- The `atomic.Value`; `none` before the first `Store`. -/
  value : Option ε
  /-- The channel is closed. -/
  closed : Bool
  closers : List (Closer ε)
  users : List (User μ ε)
  deriving DecidableEq

/-- A step of the callers. -/
inductive GateAct (μ : Type w) (ε : Type u) where
  /-- the object is closed with an error or nil -/
  | close (given : Option ε)
  /-- the next step of the call `k` that closes the object -/
  | closer (k : Nat)
  /-- a method is called -/
  | use (method : μ)
  /-- the next step of the call `k` of a method, at a check of the channel or at the `Load` -/
  | user (k : Nat)
  /-- call `k` gets what it wants and returns -/
  | succeed (k : Nat)
  deriving DecidableEq

section Model

variable {μ : Type w} {ε : Type u} {κ : Type v}

namespace CloseOnce

def new : CloseOnce μ ε := ⟨.fresh, none, false, [], []⟩

def setCloser (s : CloseOnce μ ε) (k : Nat) (c : Closer ε) : CloseOnce μ ε :=
  { s with closers := s.closers.set k c }

def setUser (s : CloseOnce μ ε) (k : Nat) (u : User μ ε) : CloseOnce μ ε :=
  { s with users := s.users.set k u }

end CloseOnce

/-- What differs between such objects. -/
structure GateKind (μ : Type w) (ε : Type u) (κ : Type v) where
  /-- The error that stands for nil. -/
  closedErr : ε
  /-- The dynamic type of an error. -/
  type : ε → κ
  /-- Whether a method looks at the channel again while it waits. -/
  waits : μ → Bool

/-- The error a call stores. -/
def GateKind.stored (g : GateKind μ ε κ) (c : Closer ε) : ε := c.given.getD g.closedErr

def closerStep [DecidableEq κ] (g : GateKind μ ε κ) (s : CloseOnce μ ε) (k : Nat) (c : Closer ε) :
    Option (CloseOnce μ ε) :=
  match c.pc with
  | .entering =>
      match s.once with
      | .fresh =>
          some { s.setCloser k { c with pc := .storing (g.stored c) } with once := .running }
      | .running => none
      | .done => some (s.setCloser k { c with pc := .loading })
  | .storing err =>
      -- `Store` accepts any first value, and later ones of the same type
      if s.value.all fun old => g.type old = g.type err then
        some { s.setCloser k { c with pc := .shutting } with value := some err }
      else some (s.setCloser k { c with pc := .panicked })
  | .shutting =>
      if s.closed then some (s.setCloser k { c with pc := .panicked })
      else some { s.setCloser k { c with pc := .leaving } with closed := true }
  | .leaving => some { s.setCloser k { c with pc := .returned none } with once := .done }
  | .loading =>
      match s.value with
      | some err => some (s.setCloser k { c with pc := .returned (some err) })
      | none => some (s.setCloser k { c with pc := .panicked })
  | .returned _ => none
  | .panicked => none

def userStep (g : GateKind μ ε κ) (s : CloseOnce μ ε) (k : Nat) (u : User μ ε) :
    Option (CloseOnce μ ε) :=
  match u.pc with
  | .checking =>
      if s.closed then some (s.setUser k { u with pc := .loading })
      else some (s.setUser k { u with pc := .passed })
  | .passed =>
      if g.waits u.method = true ∧ s.closed = true then
        some (s.setUser k { u with pc := .loading })
      else none
  | .loading =>
      match s.value with
      | some err => some (s.setUser k { u with pc := .failed err })
      | none => some (s.setUser k { u with pc := .panicked })
  | _ => none

namespace CloseOnce

def step [DecidableEq κ] (g : GateKind μ ε κ) (s : CloseOnce μ ε) :
    GateAct μ ε → Option (CloseOnce μ ε)
  | .close given => some { s with closers := s.closers ++ [⟨given, .entering⟩] }
  | .closer k =>
      match s.closers[k]? with
      | none => none
      | some c => closerStep g s k c
  | .use method => some { s with users := s.users ++ [⟨method, .checking⟩] }
  | .user k =>
      match s.users[k]? with
      | none => none
      | some u => userStep g s k u
  | .succeed k =>
      match s.users[k]? with
      | some ⟨method, .passed⟩ => some (s.setUser k ⟨method, .succeeded⟩)
      | _ => none

/-! ## What a step can do -/

/-- The steps, one case for each branch. -/
inductive Step (g : GateKind μ ε κ) (s : CloseOnce μ ε) : GateAct μ ε → CloseOnce μ ε → Prop where
  | calls (given : Option ε) :
      Step g s (.close given) { s with closers := s.closers ++ [⟨given, .entering⟩] }
  | enters {k c} (hc : s.closers[k]? = some c) (hpc : c.pc = .entering) (honce : s.once = .fresh) :
      Step g s (.closer k)
        { s.setCloser k { c with pc := .storing (g.stored c) } with once := .running }
  | skips {k c} (hc : s.closers[k]? = some c) (hpc : c.pc = .entering) (honce : s.once = .done) :
      Step g s (.closer k) (s.setCloser k { c with pc := .loading })
  | stores {k c err} (hc : s.closers[k]? = some c) (hpc : c.pc = .storing err) :
      Step g s (.closer k) { s.setCloser k { c with pc := .shutting } with value := some err }
  | storePanics {k c err old} (hc : s.closers[k]? = some c) (hpc : c.pc = .storing err)
      (hold : s.value = some old) :
      Step g s (.closer k) (s.setCloser k { c with pc := .panicked })
  | shuts {k c} (hc : s.closers[k]? = some c) (hpc : c.pc = .shutting) (hopen : s.closed = false) :
      Step g s (.closer k) { s.setCloser k { c with pc := .leaving } with closed := true }
  | shutPanics {k c} (hc : s.closers[k]? = some c) (hpc : c.pc = .shutting)
      (hclosed : s.closed = true) :
      Step g s (.closer k) (s.setCloser k { c with pc := .panicked })
  | leaves {k c} (hc : s.closers[k]? = some c) (hpc : c.pc = .leaving) :
      Step g s (.closer k) { s.setCloser k { c with pc := .returned none } with once := .done }
  | loads {k c err} (hc : s.closers[k]? = some c) (hpc : c.pc = .loading)
      (hvalue : s.value = some err) :
      Step g s (.closer k) (s.setCloser k { c with pc := .returned (some err) })
  | loadPanics {k c} (hc : s.closers[k]? = some c) (hpc : c.pc = .loading)
      (hvalue : s.value = none) :
      Step g s (.closer k) (s.setCloser k { c with pc := .panicked })
  | uses (method : μ) : Step g s (.use method) { s with users := s.users ++ [⟨method, .checking⟩] }
  | passes {k u} (hu : s.users[k]? = some u) (hpc : u.pc = .checking) (hopen : s.closed = false) :
      Step g s (.user k) (s.setUser k { u with pc := .passed })
  -- at the first check, or while it waits
  | finds {k u} (hu : s.users[k]? = some u) (hpc : u.pc = .checking ∨ u.pc = .passed)
      (hclosed : s.closed = true) :
      Step g s (.user k) (s.setUser k { u with pc := .loading })
  | fails {k u err} (hu : s.users[k]? = some u) (hpc : u.pc = .loading)
      (hvalue : s.value = some err) :
      Step g s (.user k) (s.setUser k { u with pc := .failed err })
  | failPanics {k u} (hu : s.users[k]? = some u) (hpc : u.pc = .loading) (hvalue : s.value = none) :
      Step g s (.user k) (s.setUser k { u with pc := .panicked })
  | succeeds {k u} (hu : s.users[k]? = some u) (hpc : u.pc = .passed) :
      Step g s (.succeed k) (s.setUser k { u with pc := .succeeded })

variable {g : GateKind μ ε κ} {s s' t : CloseOnce μ ε} {act : GateAct μ ε} {k : Nat}

theorem closerStep_cases [DecidableEq κ] {c : Closer ε} (hc : s.closers[k]? = some c)
    (h : closerStep g s k c = some s') : Step g s (.closer k) s' := by
  unfold closerStep at h
  split at h
  · rename_i hpc
    split at h
    · rename_i honce
      cases h
      exact .enters hc hpc honce
    · cases h
    · rename_i honce
      cases h
      exact .skips hc hpc honce
  · rename_i err hpc
    split at h
    · cases h
      exact .stores hc hpc
    · rename_i hold
      cases h
      -- nothing is compared with an empty value
      cases hvalue : s.value with
      | none => simp [hvalue] at hold
      | some old => exact .storePanics hc hpc hvalue
  · rename_i hpc
    split at h
    · rename_i hclosed
      cases h
      exact .shutPanics hc hpc hclosed
    · rename_i hopen
      cases h
      exact .shuts hc hpc (eq_false_of_ne_true hopen)
  · rename_i hpc
    cases h
    exact .leaves hc hpc
  · rename_i hpc
    split at h
    · rename_i err hvalue
      cases h
      exact .loads hc hpc hvalue
    · rename_i hvalue
      cases h
      exact .loadPanics hc hpc hvalue
  · cases h
  · cases h

theorem userStep_cases {u : User μ ε} (hu : s.users[k]? = some u)
    (h : userStep g s k u = some s') : Step g s (.user k) s' := by
  unfold userStep at h
  split at h
  · rename_i hpc
    split at h
    · rename_i hclosed
      cases h
      exact .finds hu (.inl hpc) hclosed
    · rename_i hopen
      cases h
      exact .passes hu hpc (eq_false_of_ne_true hopen)
  · rename_i hpc
    split at h
    · rename_i hwaits
      cases h
      exact .finds hu (.inr hpc) hwaits.2
    · cases h
  · rename_i hpc
    split at h
    · rename_i err hvalue
      cases h
      exact .fails hu hpc hvalue
    · rename_i hvalue
      cases h
      exact .failPanics hu hpc hvalue
  · cases h

theorem step_cases [DecidableEq κ] (h : step g s act = some s') : Step g s act s' := by
  cases act with
  | close given =>
    cases h
    exact .calls given
  | closer k =>
    simp only [step] at h
    split at h
    · cases h
    · rename_i c hc
      exact closerStep_cases hc h
  | use method =>
    cases h
    exact .uses method
  | user k =>
    simp only [step] at h
    split at h
    · cases h
    · rename_i u hu
      exact userStep_cases hu h
  | succeed k =>
    simp only [step] at h
    split at h
    · rename_i method hu
      cases h
      exact .succeeds hu rfl
    · cases h

/-! ## The invariant -/

/-- The call whose function runs or ran, and how far the object is closed. -/
def Wins (g : GateKind μ ε κ) (s : CloseOnce μ ε) (c : Closer ε) : Prop :=
  match c.pc with
  | .storing err =>
      err = g.stored c ∧ s.once = .running ∧ s.value = none ∧ s.closed = false
  | .shutting => s.once = .running ∧ s.value = some (g.stored c) ∧ s.closed = false
  | .leaving => s.once = .running ∧ s.value = some (g.stored c) ∧ s.closed = true
  | .returned none => s.once = .done ∧ s.value = some (g.stored c) ∧ s.closed = true
  | _ => False

/-- Any other call: it passes `Do` only after the function has returned. -/
def Loses (s : CloseOnce μ ε) (c : Closer ε) : Prop :=
  match c.pc with
  | .entering => True
  | .loading => s.once = .done
  | .returned (some err) => s.once = .done ∧ s.value = some err
  | _ => False

/-- A call of a method loads only what was stored. -/
def Uses (s : CloseOnce μ ε) (u : User μ ε) : Prop :=
  match u.pc with
  | .loading => s.closed = true
  | .failed err => s.closed = true ∧ s.value = some err
  | .panicked => False
  | _ => True

/-- One call has closed the object, or is about to. -/
structure ClosedBy (g : GateKind μ ε κ) (s : CloseOnce μ ε) (k : Nat) (c : Closer ε) : Prop where
  here : s.closers[k]? = some c
  wins : Wins g s c
  others : ∀ j c', s.closers[j]? = some c' → j ≠ k → Loses s c'

/-- Nobody has got past `Do` yet. -/
structure Untouched (s : CloseOnce μ ε) : Prop where
  once : s.once = .fresh
  value : s.value = none
  closed : s.closed = false
  entering : ∀ (j : Nat) c, s.closers[j]? = some c → c.pc = .entering

/-- The invariant: the object is untouched, or closed by one call; and the calls of its methods see
the error of that call. -/
structure Agreed (g : GateKind μ ε κ) (s : CloseOnce μ ε) : Prop where
  closers : Untouched s ∨ ∃ k c, ClosedBy g s k c
  users : ∀ (j : Nat) u, s.users[j]? = some u → Uses s u

theorem agreed_new : Agreed g (new : CloseOnce μ ε) where
  closers := .inl ⟨rfl, rfl, rfl, by simp [new]⟩
  users := by simp [new]

/-! ### The closers -/

theorem Loses.entering {c : Closer ε} (h : Loses s c) (honce : s.once ≠ .done) :
    c.pc = .entering := by
  unfold Loses at h
  split at h
  · assumption
  · exact absurd h honce
  · exact absurd h.1 honce
  · exact h.elim

theorem loses_of_entering {c : Closer ε} (hpc : c.pc = .entering) : Loses s c := by
  simp [Loses, hpc]

theorem Wins.once_ne_fresh {c : Closer ε} (h : Wins g s c) : s.once ≠ .fresh := by
  unfold Wins at h
  split at h <;> simp_all

namespace ClosedBy

variable {c c' d d' : Closer ε} {j : Nat}

/-- A call that cannot be one of the others. -/
theorem who (h : ClosedBy g s k c) (hd : s.closers[j]? = some d) (hnot : ¬ Loses s d) :
    j = k ∧ d = c := by
  have hj : j = k := by
    by_contra hne
    exact hnot (h.others j d hd hne)
  subst hj
  exact ⟨rfl, Option.some.inj (hd.symm.trans h.here)⟩

/-- A call that cannot be the one. -/
theorem apart (h : ClosedBy g s k c) (hd : s.closers[j]? = some d) (hnot : ¬ Wins g s d) :
    j ≠ k := by
  rintro rfl
  obtain rfl : d = c := Option.some.inj (hd.symm.trans h.here)
  exact hnot h.wins

/-- The call moves on while the others wait at `Do`. -/
theorem moves (h : ClosedBy g s k c) (honce : s.once ≠ .done)
    (hclosers : s'.closers = s.closers.set k c') (hwins : Wins g s' c') : ClosedBy g s' k c' where
  here := by rw [hclosers]; exact pool_set_self h.here
  wins := hwins
  others := by
    intro i e he hne
    rw [hclosers] at he
    obtain ⟨rfl, -⟩ | ⟨-, hold⟩ := pool_set_some he
    · exact absurd rfl hne
    · exact loses_of_entering ((h.others i e hold hne).entering honce)

/-- Another call moves on. -/
theorem other (h : ClosedBy g s k c) (hne : j ≠ k) (hloses : Loses s d') :
    ClosedBy g (s.setCloser j d') k c where
  here := by
    show (s.closers.set j d')[k]? = some c
    rw [List.getElem?_set_ne hne]
    exact h.here
  wins := h.wins
  others := by
    intro i e he hi
    obtain ⟨rfl, rfl⟩ | ⟨-, hold⟩ := pool_set_some he
    · exact hloses
    · exact h.others i e hold hi

theorem called (h : ClosedBy g s k c) (given : Option ε) :
    ClosedBy g { s with closers := s.closers ++ [⟨given, .entering⟩] } k c where
  here := pool_snoc_old h.here
  wins := h.wins
  others := by
    intro i e he hi
    obtain hold | ⟨-, rfl⟩ := pool_snoc_some he
    · exact h.others i e hold hi
    · exact loses_of_entering rfl

end ClosedBy

namespace Untouched

theorem called (h : Untouched s) (given : Option ε) :
    Untouched { s with closers := s.closers ++ [⟨given, .entering⟩] } where
  once := h.once
  value := h.value
  closed := h.closed
  entering := by
    intro i e he
    obtain hold | ⟨-, rfl⟩ := pool_snoc_some he
    · exact h.entering i e hold
    · rfl

/-- The first call at `Do` becomes the one. -/
theorem entered {c : Closer ε} (h : Untouched s) (hc : s.closers[k]? = some c) :
    ClosedBy g { s.setCloser k { c with pc := .storing (g.stored c) } with once := .running } k
      { c with pc := .storing (g.stored c) } where
  here := pool_set_self hc
  wins := ⟨rfl, rfl, h.value, h.closed⟩
  others := by
    intro i e he hi
    obtain ⟨rfl, -⟩ | ⟨-, hold⟩ := pool_set_some he
    · exact absurd rfl hi
    · exact loses_of_entering (h.entering i e hold)

end Untouched

/-- A call that is past `Do` shows that the object was touched. -/
theorem Agreed.closedBy {c : Closer ε} (h : Agreed g s) (hc : s.closers[k]? = some c)
    (hpc : c.pc ≠ .entering) : ∃ k₀ c₀, ClosedBy g s k₀ c₀ := by
  obtain hfresh | hclosed := h.closers
  · exact absurd (hfresh.entering k c hc) hpc
  · exact hclosed

/-- The call that runs the function is the only one that does. -/
theorem Agreed.winner {c : Closer ε} (h : Agreed g s) (hc : s.closers[k]? = some c)
    (hpc : c.pc ≠ .entering) (hnot : ¬ Loses s c) : ClosedBy g s k c := by
  obtain ⟨k₀, c₀, hby⟩ := h.closedBy hc hpc
  obtain ⟨rfl, rfl⟩ := hby.who hc hnot
  exact hby

theorem Agreed.closers_step (h : Agreed g s) (hs : Step g s act s') :
    Untouched s' ∨ ∃ k c, ClosedBy g s' k c := by
  cases hs with
  | calls given =>
    obtain hfresh | ⟨k, c, hby⟩ := h.closers
    · exact .inl (hfresh.called given)
    · exact .inr ⟨k, c, hby.called given⟩
  | enters hc hpc honce =>
    obtain hfresh | ⟨k, c, hby⟩ := h.closers
    · exact .inr ⟨_, _, hfresh.entered hc⟩
    · exact absurd honce hby.wins.once_ne_fresh
  | skips hc hpc honce =>
    obtain hfresh | ⟨k, c, hby⟩ := h.closers
    · rw [hfresh.once] at honce
      cases honce
    · have hne := hby.apart hc (by simp [Wins, hpc])
      exact .inr ⟨k, c, hby.other hne honce⟩
  | stores hc hpc =>
    have hby := h.winner hc (by simp [hpc]) (by simp [Loses, hpc])
    have hwins := hby.wins
    simp only [Wins, hpc] at hwins
    obtain ⟨rfl, honce, -, hopen⟩ := hwins
    exact .inr ⟨_, _, hby.moves (by simp [honce]) rfl ⟨honce, rfl, hopen⟩⟩
  | storePanics hc hpc hold =>
    have hwins := (h.winner hc (by simp [hpc]) (by simp [Loses, hpc])).wins
    simp [Wins, hpc, hold] at hwins
  | shuts hc hpc hopen =>
    have hby := h.winner hc (by simp [hpc]) (by simp [Loses, hpc])
    have hwins := hby.wins
    simp only [Wins, hpc] at hwins
    obtain ⟨honce, hvalue, -⟩ := hwins
    exact .inr ⟨_, _, hby.moves (by simp [honce]) rfl ⟨honce, hvalue, rfl⟩⟩
  | shutPanics hc hpc hclosed =>
    have hwins := (h.winner hc (by simp [hpc]) (by simp [Loses, hpc])).wins
    simp [Wins, hpc, hclosed] at hwins
  | leaves hc hpc =>
    have hby := h.winner hc (by simp [hpc]) (by simp [Loses, hpc])
    have hwins := hby.wins
    simp only [Wins, hpc] at hwins
    obtain ⟨honce, hvalue, hclosed⟩ := hwins
    exact .inr ⟨_, _, hby.moves (by simp [honce]) rfl ⟨rfl, hvalue, hclosed⟩⟩
  | loads hc hpc hvalue =>
    obtain ⟨k, c, hby⟩ := h.closedBy hc (by simp [hpc])
    have hne := hby.apart hc (by simp [Wins, hpc])
    have hdone := hby.others _ _ hc hne
    simp only [Loses, hpc] at hdone
    exact .inr ⟨k, c, hby.other hne ⟨hdone, hvalue⟩⟩
  | loadPanics hc hpc hvalue =>
    -- `Do` returns to the others only when the error is stored
    obtain ⟨k, c, hby⟩ := h.closedBy hc (by simp [hpc])
    have hne := hby.apart hc (by simp [Wins, hpc])
    have hdone := hby.others _ _ hc hne
    simp only [Loses, hpc] at hdone
    have hwins := hby.wins
    unfold Wins at hwins
    split at hwins <;> simp_all
  | uses method =>
    obtain hfresh | ⟨k, c, hby⟩ := h.closers
    · exact .inl ⟨hfresh.once, hfresh.value, hfresh.closed, hfresh.entering⟩
    · exact .inr ⟨k, c, hby.here, hby.wins, hby.others⟩
  | passes | finds | fails | failPanics | succeeds =>
    obtain hfresh | ⟨k, c, hby⟩ := h.closers
    · exact .inl ⟨hfresh.once, hfresh.value, hfresh.closed, hfresh.entering⟩
    · exact .inr ⟨k, c, hby.here, hby.wins, hby.others⟩

/-! ### The users -/

/-- Whoever finds the channel closed finds the error stored. -/
theorem Agreed.closed_by (h : Agreed g s) (hclosed : s.closed = true) :
    ∃ k c, ClosedBy g s k c ∧ s.value = some (g.stored c) := by
  obtain hfresh | ⟨k, c, hby⟩ := h.closers
  · rw [hfresh.closed] at hclosed
    cases hclosed
  · refine ⟨k, c, hby, ?_⟩
    have hwins := hby.wins
    unfold Wins at hwins
    split at hwins <;> simp_all

/-- The calls of methods see the channel and the error only after the channel was closed. -/
theorem Uses.mono {u : User μ ε} (h : Uses s u)
    (hkeeps : s.closed = true → s'.closed = true ∧ s'.value = s.value) : Uses s' u := by
  unfold Uses at h ⊢
  split at h
  · exact (hkeeps h).1
  · exact ⟨(hkeeps h.1).1, (hkeeps h.1).2.trans h.2⟩
  · exact h.elim
  · trivial

theorem users_setUser {u : User μ ε} (h : ∀ (j : Nat) v, s.users[j]? = some v → Uses s v)
    (hu : Uses s u) :
    ∀ (j : Nat) v, (s.setUser k u).users[j]? = some v → Uses (s.setUser k u) v := by
  intro j v hv
  obtain ⟨-, rfl⟩ | ⟨-, hold⟩ := pool_set_some hv
  · exact hu
  · exact h j v hold

theorem Agreed.users_step (h : Agreed g s) (hs : Step g s act s') :
    ∀ (j : Nat) u, s'.users[j]? = some u → Uses s' u := by
  cases hs with
  | calls | enters | skips | storePanics | shutPanics | leaves | loads | loadPanics =>
    exact h.users
  | stores hc hpc =>
    have hwins := (h.winner hc (by simp [hpc]) (by simp [Loses, hpc])).wins
    simp only [Wins, hpc] at hwins
    intro j u hu
    exact (h.users j u hu).mono fun hclosed => by simp [hwins.2.2.2] at hclosed
  | shuts hc hpc hopen =>
    intro j u hu
    exact (h.users j u hu).mono fun hclosed => by simp [hopen] at hclosed
  | uses method =>
    intro j u hu
    obtain hold | ⟨-, rfl⟩ := pool_snoc_some hu
    · exact h.users j u hold
    · trivial
  | passes | succeeds => exact users_setUser h.users trivial
  | finds hu hpc hclosed => exact users_setUser h.users hclosed
  | fails hu hpc hvalue =>
    have hclosed := h.users _ _ hu
    simp only [Uses, hpc] at hclosed
    exact users_setUser h.users ⟨hclosed, hvalue⟩
  | failPanics hu hpc hvalue =>
    have hclosed := h.users _ _ hu
    simp only [Uses, hpc] at hclosed
    obtain ⟨k, c, -, hstored⟩ := h.closed_by hclosed
    rw [hvalue] at hstored
    cases hstored

theorem Agreed.step (h : Agreed g s) (hs : Step g s act s') : Agreed g s' :=
  ⟨h.closers_step hs, h.users_step hs⟩

theorem agreed_run [DecidableEq κ] {acts : List (GateAct μ ε)}
    (hrun : exec (CloseOnce.step g) new acts = some s) : Agreed g s :=
  exec_invariant_all (fun _ _ _ h hstep => h.step (step_cases hstep)) acts new s agreed_new hrun

/-! ### Consequences -/

/-- The calls that did not close the object return the error of the one that did. -/
theorem Agreed.returned {c : Closer ε} {err : ε} (h : Agreed g s) (hc : s.closers[k]? = some c)
    (hpc : c.pc = .returned (some err)) :
    ∃ j w, ClosedBy g s j w ∧ w.pc = .returned none ∧ err = g.stored w := by
  obtain ⟨j, w, hby⟩ := h.closedBy hc (by simp [hpc])
  have hloses := hby.others k c hc (hby.apart hc (by simp [Wins, hpc]))
  simp only [Loses, hpc] at hloses
  have hwins := hby.wins
  unfold Wins at hwins
  refine ⟨j, w, hby, ?_⟩
  split at hwins <;> simp_all

/-- Once a call that closes the object has returned, the channel is closed. -/
theorem Agreed.shut {c : Closer ε} {r : Option ε} (h : Agreed g s) (hc : s.closers[k]? = some c)
    (hpc : c.pc = .returned r) : s.closed = true := by
  have hclosed : ∀ {j : Nat} {w : Closer ε}, ClosedBy g s j w → w.pc = .returned none →
      s.closed = true := by
    intro j w hby hw
    have hwins := hby.wins
    simp only [Wins, hw] at hwins
    exact hwins.2.2
  cases r with
  | none => exact hclosed (h.winner hc (by simp [hpc]) (by simp [Loses, hpc])) hpc
  | some err =>
    obtain ⟨j, w, hby, hw, -⟩ := h.returned hc hpc
    exact hclosed hby hw

/-- The object is closed, and no call of a method from the `n`th on has got past its check. -/
structure ShutFrom (n : Nat) (s : CloseOnce μ ε) : Prop where
  closed : s.closed = true
  users : ∀ j u, n ≤ j → s.users[j]? = some u → u.pc ≠ .passed ∧ u.pc ≠ .succeeded

theorem ShutFrom.setUser {n : Nat} {u : User μ ε} (h : ShutFrom n s)
    (hu : n ≤ k → u.pc ≠ .passed ∧ u.pc ≠ .succeeded) : ShutFrom n (s.setUser k u) where
  closed := h.closed
  users := by
    intro j v hj hv
    obtain ⟨rfl, rfl⟩ | ⟨-, hold⟩ := pool_set_some hv
    · exact hu hj
    · exact h.users j v hj hold

theorem ShutFrom.step {n : Nat} (h : ShutFrom n s) (hs : Step g s act s') : ShutFrom n s' := by
  cases hs with
  | calls | enters | skips | stores | storePanics | shutPanics | leaves | loads | loadPanics =>
    exact ⟨h.closed, h.users⟩
  | shuts => exact ⟨rfl, h.users⟩
  | uses method =>
    refine ⟨h.closed, fun j u hj hu => ?_⟩
    obtain hold | ⟨-, rfl⟩ := pool_snoc_some hu
    · exact h.users j u hj hold
    · simp
  | passes hu hpc hopen =>
    rw [h.closed] at hopen
    cases hopen
  | finds | fails | failPanics => exact h.setUser fun _ => by simp
  | succeeds hu hpc => exact h.setUser fun hk => absurd hpc (h.users _ _ hk hu).1

/-- A method that is called after the object was closed does not succeed. -/
theorem shutFrom_run [DecidableEq κ] {acts : List (GateAct μ ε)} (hclosed : s.closed = true)
    (hrun : exec (CloseOnce.step g) s acts = some t) : ShutFrom s.users.length t := by
  refine exec_invariant_all (fun _ _ _ h hstep => h.step (step_cases hstep)) acts s t ?_ hrun
  refine ⟨hclosed, fun j u hj hu => ?_⟩
  obtain ⟨hlt, -⟩ := List.getElem?_eq_some_iff.mp hu
  omega

/-! ### Progress -/

/-- How many steps a call still has before it returns. -/
def CloserPc.rank : CloserPc ε → Nat
  | .entering => 4
  | .storing _ => 3
  | .shutting => 2
  | .leaving => 1
  | .loading => 1
  | .returned _ => 0
  | .panicked => 0

/-- The steps that all the calls still have. -/
def work (s : CloseOnce μ ε) : Nat := (s.closers.map fun c => CloserPc.rank c.pc).sum

theorem work_set {c c' : Closer ε} (hc : s.closers[k]? = some c)
    (hclosers : s'.closers = s.closers.set k c')
    (hrank : CloserPc.rank c'.pc < CloserPc.rank c.pc) : work s' < work s := by
  have hsum := pool_sum_set (f := fun c => CloserPc.rank c.pc) (x := c') hc
  unfold work
  rw [hclosers]
  omega

/-- While a call has not returned, one of the calls can take a step. -/
theorem Agreed.advance [DecidableEq κ] {c : Closer ε} (h : Agreed g s)
    (hc : s.closers[k]? = some c) (hpending : ∀ r, c.pc ≠ .returned r) :
    ∃ j s', CloseOnce.step g s (.closer j) = some s' ∧ work s' < work s := by
  obtain hfresh | ⟨j, w, hby⟩ := h.closers
  · have hpc := hfresh.entering k c hc
    refine ⟨k, _, by simp only [CloseOnce.step, hc, closerStep, hpc, hfresh.once]; rfl, ?_⟩
    exact work_set hc rfl (by simp [hpc, CloserPc.rank])
  · have hwins := hby.wins
    unfold Wins at hwins
    split at hwins
    · rename_i err hpc
      refine ⟨j, { s.setCloser j { w with pc := .shutting } with value := some err }, ?_, ?_⟩
      · simp [CloseOnce.step, hby.here, closerStep, hpc, hwins.2.2.1]
      · exact work_set hby.here rfl (by simp [hpc, CloserPc.rank])
    · rename_i hpc
      refine ⟨j, { s.setCloser j { w with pc := .leaving } with closed := true }, ?_, ?_⟩
      · simp [CloseOnce.step, hby.here, closerStep, hpc, hwins.2.2]
      · exact work_set hby.here rfl (by simp [hpc, CloserPc.rank])
    · rename_i hpc
      refine ⟨j, _, by simp only [CloseOnce.step, hby.here, closerStep, hpc]; rfl, ?_⟩
      exact work_set hby.here rfl (by simp [hpc, CloserPc.rank])
    · -- the function has returned: `Do` lets the other calls go on
      rename_i hpc
      have hne : k ≠ j := by
        rintro rfl
        obtain rfl : c = w := Option.some.inj (hc.symm.trans hby.here)
        exact hpending none hpc
      have hloses := hby.others k c hc hne
      unfold Loses at hloses
      split at hloses
      · rename_i hentering
        refine ⟨k, _, by simp only [CloseOnce.step, hc, closerStep, hentering, hwins.1]; rfl, ?_⟩
        exact work_set hc rfl (by simp [hentering, CloserPc.rank])
      · rename_i hloading
        refine ⟨k, _, by simp only [CloseOnce.step, hc, closerStep, hloading, hwins.2.1]; rfl, ?_⟩
        exact work_set hc rfl (by simp [hloading, CloserPc.rank])
      · rename_i err hret
        exact absurd hret (hpending _)
      · exact hloses.elim
    · exact hwins.elim

/-- The calls that close the object can all return by themselves. -/
theorem closers_return [DecidableEq κ] (h : Agreed g s) :
    ∃ (ks : List Nat) (t : CloseOnce μ ε), exec (CloseOnce.step g) s (ks.map .closer) = some t ∧
      ∀ (j : Nat) c, t.closers[j]? = some c → ∃ r, c.pc = .returned r := by
  induction hn : work s using Nat.strongRecOn generalizing s with
  | _ n ih =>
    by_cases hall : ∀ (j : Nat) c, s.closers[j]? = some c → ∃ r, c.pc = .returned r
    · exact ⟨[], s, rfl, hall⟩
    · push Not at hall
      obtain ⟨k, c, hc, hpending⟩ := hall
      obtain ⟨j, s', hstep, hwork⟩ := h.advance hc hpending
      obtain ⟨ks, t, hrun, hret⟩ := ih _ (hn ▸ hwork) (h.step (step_cases hstep)) rfl
      exact ⟨j :: ks, t, exec_cons_some.mpr ⟨s', hstep, hrun⟩, hret⟩

end CloseOnce

end Model

end PTBridge.Container
