import PTBridge.Container.CloseOnce

/-!
# Closing a `RedialPacketConn` or a `QueuePacketConn`

Both connections are closed by a `closeWithError` of the same shape: the first call stores its error
and closes the channel `closed`, every other call returns an error. `Close` passes nil; the dial loop
of a `RedialPacketConn` passes the error of a failed dial. `ReadFrom` and `WriteTo` look at `closed`
first and report the stored error; `ReadFrom` looks at it again while it waits for a packet. All of
them may be called by any number of goroutines at once.

- `redialPacketConn` and `queuePacketConn` are the errors that the methods of the two make.
- The calls are those of `CloseOnce`. That a packet is in the queue for `ReadFrom`, or the end of a
  `WriteTo` that found the connection open, is its step `succeed`.
-/

namespace PTBridge.Snowflake.Closing

open PTBridge.Container PTBridge.Container.CloseOnce PTBridge.Transition

/-- A `net.Addr`: what its `Network` and `String` return. -/
structure NetAddr where
  network : String
  text : String
  deriving DecidableEq, Repr

/-- An `error`: its dynamic type and its text. -/
structure Err where
  type : String
  text : String
  deriving DecidableEq, Repr

/-- `errors.New`. -/
def errorsNew (text : String) : Err := ⟨"*errors.errorString", text⟩

/-- `net.OpError`. -/
structure OpError where
  op : String
  net : String
  source : Option NetAddr
  addr : NetAddr
  err : Err
  deriving DecidableEq, Repr

inductive Method where
  | readFrom
  | writeTo
  deriving DecidableEq, Repr

/-- The errors of a packet connection. -/
structure PacketConn where
  /-- What `closeWithError(nil)` stores. -/
  closedErr : Err
  /-- The error of `ReadFrom` and `WriteTo`, from the stored one. -/
  opError : Method → Err → OpError
  /-- The error of `closeWithError`, from the stored one. -/
  closeError : Err → OpError

/-- `RedialPacketConn`. -/
def redialPacketConn (localAddr remoteAddr : NetAddr) : PacketConn where
  closedErr := errorsNew "operation on closed connection"
  opError
    | .readFrom, err => ⟨"read", localAddr.network, some localAddr, remoteAddr, err⟩
    | .writeTo, err => ⟨"write", localAddr.network, some localAddr, remoteAddr, err⟩
  closeError err := ⟨"close", localAddr.network, none, localAddr, err⟩

/-- `errClosedPacketConn`. -/
def errClosedPacketConn : Err := errorsNew "operation on closed connection"

/-- `QueuePacketConn`. -/
def queuePacketConn (localAddr : NetAddr) : PacketConn where
  closedErr := errClosedPacketConn
  opError
    | .readFrom, err => ⟨"read", localAddr.network, none, localAddr, err⟩
    | .writeTo, err => ⟨"write", localAddr.network, none, localAddr, err⟩
  closeError err := ⟨"close", localAddr.network, none, localAddr, err⟩

namespace PacketConn

/-- The calls of the connection's methods. -/
def gate (c : PacketConn) : GateKind Method Err String where
  closedErr := c.closedErr
  type := Err.type
  waits
    | .readFrom => true
    | .writeTo => false

/-- What a call of `closeWithError` has returned. -/
def closeResult (c : PacketConn) (w : Closer Err) : Option (Option OpError) :=
  match w.pc with
  | .returned none => some none
  | .returned (some err) => some (some (c.closeError err))
  | _ => none

/-- The error a call of `ReadFrom` or `WriteTo` has returned. -/
def methodError (c : PacketConn) (u : User Method Err) : Option OpError :=
  match u.pc with
  | .failed err => some (c.opError u.method err)
  | _ => none

end PacketConn

/-- What the callers are told when call `k` of `closeWithError` was the first at its `Do`. -/
structure Reports (c : PacketConn) (s : CloseOnce Method Err) (k : Nat) (first : Closer Err) :
    Prop where
  here : s.closers[k]? = some first
  /-- No other call of `closeWithError` returns nil. -/
  onlyOne : ∀ j w, s.closers[j]? = some w → c.closeResult w = some none → j = k
  /-- The other calls of `closeWithError` return its error. -/
  closeErrors : ∀ (j : Nat) w e, s.closers[j]? = some w → c.closeResult w = some (some e) →
    e = c.closeError (first.given.getD c.closedErr)
  /-- So do `ReadFrom` and `WriteTo`. -/
  methodErrors : ∀ (j : Nat) u e, s.users[j]? = some u → c.methodError u = some e →
    e = c.opError u.method (first.given.getD c.closedErr)

variable {c : PacketConn} {s t : CloseOnce Method Err}

theorem closeResult_nil {w : Closer Err} (h : c.closeResult w = some none) :
    w.pc = .returned none := by
  unfold PacketConn.closeResult at h
  split at h <;> simp_all

theorem closeResult_error {w : Closer Err} {e : OpError} (h : c.closeResult w = some (some e)) :
    ∃ err, w.pc = .returned (some err) ∧ e = c.closeError err := by
  unfold PacketConn.closeResult at h
  split at h
  · simp at h
  · rename_i err hpc
    simp only [Option.some.injEq] at h
    exact ⟨err, hpc, h.symm⟩
  · simp at h

theorem closeResult_returned {w : Closer Err} {r : Option OpError} (h : c.closeResult w = some r) :
    ∃ r', w.pc = .returned r' := by
  cases r with
  | none => exact ⟨none, closeResult_nil h⟩
  | some e =>
    obtain ⟨err, hpc, -⟩ := closeResult_error h
    exact ⟨some err, hpc⟩

theorem methodError_failed {u : User Method Err} {e : OpError} (h : c.methodError u = some e) :
    ∃ err, u.pc = .failed err ∧ e = c.opError u.method err := by
  unfold PacketConn.methodError at h
  split at h
  · rename_i err hpc
    simp only [Option.some.injEq] at h
    exact ⟨err, hpc, h.symm⟩
  · simp at h

/-- The call whose function ran is the one all the reports are about. -/
theorem reports_of_closedBy (h : Agreed c.gate s) {k : Nat} {first : Closer Err}
    (hby : ClosedBy c.gate s k first) : Reports c s k first where
  here := hby.here
  onlyOne := by
    intro j w hw hret
    have hpc := closeResult_nil hret
    exact (hby.who hw (by simp [Loses, hpc])).1
  closeErrors := by
    intro j w e hw hret
    obtain ⟨err, hpc, rfl⟩ := closeResult_error hret
    obtain ⟨i, v, hby', hv, rfl⟩ := h.returned hw hpc
    obtain ⟨-, rfl⟩ := hby.who hby'.here (by simp [Loses, hv])
    rfl
  methodErrors := by
    intro j u e hu herr
    obtain ⟨err, hpc, rfl⟩ := methodError_failed herr
    have huses := h.users j u hu
    simp only [Uses, hpc] at huses
    obtain ⟨i, v, hby', hvalue⟩ := h.closed_by huses.1
    rw [huses.2, Option.some.injEq] at hvalue
    subst hvalue
    -- there is only one call that can have stored an error
    have hv : v = first := by
      refine (hby.who hby'.here ?_).2
      have hwins := hby'.wins
      unfold Wins at hwins
      unfold Loses
      split at hwins <;> simp_all
    rw [hv]
    rfl

/-- Nobody panics: not at the `Store`, not at the `close`, and not at a `Load`. -/
structure Calm (s : CloseOnce Method Err) : Prop where
  closers : ∀ (k : Nat) w, s.closers[k]? = some w → w.pc ≠ .panicked
  users : ∀ (k : Nat) u, s.users[k]? = some u → u.pc ≠ .panicked

theorem calm_of_agreed (h : Agreed c.gate s) : Calm s where
  closers := by
    intro k w hw hpc
    obtain ⟨j, v, hby⟩ := h.closedBy hw (by simp [hpc])
    have hk := hby.who hw (by simp [Loses, hpc])
    obtain ⟨-, rfl⟩ := hk
    have hwins := hby.wins
    simp [Wins, hpc] at hwins
  users := by
    intro k u hu hpc
    have huses := h.users k u hu
    simp [Uses, hpc] at huses

/-- Before the first call got past `Do`, nobody has been told anything. -/
theorem silent_of_untouched (h : Agreed c.gate s) (hfresh : Untouched s) :
    (∀ (j : Nat) w, s.closers[j]? = some w → c.closeResult w = none) ∧
      ∀ (j : Nat) u, s.users[j]? = some u → c.methodError u = none := by
  constructor
  · intro j w hw
    simp [PacketConn.closeResult, hfresh.entering j w hw]
  · intro j u hu
    have huses := h.users j u hu
    cases hpc : u.pc with
    | failed err =>
      simp only [Uses, hpc, hfresh.closed] at huses
      exact absurd huses.1 Bool.false_ne_true
    | _ => simp [PacketConn.methodError, hpc]

/-- In every run of the callers of a connection nobody panics, and all agree on what closed it:
exactly one call of `closeWithError` was the first, no other returns nil, and every error that is
reported is made from the error that this call was given. Once any call of `closeWithError` has
returned, no later call of `ReadFrom` or `WriteTo` gets past its check. -/
theorem close_agrees (c : PacketConn) (before after : List (GateAct Method Err))
    (s t : CloseOnce Method Err) (hbefore : exec (step c.gate) new before = some s)
    (hafter : exec (step c.gate) s after = some t) :
    Calm t ∧
    (((∀ (j : Nat) w, t.closers[j]? = some w → c.closeResult w = none) ∧
        ∀ (j : Nat) u, t.users[j]? = some u → c.methodError u = none) ∨
      ∃ k first, Reports c t k first) ∧
    ((∃ (k : Nat) (w : Closer Err) (r : Option OpError),
        s.closers[k]? = some w ∧ c.closeResult w = some r) →
      ∀ j u, s.users.length ≤ j → t.users[j]? = some u → u.pc ≠ .passed ∧ u.pc ≠ .succeeded) := by
  have hs := agreed_run hbefore
  have ht := agreed_run (exec_append_some.mpr ⟨s, hbefore, hafter⟩)
  refine ⟨calm_of_agreed ht, ?_, ?_⟩
  · obtain hfresh | ⟨k, first, hby⟩ := ht.closers
    · exact .inl (silent_of_untouched ht hfresh)
    · exact .inr ⟨k, first, reports_of_closedBy ht hby⟩
  · rintro ⟨k, w, r, hw, hret⟩
    obtain ⟨r', hpc⟩ := closeResult_returned hret
    exact (shutFrom_run (hs.shut hw hpc) hafter).users

/-- A dial that fails while `Close` is called and a `ReadFrom` waits: the failed dial is first. -/
def failedDial : Err := ⟨"*net.OpError", "dial tcp: connection refused"⟩

def dummyAddr : NetAddr := ⟨"dummy", "dummy"⟩

theorem close_agrees_failed_dial :
    ∃ s, exec (step (redialPacketConn dummyAddr dummyAddr).gate) new
        ([.use .readFrom, .user 0, .close (some failedDial), .close none] ++
          List.replicate 4 (.closer 0)) = some s ∧
      ∃ t, exec (step (redialPacketConn dummyAddr dummyAddr).gate) s
          [.closer 1, .closer 1, .use .writeTo, .user 0, .user 0, .user 1, .user 1] = some t ∧
        t.closers.map (redialPacketConn dummyAddr dummyAddr).closeResult =
          [some none, some (some ⟨"close", "dummy", none, dummyAddr, failedDial⟩)] ∧
        t.users.map (redialPacketConn dummyAddr dummyAddr).methodError =
          [some ⟨"read", "dummy", some dummyAddr, dummyAddr, failedDial⟩,
            some ⟨"write", "dummy", some dummyAddr, dummyAddr, failedDial⟩] ∧
        Calm t := by
  refine exec_reaches (P := fun s => (exec (step (redialPacketConn dummyAddr dummyAddr).gate) s
    [.closer 1, .closer 1, .use .writeTo, .user 0, .user 0, .user 1, .user 1]).any fun t =>
      t.closers.map (redialPacketConn dummyAddr dummyAddr).closeResult =
          [some none, some (some ⟨"close", "dummy", none, dummyAddr, failedDial⟩)] ∧
        t.users.map (redialPacketConn dummyAddr dummyAddr).methodError =
          [some ⟨"read", "dummy", some dummyAddr, dummyAddr, failedDial⟩,
            some ⟨"write", "dummy", some dummyAddr, dummyAddr, failedDial⟩]) ?_ ?_
  · decide +kernel
  · intro s hs hend
    refine exec_reaches hend fun t ht hresults => ?_
    exact ⟨hresults.1, hresults.2, (close_agrees _ _ _ s t hs ht).1⟩

/-- No call of `closeWithError` waits for ever: whatever the other methods do, the calls of
`closeWithError` can all return by their own steps. -/
theorem close_returns (c : PacketConn) (acts : List (GateAct Method Err))
    (s : CloseOnce Method Err) (hrun : exec (step c.gate) new acts = some s) :
    ∃ (ks : List Nat) (t : CloseOnce Method Err),
      exec (step c.gate) s (ks.map .closer) = some t ∧
        ∀ (j : Nat) w, t.closers[j]? = some w → c.closeResult w ≠ none := by
  obtain ⟨ks, t, hmore, hret⟩ := closers_return (agreed_run hrun)
  refine ⟨ks, t, hmore, fun j w hw => ?_⟩
  obtain ⟨r, hpc⟩ := hret j w hw
  cases r <;> simp [PacketConn.closeResult, hpc]

/-- Three calls of `Close`, one of them inside its `Do`. -/
theorem close_returns_three :
    ∃ s, exec (step (queuePacketConn dummyAddr).gate) new
        [.close none, .close none, .close none, .closer 1] = some s ∧
      ∃ (ks : List Nat) (t : CloseOnce Method Err),
        exec (step (queuePacketConn dummyAddr).gate) s (ks.map .closer) = some t ∧
          ∀ (j : Nat) w, t.closers[j]? = some w →
            (queuePacketConn dummyAddr).closeResult w ≠ none :=
  exec_reaches (P := fun _ => True) (by decide +kernel) fun s hs _ =>
    close_returns (queuePacketConn dummyAddr) _ s hs

end PTBridge.Snowflake.Closing
