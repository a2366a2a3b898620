import PTBridge.Stream.Bytes

/-!
# `io.Copy` between two connections

A call of `io.Copy(dst, src)` together with the bytes it moves. The source's peer sends bytes until
it ends its stream; the loop reads some of them, writes what it has read to the destination, and
returns at the end of the stream or at the first error. Either connection can be closed under the
loop, which then gets an error that says so.

- `Copy.step` is one `Read`, one `Write`, or a move of the peer. `Copy.Step` and `Copy.step_cases`
  list what it can do.
- `Copy.Accounts` says where the bytes are that the peer has sent: a call that returns nil has
  written all of them, and any other has written the first of them.
-/

namespace PTBridge.Stream

/-- An error of a connection other than `io.EOF`. -/
inductive ConnError where
  /-- the connection was closed on this side -/
  | closed
  | other (code : Nat)
  deriving DecidableEq

/-- The error that comes with the bytes of a `Read`. -/
inductive ReadEnd where
  /-- nil -/
  | more
  | eof
  | failed (err : ConnError)
  deriving DecidableEq

/-- The errors that `io.Copy` returns. -/
inductive CopyError where
  | conn (err : ConnError)
  | shortWrite
  deriving DecidableEq

/-- Where a call of `io.Copy` stands. -/
inductive CopyPc where
  /-- before `src.Read` -/
  | reading
  /-- before `dst.Write(buf)`; `r` came with the bytes -/
  | writing (buf : Bytes) (r : ReadEnd)
  | returned (err : Option CopyError)
  deriving DecidableEq

/-- A call of `io.Copy`. -/
structure Copy where
  /-- What was read. -/
  got : Bytes
  /-- What the source's peer has sent and was not read. -/
  inbox : Bytes
  /-- The peer has ended its stream. -/
  ended : Bool
  /-- What was written. -/
  written : Bytes
  pc : CopyPc
  deriving DecidableEq

inductive CopyMove where
  /-- the peer sends bytes -/
  | send (data : Bytes)
  /-- the peer ends its stream -/
  | finish
  /-- `Read` returns `n` bytes -/
  | read (n : Nat) (r : ReadEnd)
  /-- `Write` returns `n` -/
  | write (n : Nat) (err : Option ConnError)
  deriving DecidableEq

namespace Copy

def new : Copy := ⟨[], [], false, [], .reading⟩

/-- All that the peer has sent. -/
def sent (c : Copy) : Bytes := c.got ++ c.inbox

/-- The buffer of `io.Copy`. -/
def copyBuffer : Nat := 32 * 1024

/-- What the loop does when the bytes of a `Read` are written. -/
def afterRead : ReadEnd → CopyPc
  | .more => .reading
  | .eof => .returned none
  | .failed err => .returned (some (.conn err))

/-- What an open or closed source can answer to a `Read`: the end of the stream comes with its last
bytes, and only a closed connection says that it is closed. -/
def Answers (srcClosed : Bool) (c : Copy) (n : Nat) (r : ReadEnd) : Prop :=
  if srcClosed then n = 0 ∧ r = .failed .closed
  else n ≤ copyBuffer ∧ n ≤ c.inbox.length ∧ r ≠ .failed .closed ∧
    (r = .eof → c.ended = true ∧ n = c.inbox.length)

instance (srcClosed : Bool) (c : Copy) (n : Nat) (r : ReadEnd) :
    Decidable (Answers srcClosed c n r) :=
  inferInstanceAs (Decidable (if srcClosed then _ else _))

/-- What an open or closed destination can answer to a `Write` of `buf`. -/
def Takes (dstClosed : Bool) (buf : Bytes) (n : Nat) (err : Option ConnError) : Prop :=
  if dstClosed then n = 0 ∧ err = some .closed else n ≤ buf.length ∧ err ≠ some .closed

instance (dstClosed : Bool) (buf : Bytes) (n : Nat) (err : Option ConnError) :
    Decidable (Takes dstClosed buf n err) :=
  inferInstanceAs (Decidable (if dstClosed then _ else _))

/-- What the loop does after a `Write` of `buf`. -/
def afterWrite (buf : Bytes) (r : ReadEnd) (n : Nat) : Option ConnError → CopyPc
  | some err => .returned (some (.conn err))
  | none => if n ≠ buf.length then .returned (some .shortWrite) else afterRead r

theorem afterWrite_all {buf : Bytes} {n : Nat} (r : ReadEnd) (hn : n = buf.length) :
    afterWrite buf r n none = afterRead r := by
  simp [afterWrite, hn]

theorem afterWrite_short {buf : Bytes} {n : Nat} (r : ReadEnd) (hn : n ≠ buf.length) :
    afterWrite buf r n none = .returned (some .shortWrite) := by
  simp [afterWrite, hn]

def step (srcClosed dstClosed : Bool) (c : Copy) (m : CopyMove) : Option Copy :=
  match m, c.pc with
  | .send data, _ => if c.ended then none else some { c with inbox := c.inbox ++ data }
  | .finish, _ => some { c with ended := true }
  | .read n r, .reading =>
      if Answers srcClosed c n r then
        let data := c.inbox.take n
        some { c with
          got := c.got ++ data
          inbox := c.inbox.drop n
          pc := if data = [] then afterRead r else .writing data r }
      else none
  | .write n err, .writing buf r =>
      if Takes dstClosed buf n err then
        some { c with written := c.written ++ buf.take n, pc := afterWrite buf r n err }
      else none
  | _, _ => none

/-! ## What a step can do -/

/-- The steps, one case for each kind of move. -/
inductive Step (srcClosed dstClosed : Bool) (c : Copy) : CopyMove → Copy → Prop where
  | sent {data} (hended : c.ended = false) :
      Step srcClosed dstClosed c (.send data) { c with inbox := c.inbox ++ data }
  | finished : Step srcClosed dstClosed c .finish { c with ended := true }
  | readNone {n r} (hpc : c.pc = .reading) (hans : Answers srcClosed c n r)
      (hdata : c.inbox.take n = []) :
      Step srcClosed dstClosed c (.read n r)
        { c with got := c.got ++ c.inbox.take n, inbox := c.inbox.drop n, pc := afterRead r }
  | readSome {n r} (hpc : c.pc = .reading) (hans : Answers srcClosed c n r)
      (hdata : c.inbox.take n ≠ []) :
      Step srcClosed dstClosed c (.read n r)
        { c with
          got := c.got ++ c.inbox.take n
          inbox := c.inbox.drop n
          pc := .writing (c.inbox.take n) r }
  | wrote {buf r n err} (hpc : c.pc = .writing buf r) (htakes : Takes dstClosed buf n err) :
      Step srcClosed dstClosed c (.write n err)
        { c with written := c.written ++ buf.take n, pc := afterWrite buf r n err }

variable {srcClosed dstClosed : Bool} {c c' : Copy} {m : CopyMove}

theorem step_cases (h : step srcClosed dstClosed c m = some c') :
    Step srcClosed dstClosed c m c' := by
  unfold step at h
  split at h
  · split at h
    · cases h
    · rename_i hended
      cases h
      exact .sent (Bool.eq_false_iff.mpr hended)
  · cases h
    exact .finished
  · rename_i hpc
    split at h
    · rename_i hans
      dsimp only at h
      cases h
      split
      · rename_i hdata
        exact .readNone hpc hans hdata
      · rename_i hdata
        exact .readSome hpc hans hdata
    · cases h
  · rename_i hpc
    split at h
    · rename_i htakes
      cases h
      exact .wrote hpc htakes
    · cases h
  · cases h

/-- A call that has returned stays where it is. -/
theorem returned_step {err : Option CopyError} (hpc : c.pc = .returned err)
    (hstep : Step srcClosed dstClosed c m c') : c'.pc = .returned err := by
  cases hstep with
  | sent => exact hpc
  | finished => exact hpc
  | readNone hreading => simp [hpc] at hreading
  | readSome hreading => simp [hpc] at hreading
  | wrote hwriting => simp [hpc] at hwriting

/-! ## Between open connections -/

/-- The call has not met a closed connection. -/
def Undisturbed (c : Copy) : Prop :=
  match c.pc with
  | .reading => True
  | .writing _ r => r ≠ .failed .closed
  | .returned err => err ≠ some (.conn .closed)

theorem undisturbed_new : Undisturbed new := trivial

theorem undisturbed_afterRead {r : ReadEnd} (hr : r ≠ .failed .closed)
    (hpc : c.pc = afterRead r) : Undisturbed c := by
  rw [Undisturbed, hpc]
  cases r with
  | more => exact trivial
  | eof => exact nofun
  | failed err =>
    intro heq
    apply hr
    simpa using heq

theorem undisturbed_step (h : Undisturbed c) (hstep : Step false false c m c') :
    Undisturbed c' := by
  cases hstep with
  | sent => exact h
  | finished => exact h
  | readNone hpc hans => exact undisturbed_afterRead hans.2.2.1 rfl
  | readSome hpc hans => exact hans.2.2.1
  | @wrote buf r n err hpc htakes =>
    rw [Undisturbed, hpc] at h
    cases err with
    | some err =>
      intro heq
      apply htakes.2
      simpa using heq
    | none =>
      by_cases hn : n = buf.length
      · exact undisturbed_afterRead h (afterWrite_all r hn)
      · rw [Undisturbed, afterWrite_short r hn]
        exact nofun

/-! ## Where the bytes are -/

/-- The end of the stream was seen: there is nothing left to read. -/
def SawEnd (c : Copy) : Prop := c.ended = true ∧ c.inbox = []

/-- What was read is written or about to be, and a call that returns nil has written it all. -/
def Accounts (c : Copy) : Prop :=
  match c.pc with
  | .reading => c.written = c.got
  | .writing buf r => c.written ++ buf = c.got ∧ (r = .eof → SawEnd c)
  | .returned none => c.written = c.got ∧ SawEnd c
  | .returned (some _) => c.written <+: c.got

theorem accounts_new : Accounts new := rfl

/-- What was written is the first part of what was sent. -/
theorem Accounts.in_order (h : Accounts c) : c.written <+: c.sent := by
  have hgot : c.written <+: c.got := by
    unfold Accounts at h
    split at h
    · exact h ▸ List.prefix_rfl
    · exact ⟨_, h.1⟩
    · exact h.1 ▸ List.prefix_rfl
    · exact h
  exact hgot.trans (List.prefix_append _ _)

/-- A call that has returned nil has written all that was sent. -/
theorem Accounts.complete (h : Accounts c) (hpc : c.pc = .returned none) :
    c.ended = true ∧ c.written = c.sent := by
  rw [Accounts, hpc] at h
  obtain ⟨hwritten, hended, hinbox⟩ := h
  refine ⟨hended, ?_⟩
  rw [sent, hinbox, List.append_nil, hwritten]

/-- The peer moves. -/
theorem Accounts.peer (h : Accounts c) {c' : Copy} (hpc : c'.pc = c.pc) (hgot : c'.got = c.got)
    (hwritten : c'.written = c.written) (hend : SawEnd c → SawEnd c') : Accounts c' := by
  unfold Accounts at h ⊢
  rw [hpc, hgot, hwritten]
  split at h
  · exact h
  · exact ⟨h.1, fun hr => hend (h.2 hr)⟩
  · exact ⟨h.1, hend h.2⟩
  · exact h

/-- All that was read is written, and the loop goes on as the error of the `Read` says. -/
theorem accounts_afterRead {r : ReadEnd} (hwritten : c.written = c.got) (hend : r = .eof → SawEnd c)
    (hpc : c.pc = afterRead r) : Accounts c := by
  rw [Accounts, hpc]
  cases r with
  | more => exact hwritten
  | eof => exact ⟨hwritten, hend rfl⟩
  | failed err => exact hwritten ▸ List.prefix_rfl

/-- An answer with the end of the stream leaves nothing to read. -/
theorem Answers.sawEnd {n : Nat} {r : ReadEnd} (hans : Answers srcClosed c n r) (hr : r = .eof) :
    c.ended = true ∧ c.inbox.drop n = [] := by
  subst hr
  unfold Answers at hans
  split at hans
  · cases hans.2
  · obtain ⟨-, -, -, hend⟩ := hans
    obtain ⟨hended, hn⟩ := hend rfl
    refine ⟨hended, ?_⟩
    rw [hn, List.drop_length]

theorem accounts_step (h : Accounts c) (hstep : Step srcClosed dstClosed c m c') :
    Accounts c' := by
  cases hstep with
  | sent hended =>
    refine h.peer rfl rfl rfl fun hend => ?_
    rw [hend.1] at hended
    cases hended
  | finished => exact h.peer rfl rfl rfl fun hend => ⟨rfl, hend.2⟩
  | readNone hpc hans hdata =>
    rw [Accounts, hpc] at h
    refine accounts_afterRead ?_ hans.sawEnd rfl
    simp [hdata, h]
  | readSome hpc hans hdata =>
    rw [Accounts, hpc] at h
    refine ⟨?_, hans.sawEnd⟩
    rw [h]
  | @wrote buf r n err hpc htakes =>
    rw [Accounts, hpc] at h
    obtain ⟨hbuf, hend⟩ := h
    have hpart : c.written ++ buf.take n <+: c.got := by
      rw [← hbuf]
      exact (List.prefix_append_right_inj _).mpr (List.take_prefix n buf)
    cases err with
    | some err => exact hpart
    | none =>
      by_cases hn : n = buf.length
      · refine accounts_afterRead ?_ hend (afterWrite_all r hn)
        simp [hn, hbuf]
      · rw [Accounts, afterWrite_short r hn]
        exact hpart

end Copy

end PTBridge.Stream
