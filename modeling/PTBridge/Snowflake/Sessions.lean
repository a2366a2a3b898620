import PTBridge.Snowflake.Turbotunnel
import PTBridge.Transition.Pool
import PTBridge.Transition.Run

/-!
# `smuxSessions`: the table of live sessions

Every KCP connection gets a run of `acceptSmux`: it makes a smux session, enters it into the table
under the id of its client, accepts streams until the session ends, and then deletes the entry of
the client again. A client that comes back gets a second run, which closes the session of the first
and takes over the entry; the first run notices and cleans up at some later time.

- `step` interleaves the runs; `Step` and `step_cases` list what a step can do.
- `TracksLive` says that the table has the session that was registered last, while that session
  lives.
- `Sole` is the invariant of runs in which no session is registered while the cleanup of an earlier
  one is still to come. `replaced_session_can_lose_entry` says that without this the entry can get
  lost.
-/

namespace PTBridge.Snowflake.Smux

open PTBridge.Transition

universe u

/-! ## State -/

/-- Where a run of `acceptSmux` stands. -/
inductive AcceptPc where
  /-- before `smuxMu.Lock()` -/
  | registering
  /-- in `RunStreamAcceptor` -/
  | accepting
  /-- in the deferred function, before `delete` -/
  | deleting
  /-- in the deferred function, before `sess.Close()` -/
  | closing
  /-- before the deferred `conn.Close()` -/
  | leaving
  | done
  deriving DecidableEq

/-- The `delete` of the run is still to come. -/
def AcceptPc.pending : AcceptPc → Bool
  | .accepting => true
  | .deleting => true
  | _ => false

/-- A run of `acceptSmux`, with its session. -/
structure AcceptRun (Addr : Type u) where
  /-- `conn.RemoteAddr()`, if it is a `ClientID` -/
  clientID : Option Addr
  pc : AcceptPc
  /-- The session was closed or its connection has failed: `AcceptStream` returns an error. -/
  dead : Bool
  deriving DecidableEq

/-- The sessions of the server; a session is named by its run. -/
structure Sessions (Addr : Type u) where
  smuxSessions : Addr → Option Nat
  runs : List (AcceptRun Addr)
  /-- The session that was registered last for a client. -/
  last : Addr → Option Nat

namespace Sessions

variable {Addr : Type u}

/-- `NewServer`. -/
def new : Sessions Addr := ⟨fun _ => none, [], fun _ => none⟩

def setRun (s : Sessions Addr) (k : Nat) (x : AcceptRun Addr) : Sessions Addr :=
  { s with runs := s.runs.set k x }

/-- `Close` of the session of run `k`. -/
def close (s : Sessions Addr) (k : Nat) : Sessions Addr :=
  match s.runs[k]? with
  | none => s
  | some x => s.setRun k { x with dead := true }

/-- The critical section of `acceptSmux`, without the run's own step. -/
def register [DecidableEq Addr] (s : Sessions Addr) (id : Addr) (k : Nat) : Sessions Addr :=
  let s' :=
    match s.smuxSessions id with
    | none => s
    | some old => s.close old
  { s' with
    smuxSessions := Function.update s'.smuxSessions id (some k)
    last := Function.update s'.last id (some k) }

end Sessions

/-! ## Steps -/

inductive Act (Addr : Type u) where
  /-- `acceptKCP` starts a run, and `smux.Server` returns a session or an error -/
  | accept (clientID : Option Addr) (ok : Bool)
  | register (k : Nat)
  /-- `AcceptStream` returns a stream, or a temporary error -/
  | serve (k : Nat)
  /-- the peer ends the session, or its connection fails -/
  | fail (k : Nat)
  /-- `AcceptStream` returns an error, and `RunStreamAcceptor` ends -/
  | finish (k : Nat)
  | delete (k : Nat)
  | closeSess (k : Nat)
  | closeConn (k : Nat)
  deriving DecidableEq

variable {Addr : Type u}

section Model

variable [DecidableEq Addr]

def step (s : Sessions Addr) : Act Addr → Option (Sessions Addr)
  | .accept clientID ok =>
      some { s with
        runs := s.runs ++ [⟨clientID, if ok then .registering else .leaving, false⟩] }
  | .register k =>
      match s.runs[k]? with
      | some ⟨none, .registering, dead⟩ => some (s.setRun k ⟨none, .accepting, dead⟩)
      | some ⟨some id, .registering, dead⟩ =>
          some ((s.register id k).setRun k ⟨some id, .accepting, dead⟩)
      | _ => none
  | .serve k =>
      match s.runs[k]? with
      | some ⟨_, .accepting, _⟩ => some s
      | _ => none
  | .fail k =>
      match s.runs[k]? with
      | some _ => some (s.close k)
      | none => none
  | .finish k =>
      match s.runs[k]? with
      | some ⟨clientID, .accepting, true⟩ =>
          -- the cleanup is deferred only for a client with an id
          some (s.setRun k ⟨clientID, if clientID.isSome then .deleting else .leaving, true⟩)
      | _ => none
  | .delete k =>
      match s.runs[k]? with
      | some ⟨some id, .deleting, dead⟩ =>
          some { s.setRun k ⟨some id, .closing, dead⟩ with
            smuxSessions := Function.update s.smuxSessions id none }
      | _ => none
  | .closeSess k =>
      match s.runs[k]? with
      | some ⟨clientID, .closing, _⟩ => some (s.setRun k ⟨clientID, .leaving, true⟩)
      | _ => none
  | .closeConn k =>
      match s.runs[k]? with
      | some ⟨clientID, .leaving, _⟩ => some (s.setRun k ⟨clientID, .done, true⟩)
      | _ => none

/-- What a step can do, one constructor for each branch. -/
inductive Step (s : Sessions Addr) : Act Addr → Sessions Addr → Prop where
  | accepts {clientID pc ok} (hpc : pc = .registering ∨ pc = .leaving) :
      Step s (.accept clientID ok) { s with runs := s.runs ++ [⟨clientID, pc, false⟩] }
  | registersNone {k dead} (hk : s.runs[k]? = some ⟨none, .registering, dead⟩) :
      Step s (.register k) (s.setRun k ⟨none, .accepting, dead⟩)
  | registers {k id dead} (hk : s.runs[k]? = some ⟨some id, .registering, dead⟩) :
      Step s (.register k) ((s.register id k).setRun k ⟨some id, .accepting, dead⟩)
  | serves {k} : Step s (.serve k) s
  | fails {k} : Step s (.fail k) (s.close k)
  | finishes {k id} (hk : s.runs[k]? = some ⟨some id, .accepting, true⟩) :
      Step s (.finish k) (s.setRun k ⟨some id, .deleting, true⟩)
  | finishesNone {k} (hk : s.runs[k]? = some ⟨none, .accepting, true⟩) :
      Step s (.finish k) (s.setRun k ⟨none, .leaving, true⟩)
  | deletes {k id dead} (hk : s.runs[k]? = some ⟨some id, .deleting, dead⟩) :
      Step s (.delete k)
        { s.setRun k ⟨some id, .closing, dead⟩ with
          smuxSessions := Function.update s.smuxSessions id none }
  | closesSess {k clientID dead} (hk : s.runs[k]? = some ⟨clientID, .closing, dead⟩) :
      Step s (.closeSess k) (s.setRun k ⟨clientID, .leaving, true⟩)
  | closesConn {k clientID dead} (hk : s.runs[k]? = some ⟨clientID, .leaving, dead⟩) :
      Step s (.closeConn k) (s.setRun k ⟨clientID, .done, true⟩)

theorem step_cases {s s' : Sessions Addr} {a : Act Addr} (h : step s a = some s') :
    Step s a s' := by
  cases a with
  | accept clientID ok =>
    cases h
    apply Step.accepts
    cases ok <;> simp
  | register k =>
    simp only [step] at h
    split at h
    · rename_i dead hk
      cases h
      exact .registersNone hk
    · rename_i id dead hk
      cases h
      exact .registers hk
    · cases h
  | serve k =>
    simp only [step] at h
    split at h
    · cases h
      exact .serves
    · cases h
  | fail k =>
    simp only [step] at h
    split at h
    · cases h
      exact .fails
    · cases h
  | finish k =>
    simp only [step] at h
    split at h
    · rename_i clientID hk
      cases clientID with
      | none =>
        cases h
        exact .finishesNone hk
      | some id =>
        cases h
        exact .finishes hk
    · cases h
  | delete k =>
    simp only [step] at h
    split at h
    · rename_i id dead hk
      cases h
      exact .deletes hk
    · cases h
  | closeSess k =>
    simp only [step] at h
    split at h
    · rename_i clientID dead hk
      cases h
      exact .closesSess hk
    · cases h
  | closeConn k =>
    simp only [step] at h
    split at h
    · rename_i clientID dead hk
      cases h
      exact .closesConn hk
    · cases h

end Model

/-! ## Closing a session -/

/-- A session that is closed keeps its client and its place in `acceptSmux`. -/
theorem close_origin {s : Sessions Addr} {j k : Nat} {x : AcceptRun Addr}
    (h : (s.close j).runs[k]? = some x) :
    ∃ y, s.runs[k]? = some y ∧ y.clientID = x.clientID ∧ y.pc = x.pc := by
  unfold Sessions.close at h
  split at h
  · exact ⟨x, h, rfl, rfl⟩
  · rename_i z hz
    rcases pool_set_some h with ⟨rfl, rfl⟩ | ⟨-, hold⟩
    · exact ⟨z, hz, rfl, rfl⟩
    · exact ⟨x, hold, rfl, rfl⟩

theorem close_keeps {s : Sessions Addr} {j k : Nat} {x : AcceptRun Addr}
    (h : s.runs[k]? = some x) : ∃ dead, (s.close j).runs[k]? = some { x with dead := dead } := by
  unfold Sessions.close
  split
  · exact ⟨x.dead, h⟩
  · rename_i z hz
    by_cases hjk : j = k
    · subst hjk
      rw [h] at hz
      cases hz
      exact ⟨true, pool_set_self h⟩
    · refine ⟨x.dead, ?_⟩
      change (s.runs.set j _)[k]? = _
      rw [List.getElem?_set_ne hjk, h]

@[simp] theorem close_smuxSessions (s : Sessions Addr) (k : Nat) :
    (s.close k).smuxSessions = s.smuxSessions := by
  unfold Sessions.close
  split <;> rfl

@[simp] theorem close_last (s : Sessions Addr) (k : Nat) : (s.close k).last = s.last := by
  unfold Sessions.close
  split <;> rfl

/-! ## The table and the live session -/

/-- While the session that was registered last for a client is being served, the table has it. -/
def TracksLive (s : Sessions Addr) : Prop :=
  ∀ (id : Addr) (k : Nat) (x : AcceptRun Addr), s.last id = some k → s.runs[k]? = some x →
    x.pc = .accepting → s.smuxSessions id = some k

/-- A session is registered for a client only if the `delete` of every earlier session of the
client has been run. -/
def RegistersAlone (s : Sessions Addr) : Act Addr → Prop
  | .register k => ∀ x ∈ s.runs[k]?, ∀ y ∈ s.runs, y.clientID = x.clientID →
      x.clientID.isSome → y.pc.pending = false
  | _ => True

/-- At most one session of a client still has its `delete` to run, and the table has that one. -/
structure Sole (s : Sessions Addr) : Prop where
  entry : ∀ (k : Nat) (x : AcceptRun Addr) (id : Addr), s.runs[k]? = some x →
    x.clientID = some id → x.pc.pending = true → s.smuxSessions id = some k
  last : ∀ (id : Addr) (k : Nat), s.last id = some k →
    ∃ x, s.runs[k]? = some x ∧ x.clientID = some id

theorem sole_new : Sole (.new : Sessions Addr) where
  entry _ _ _ h := by cases h
  last _ _ h := by cases h

/-- A run that moves without touching the table and keeps its client, and gains no `delete`. -/
theorem Sole.setRun {s : Sessions Addr} {k : Nat} {x x' : AcceptRun Addr} (h : Sole s)
    (hk : s.runs[k]? = some x) (hid : x'.clientID = x.clientID)
    (hpc : x'.clientID.isSome → x'.pc.pending = true → x.pc.pending = true) :
    Sole (s.setRun k x') where
  entry j y id hj hy hpending := by
    rcases pool_set_some hj with ⟨rfl, rfl⟩ | ⟨-, hold⟩
    · apply h.entry j x id hk
      · rw [← hid, hy]
      · exact hpc (by rw [hy]; rfl) hpending
    · exact h.entry j y id hold hy hpending
  last id j hlast := by
    obtain ⟨y, hj, hy⟩ := h.last id j hlast
    by_cases hjk : j = k
    · subst hjk
      rw [hk] at hj
      cases hj
      exact ⟨x', pool_set_self hk, hid.trans hy⟩
    · refine ⟨y, ?_, hy⟩
      change (s.runs.set k x')[j]? = _
      rw [List.getElem?_set_ne (Ne.symm hjk), hj]

theorem Sole.close {s : Sessions Addr} (h : Sole s) (k : Nat) : Sole (s.close k) := by
  unfold Sessions.close
  split
  · exact h
  · rename_i x hk
    exact h.setRun hk rfl fun _ hp => hp

section Register

variable [DecidableEq Addr]

/-- Registering closes the session it replaces, and touches no other run. -/
theorem register_spec (s : Sessions Addr) (id : Addr) (k : Nat) :
    (s.register id k).smuxSessions = Function.update s.smuxSessions id (some k) ∧
      (s.register id k).last = Function.update s.last id (some k) ∧
      ((s.register id k).runs = s.runs ∨ ∃ old, (s.register id k).runs = (s.close old).runs) := by
  unfold Sessions.register
  split
  · exact ⟨rfl, rfl, Or.inl rfl⟩
  · rename_i old hold
    exact ⟨by simp, by simp, Or.inr ⟨old, rfl⟩⟩

theorem register_origin {s : Sessions Addr} {id : Addr} {j k : Nat} {x : AcceptRun Addr}
    (h : (s.register id k).runs[j]? = some x) :
    ∃ y, s.runs[j]? = some y ∧ y.clientID = x.clientID ∧ y.pc = x.pc := by
  obtain ⟨-, -, hsame | ⟨old, hclosed⟩⟩ := register_spec s id k
  · rw [hsame] at h
    exact ⟨x, h, rfl, rfl⟩
  · rw [hclosed] at h
    exact close_origin h

theorem register_keeps {s : Sessions Addr} (id : Addr) {j : Nat} (k : Nat) {x : AcceptRun Addr}
    (h : s.runs[j]? = some x) :
    ∃ dead, (s.register id k).runs[j]? = some { x with dead := dead } := by
  obtain ⟨-, -, hsame | ⟨old, hclosed⟩⟩ := register_spec s id k
  · rw [hsame]
    exact ⟨x.dead, h⟩
  · rw [hclosed]
    exact close_keeps h

/-- The critical section of `acceptSmux` and the step to `RunStreamAcceptor`. -/
theorem Sole.register {s : Sessions Addr} {k : Nat} {id : Addr} {dead : Bool} (h : Sole s)
    (hk : s.runs[k]? = some ⟨some id, .registering, dead⟩)
    (halone : ∀ y ∈ s.runs, y.clientID = some id → y.pc.pending = false) :
    Sole ((s.register id k).setRun k ⟨some id, .accepting, dead⟩) := by
  obtain ⟨htable, hlast, -⟩ := register_spec s id k
  obtain ⟨dead', hk'⟩ := register_keeps id k hk
  constructor
  · intro j y id' hj hy hpending
    change (s.register id k).smuxSessions id' = some j
    rw [htable]
    rcases pool_set_some hj with ⟨rfl, rfl⟩ | ⟨-, hold⟩
    · cases hy
      exact Function.update_self _ _ _
    · -- another session that is still in place is one of another client
      obtain ⟨z, hz, hzid, hzpc⟩ := register_origin hold
      rw [hy] at hzid
      rw [← hzpc] at hpending
      have hne : id' ≠ id := by
        rintro rfl
        rw [halone z (List.mem_of_getElem? hz) hzid] at hpending
        cases hpending
      rw [Function.update_of_ne hne]
      exact h.entry j z id' hz hzid hpending
  · intro id' j hj
    change (s.register id k).last id' = some j at hj
    rw [hlast] at hj
    by_cases hid : id' = id
    · subst hid
      rw [Function.update_self] at hj
      cases hj
      exact ⟨_, pool_set_self hk', rfl⟩
    · rw [Function.update_of_ne hid] at hj
      obtain ⟨x, hx, hxid⟩ := h.last id' j hj
      obtain ⟨dead'', hx'⟩ := register_keeps id k hx
      by_cases hjk : j = k
      · subst hjk
        rw [hk] at hx
        cases hx
        cases hxid
        exact absurd rfl hid
      · refine ⟨{ x with dead := dead'' }, ?_, hxid⟩
        change ((s.register id k).runs.set k _)[j]? = _
        rw [List.getElem?_set_ne (Ne.symm hjk), hx']

/-- The `delete` of a run finds its own entry. -/
theorem Sole.delete {s : Sessions Addr} {k : Nat} {id : Addr} {dead : Bool} (h : Sole s)
    (hk : s.runs[k]? = some ⟨some id, .deleting, dead⟩) :
    Sole { s.setRun k ⟨some id, .closing, dead⟩ with
      smuxSessions := Function.update s.smuxSessions id none } := by
  have hmoved : Sole (s.setRun k ⟨some id, .closing, dead⟩) := h.setRun hk rfl nofun
  refine ⟨fun j y id' hj hy hpending => ?_, hmoved.last⟩
  have hentry := hmoved.entry j y id' hj hy hpending
  have hne : id' ≠ id := by
    rintro rfl
    -- then both runs have the entry, and this one has just left
    have hown := h.entry k _ id' hk rfl rfl
    obtain rfl : j = k := Option.some.inj (hentry.symm.trans hown)
    rcases pool_set_some hj with ⟨-, rfl⟩ | ⟨hjk, -⟩
    · cases hpending
    · exact hjk rfl
  change Function.update s.smuxSessions id none id' = some j
  rw [Function.update_of_ne hne]
  exact hentry

theorem sole_step {s s' : Sessions Addr} {a : Act Addr} (h : Sole s) (halone : RegistersAlone s a)
    (hstep : step s a = some s') : Sole s' := by
  cases step_cases hstep with
  | @accepts clientID pc ok hpc =>
    constructor
    · intro j y id hj hy hpending
      rcases pool_snoc_some hj with hold | ⟨-, rfl⟩
      · exact h.entry j y id hold hy hpending
      · rcases hpc with rfl | rfl <;> cases hpending
    · intro id j hj
      obtain ⟨x, hx, hxid⟩ := h.last id j hj
      exact ⟨x, pool_snoc_old hx, hxid⟩
  | registersNone hk => exact h.setRun hk rfl nofun
  | registers hk =>
    apply h.register hk
    intro y hy hid
    exact halone _ hk y hy hid rfl
  | serves => exact h
  | fails => exact h.close _
  | finishes hk => exact h.setRun hk rfl fun _ _ => rfl
  | finishesNone hk => exact h.setRun hk rfl nofun
  | deletes hk => exact h.delete hk
  | closesSess hk => exact h.setRun hk rfl nofun
  | closesConn hk => exact h.setRun hk rfl nofun

/-- If a session is registered for a client only after the cleanup of the client's earlier sessions
was run, the table has the session that was registered last for as long as it is served. -/
theorem sessions_track_live (acts : List (Act Addr)) (s : Sessions Addr)
    (halone : Meets step RegistersAlone .new acts) (hrun : exec step .new acts = some s) :
    TracksLive s := by
  have hsole : Sole s :=
    exec_invariant (fun _ _ _ h ha hs => sole_step h ha hs) acts _ _ sole_new halone hrun
  intro id k x hlast hk hpc
  obtain ⟨y, hy, hid⟩ := hsole.last id k hlast
  rw [hk] at hy
  cases hy
  apply hsole.entry k x id hk hid
  rw [hpc]
  rfl

instance (s : Sessions Addr) : ∀ a, Decidable (RegistersAlone s a)
  | .accept _ _ | .serve _ | .fail _ | .finish _ | .delete _ | .closeSess _ | .closeConn _ =>
      isTrue trivial
  | .register k =>
      inferInstanceAs (Decidable (∀ x ∈ s.runs[k]?, ∀ y ∈ s.runs, y.clientID = x.clientID →
        x.clientID.isSome → y.pc.pending = false))

end Register

/-- The session of run `k` fails, and the run gets to the end of its cleanup. -/
def ends (k : Nat) : List (Act Addr) :=
  [.fail k, .finish k, .delete k, .closeSess k, .closeConn k]

/-- Client 7 comes back after the cleanup of its first session. -/
theorem sessions_track_live_again :
    ∃ s : Sessions Nat,
      exec step .new ([.accept (some 7) true, .register 0] ++ ends 0 ++
        [.accept (some 7) true, .register 1, .serve 1]) = some s ∧
      s.smuxSessions 7 = some 1 ∧ TracksLive s := by
  apply exec_reaches (P := fun s : Sessions Nat => s.smuxSessions 7 = some 1)
  · decide +kernel
  · intro s hs hentry
    exact ⟨hentry, sessions_track_live _ s (by decide +kernel) hs⟩

/-- Client 7 comes back while its first session is served. That session is closed, and its cleanup
deletes the entry of the second session, which is alive. -/
theorem old_cleanup_drops_live_session :
    ∃ s : Sessions Nat,
      exec step .new [.accept (some 7) true, .register 0, .accept (some 7) true, .register 1,
        .finish 0, .delete 0] = some s ∧
      s.last 7 = some 1 ∧ s.runs[1]? = some ⟨some 7, .accepting, false⟩ ∧
      s.smuxSessions 7 = none ∧ ¬ TracksLive s := by
  apply exec_reaches (P := fun s : Sessions Nat => s.last 7 = some 1 ∧
    s.runs[1]? = some ⟨some 7, .accepting, false⟩ ∧ s.smuxSessions 7 = none)
  · decide +kernel
  · rintro s hs ⟨hlast, hk, hnone⟩
    refine ⟨hlast, hk, hnone, fun htracks => ?_⟩
    have hentry := htracks 7 1 _ hlast hk rfl
    rw [hnone] at hentry
    cases hentry

/-! ## The condition is needed -/

section Needed

variable [DecidableEq Addr]

/-- A run in its cleanup deletes the entry of its client, whosoever it is. -/
theorem delete_loses_entry {s : Sessions Addr} {j k : Nat} {id : Addr} {dead : Bool}
    {x : AcceptRun Addr} (hj : s.runs[j]? = some ⟨some id, .deleting, dead⟩) (hne : k ≠ j)
    (hlast : s.last id = some k) (hk : s.runs[k]? = some x) (hpc : x.pc = .accepting) :
    ∃ s', step s (.delete j) = some s' ∧ ¬ TracksLive s' := by
  refine ⟨{ s.setRun j ⟨some id, .closing, dead⟩ with
    smuxSessions := Function.update s.smuxSessions id none }, by simp only [step, hj], ?_⟩
  intro htracks
  have hk' : (s.runs.set j ⟨some id, .closing, dead⟩)[k]? = some x := by
    rw [List.getElem?_set_ne hne.symm, hk]
  have hentry := htracks id k x hlast hk' hpc
  change Function.update s.smuxSessions id none id = some k at hentry
  rw [Function.update_self] at hentry
  cases hentry

/-- While the `delete` of another session of the client is still to come, the session that was
registered last can lose its entry. -/
theorem pending_delete_can_lose_entry {s : Sessions Addr} {j k : Nat} {id : Addr}
    {x y : AcceptRun Addr} (hlast : s.last id = some k) (hk : s.runs[k]? = some x)
    (hpc : x.pc = .accepting) (hj : s.runs[j]? = some y) (hne : k ≠ j)
    (hid : y.clientID = some id) (hpending : y.pc.pending = true) :
    ∃ acts s', exec step s acts = some s' ∧ ¬ TracksLive s' := by
  obtain ⟨clientID, pc, dead⟩ := y
  cases hid
  cases pc with
  | registering | closing | leaving | done => cases hpending
  | deleting =>
    obtain ⟨s', hdel, hlost⟩ := delete_loses_entry hj hne hlast hk hpc
    exact ⟨[.delete j], s', exec_cons_some.mpr ⟨s', hdel, rfl⟩, hlost⟩
  | accepting =>
    -- the session is closed or fails, and its run leaves the loop
    let s₁ := s.setRun j ⟨some id, .accepting, true⟩
    let s₂ := s₁.setRun j ⟨some id, .deleting, true⟩
    have hfail : step s (.fail j) = some s₁ := by
      simp only [step, Sessions.close, hj]
      rfl
    have hj₁ : s₁.runs[j]? = some ⟨some id, .accepting, true⟩ := pool_set_self hj
    have hfinish : step s₁ (.finish j) = some s₂ := by
      simp only [step, hj₁]
      rfl
    have hk₂ : s₂.runs[k]? = some x := by
      change ((s.runs.set j _).set j _)[k]? = _
      rw [List.getElem?_set_ne hne.symm, List.getElem?_set_ne hne.symm, hk]
    obtain ⟨s', hdel, hlost⟩ := delete_loses_entry (s := s₂) (pool_set_self hj₁) hne hlast hk₂ hpc
    refine ⟨[.fail j, .finish j, .delete j], s', ?_, hlost⟩
    exact exec_cons_some.mpr ⟨s₁, hfail, exec_cons_some.mpr ⟨s₂, hfinish,
      exec_cons_some.mpr ⟨s', hdel, rfl⟩⟩⟩

/-- Every registration that does not meet the condition can be followed by the loss of its entry. -/
theorem replaced_session_can_lose_entry {s s' : Sessions Addr} {k : Nat}
    (halone : ¬ RegistersAlone s (.register k)) (hstep : step s (.register k) = some s') :
    ∃ acts s'', exec step s' acts = some s'' ∧ ¬ TracksLive s'' := by
  simp only [RegistersAlone, not_forall] at halone
  obtain ⟨x, hx, y, hy, hyid, hsome, hpending⟩ := halone
  obtain ⟨j, hj⟩ := List.mem_iff_getElem?.mp hy
  cases step_cases hstep with
  | registersNone hk =>
    rw [Option.mem_def, hk] at hx
    cases hx
    cases hsome
  | @registers _ id dead hk =>
    rw [Option.mem_def, hk] at hx
    cases hx
    have hne : k ≠ j := by
      rintro rfl
      rw [hk] at hj
      cases hj
      exact hpending rfl
    obtain ⟨-, hlast, -⟩ := register_spec s id k
    obtain ⟨dead₁, hk₁⟩ := register_keeps id k hk
    obtain ⟨dead₂, hj₂⟩ := register_keeps id k hj
    have hlast' : (s.register id k).last id = some k := by
      rw [hlast, Function.update_self]
    have hj' : ((s.register id k).setRun k ⟨some id, .accepting, dead⟩).runs[j]? =
        some { y with dead := dead₂ } := by
      change ((s.register id k).runs.set k _)[j]? = _
      rw [List.getElem?_set_ne hne, hj₂]
    exact pending_delete_can_lose_entry hlast' (pool_set_self hk₁) rfl hj' hne hyid
      (Bool.eq_true_of_not_eq_false hpending)

end Needed

end PTBridge.Snowflake.Smux
