import PTBridge.Dpi.Client.BaseURL
import PTBridge.Transition.Pool

/-!
# The ids of a `Transport`

`NextConnID` is called under `connIDMu` by whoever opens a connection, and by every `Connect` again
for each redirect that it follows. The calls are numbered in the order in which they hold the lock.

- `Draws` is a `Transport` with the calls of `Connect` that are in progress and the ids drawn so
  far; a run of its `step` is any interleaving of calls of `Connect` and of `NextConnID` itself.
- `idAt k` is the id of the `k`-th call: `1 + k % (2^32 - 1)`.
- `connectState_run`: the whole call `connectState` is such a run.
- `connIDs_distinct`: no id is zero, and two ids that are equal are at least `2^32 - 1` calls apart.
-/

namespace PTBridge.Dpi

open PTBridge.Transition

/-! ## Callers -/

/-- Where a call of `Connect` stands. -/
inductive ConnectPc where
  /-- before `NextConnID`, for the first time or after a redirect -/
  | drawing
  /-- its request is out -/
  | asking (connID : UInt32)
  | returned (result : Except TransportError UInt32)

/-- What a call of `Connect` does after an outcome of its round. -/
def ConnectOutcome.pc : ConnectOutcome → ConnectPc
  | .returned connID => .returned (.ok connID)
  | .failed err => .returned (.error err)
  | .redirected => .drawing

/-- A `Transport`, the calls of `Connect` on it, and the ids that `NextConnID` has returned. -/
structure Draws where
  transport : Transport
  connects : List ConnectPc
  drawn : List UInt32

namespace Draws

inductive Act where
  /-- somebody calls `NextConnID` -/
  | nextConnID
  /-- somebody calls `Connect` -/
  | connect
  /-- call `k` of `Connect` draws its id -/
  | draw (k : Nat)
  /-- call `k` gets the answer to its request, or fails to encrypt or send it -/
  | answer (k : Nat) (answer : Except TransportError Response)

def new (t : Transport) : Draws := ⟨t, [], []⟩

/-- One call of `NextConnID`. -/
def next (s : Draws) : Draws :=
  { s with
    transport := s.transport.nextConnID.2
    drawn := s.drawn ++ [s.transport.nextConnID.1] }

def setConnect (s : Draws) (k : Nat) (pc : ConnectPc) : Draws :=
  { s with connects := s.connects.set k pc }

def step (s : Draws) : Act → Option Draws
  | .nextConnID => some s.next
  | .connect => some { s with connects := s.connects ++ [.drawing] }
  | .draw k =>
      match s.connects[k]? with
      | some .drawing => some (s.next.setConnect k (.asking s.transport.nextConnID.1))
      | _ => none
  | .answer k answer =>
      match s.connects[k]? with
      | some (.asking connID) =>
          let reply := s.transport.connectReply connID answer
          some ({ s with transport := reply.2 }.setConnect k reply.1.pc)
      | _ => none

end Draws

/-! ## The id of a call -/

/-- The ids before the counter is back at its first value. -/
def idPeriod : Nat := 2 ^ 32 - 1

/-- The id that the `k`-th call of `NextConnID` returns. -/
def idAt (k : Nat) : UInt32 := UInt32.ofNat (1 + k % idPeriod)

theorem idAt_toNat (k : Nat) : (idAt k).toNat = 1 + k % idPeriod := by
  have hlt : k % idPeriod < idPeriod := Nat.mod_lt k (by decide)
  rw [idAt, UInt32.toNat_ofNat']
  apply Nat.mod_eq_of_lt
  unfold idPeriod at *
  omega

theorem idAt_ne_zero (k : Nat) : idAt k ≠ 0 := by
  intro h
  have hk := idAt_toNat k
  rw [h, UInt32.toNat_zero] at hk
  omega

/-- Equal ids are a multiple of the period apart. -/
theorem idAt_eq_iff {i j : Nat} : idAt i = idAt j ↔ i % idPeriod = j % idPeriod := by
  rw [← UInt32.toNat_inj, idAt_toNat, idAt_toNat]
  exact Nat.add_left_cancel_iff

theorem idAt_ne {i j : Nat} (hij : i < j) (hnear : j - i < idPeriod) : idAt i ≠ idAt j := by
  intro h
  have hmod := idAt_eq_iff.mp h
  unfold idPeriod at *
  omega

/-- The increment of the counter, with the wrap. -/
theorem idAt_succ (k : Nat) : (if idAt k + 1 = 0 then 1 else idAt k + 1) = idAt (k + 1) := by
  have hk := idAt_toNat k
  have hk' := idAt_toNat (k + 1)
  have hadd : (idAt k + 1).toNat = (1 + k % idPeriod + 1) % 2 ^ 32 := by
    rw [UInt32.toNat_add, hk]
    rfl
  apply UInt32.toNat_inj.mp
  rw [hk']
  split
  · rename_i hwrap
    rw [hwrap, UInt32.toNat_zero] at hadd
    rw [UInt32.toNat_one]
    unfold idPeriod at *
    omega
  · rename_i hwrap
    have hpos : (idAt k + 1).toNat ≠ 0 := fun h => hwrap (UInt32.toNat_inj.mp h)
    rw [hadd] at hpos ⊢
    unfold idPeriod at *
    omega

/-- A call that finds the counter at the id of its number leaves it at the next one. -/
theorem nextConnID_idAt {t : Transport} {k : Nat} (h : t.connIDGen = idAt k) :
    t.nextConnID = (idAt k, { t with connIDGen := idAt (k + 1) }) := by
  rw [Transport.nextConnID, h, idAt_succ]

/-! ## Runs -/

theorem connectReply_connIDGen (t : Transport) (connID : UInt32)
    (answer : Except TransportError Response) :
    (t.connectReply connID answer).2.connIDGen = t.connIDGen := by
  unfold Transport.connectReply
  repeat' split
  all_goals rfl

/-- A round of `Connect` returns the id it has sent. -/
theorem connectReply_id {t t' : Transport} {connID id : UInt32}
    {answer : Except TransportError Response}
    (h : t.connectReply connID answer = (.returned id, t')) : id = connID := by
  unfold Transport.connectReply at h
  cases answer with
  | error err => cases h
  | ok resp =>
    dsimp only at h
    repeat' split at h
    all_goals cases h
    rfl

namespace Draws

variable {s s' : Draws} {a : Act}

/-- Only `NextConnID` moves the counter, and its id is the next one drawn. -/
theorem step_draws (h : step s a = some s') :
    (s'.transport.connIDGen = s.transport.connIDGen ∧ s'.drawn = s.drawn) ∨
      (s'.transport = s.transport.nextConnID.2 ∧
        s'.drawn = s.drawn ++ [s.transport.nextConnID.1]) := by
  cases a with
  | nextConnID =>
    cases h
    exact Or.inr ⟨rfl, rfl⟩
  | connect =>
    cases h
    exact Or.inl ⟨rfl, rfl⟩
  | draw k =>
    simp only [step] at h
    split at h
    · cases h
      exact Or.inr ⟨rfl, rfl⟩
    · cases h
  | answer k answer =>
    simp only [step] at h
    split at h
    · cases h
      exact Or.inl ⟨connectReply_connIDGen _ _ _, rfl⟩
    · cases h

/-- The counter and the ids drawn so far, from the number of calls alone. -/
structure Numbered (s : Draws) : Prop where
  next : s.transport.connIDGen = idAt s.drawn.length
  drawn : s.drawn = (List.range s.drawn.length).map idAt

theorem numbered_new {t : Transport} (h : t.connIDGen = 1) : (new t).Numbered where
  next := h
  drawn := rfl

theorem numbered_step (hs : s.Numbered) (h : step s a = some s') : s'.Numbered := by
  rcases step_draws h with ⟨hgen, hdrawn⟩ | ⟨htransport, hdrawn⟩
  · exact ⟨by rw [hgen, hdrawn, hs.next], by rw [hdrawn, ← hs.drawn]⟩
  · rw [nextConnID_idAt hs.next] at htransport hdrawn
    have hlen : s'.drawn.length = s.drawn.length + 1 := by simp [hdrawn]
    refine ⟨by rw [htransport, hlen], ?_⟩
    rw [hlen, List.range_succ, List.map_append, ← hs.drawn]
    exact hdrawn

theorem numbered_exec {t : Transport} (ht : t.connIDGen = 1) {acts : List Act}
    (hrun : exec step (new t) acts = some s) : s.Numbered :=
  exec_invariant_all (fun _ _ _ hs h => numbered_step hs h) acts _ s (numbered_new ht) hrun

/-- The `k`-th id. -/
theorem Numbered.drawn_get (hs : s.Numbered) {k : Nat} {id : UInt32} (h : s.drawn[k]? = some id) :
    id = idAt k := by
  rw [hs.drawn, List.getElem?_map, Option.map_eq_some_iff] at h
  obtain ⟨i, hi, rfl⟩ := h
  obtain ⟨hlt, rfl⟩ := List.getElem?_eq_some_iff.mp hi
  rw [List.getElem_range]

end Draws

/-- One round of a call of `Connect`. -/
theorem connect_round {t t' : Transport} {answer : Except TransportError Response}
    {outcome : ConnectOutcome} (connects : List ConnectPc) (drawn : List UInt32)
    (h : t.nextConnID.2.connectReply t.nextConnID.1 answer = (outcome, t')) :
    exec Draws.step ⟨t, connects ++ [.drawing], drawn⟩
        [.draw connects.length, .answer connects.length answer] =
      some ⟨t', connects ++ [outcome.pc], drawn ++ [t.nextConnID.1]⟩ := by
  simp [exec, Draws.step, Draws.next, Draws.setConnect, h]

/-- A call of `Connect` that has begun, with its retries. -/
theorem connectState_rounds (follow : Bool) (answers : Answers) (n : Nat) :
    ∀ (t : Transport) (i : Nat) (connects : List ConnectPc) (drawn : List UInt32)
      {result : Except TransportError UInt32} {t' : Transport},
      t.connectState follow answers n i = some (result, t') →
      ∃ acts drawn', exec Draws.step ⟨t, connects ++ [.drawing], drawn⟩ acts =
          some ⟨t', connects ++ [.returned result], drawn'⟩ ∧
        ∀ connID, result = .ok connID → drawn'.getLast? = some connID := by
  induction n with
  | zero =>
    intro t i connects drawn result t' h
    cases h
  | succ n ih =>
    intro t i connects drawn result t' h
    obtain ⟨⟨outcome, t₂⟩, hreply⟩ : ∃ p, t.nextConnID.2.connectReply t.nextConnID.1
        (clientDo follow answers maxHops i).1 = p := ⟨_, rfl⟩
    simp only [Transport.connectState, hreply] at h
    have hround := connect_round connects drawn hreply
    cases outcome with
    | returned id =>
      cases h
      refine ⟨_, _, hround, fun connID hid => ?_⟩
      rw [List.getLast?_concat, ← connectReply_id hreply, Except.ok.inj hid]
    | failed err =>
      cases h
      refine ⟨_, _, hround, fun connID hid => ?_⟩
      cases hid
    | redirected =>
      obtain ⟨acts, drawn', hacts, hlast⟩ := ih t₂ _ connects (drawn ++ [t.nextConnID.1]) h
      exact ⟨_, drawn', exec_append_some.mpr ⟨_, hround, hacts⟩, hlast⟩

/-- A whole call of `Connect` is a run: it ends with the transport that `connectState` leaves, and
the id it returns is the last that was drawn. -/
theorem connectState_run {follow : Bool} {answers : Answers} {n i : Nat} {t t' : Transport}
    {result : Except TransportError UInt32} (connects : List ConnectPc) (drawn : List UInt32)
    (h : t.connectState follow answers n i = some (result, t')) :
    ∃ acts drawn', exec Draws.step ⟨t, connects, drawn⟩ (.connect :: acts) =
        some ⟨t', connects ++ [.returned result], drawn'⟩ ∧
      ∀ connID, result = .ok connID → drawn'.getLast? = some connID := by
  obtain ⟨acts, drawn', hacts, hlast⟩ := connectState_rounds follow answers n t i connects drawn h
  exact ⟨acts, drawn', exec_cons_some.mpr ⟨_, rfl, hacts⟩, hlast⟩

/-! ## Ids -/

section Ids

variable {parse : List Char → Option ServerURL} {serverURL frontIP protocol : List Char}
  {encryptor : Encryptor} {t : Transport}

/-- The ids of a transport repeat with the period, and not before. -/
theorem drawn_eq_iff
    (ht : Transport.newTransport parse serverURL encryptor frontIP protocol = .ok t)
    {acts : List Draws.Act} {s : Draws} (hrun : exec Draws.step (.new t) acts = some s)
    {i j : Nat} {a b : UInt32} (ha : s.drawn[i]? = some a) (hb : s.drawn[j]? = some b) :
    a = b ↔ i % idPeriod = j % idPeriod := by
  obtain ⟨u, -, rfl⟩ := Transport.newTransport_ok ht
  have hs := Draws.numbered_exec rfl hrun
  rw [hs.drawn_get ha, hs.drawn_get hb, idAt_eq_iff]

/-- For every transport and every run of calls: no call of `NextConnID` returns 0, and two calls
that are fewer than `2^32 - 1` calls apart return different ids. -/
theorem connIDs_distinct
    (ht : Transport.newTransport parse serverURL encryptor frontIP protocol = .ok t)
    (acts : List Draws.Act) (s : Draws) (hrun : exec Draws.step (.new t) acts = some s) :
    (∀ id ∈ s.drawn, id ≠ 0) ∧
      ∀ i j a b, i < j → j - i < 2 ^ 32 - 1 → s.drawn[i]? = some a → s.drawn[j]? = some b →
        a ≠ b := by
  obtain ⟨u, -, rfl⟩ := Transport.newTransport_ok ht
  have hs := Draws.numbered_exec rfl hrun
  constructor
  · intro id hid
    obtain ⟨k, hk⟩ := List.mem_iff_getElem?.mp hid
    rw [hs.drawn_get hk]
    exact idAt_ne_zero k
  · intro i j a b hij hnear ha hb
    rw [hs.drawn_get ha, hs.drawn_get hb]
    exact idAt_ne hij hnear

end Ids

/-- A `Connect` that is redirected and draws again, between two other calls. -/
def redirectedDraws : List Draws.Act :=
  [.nextConnID, .connect, .draw 0, .answer 0 (.ok ⟨302, ['/'], []⟩), .draw 0, .nextConnID]

/-- The transport for `https://a`. -/
def transportA : Transport := ⟨"https://a".toList, "https".toList, ['a'], .plain, 1⟩

theorem newTransport_transportA :
    Transport.newTransport (fun _ => some ⟨"https".toList, ['a']⟩) "https://a".toList .plain ['1']
      [] = .ok transportA := rfl

theorem connIDs_distinct_redirected :
    ∃ s, exec Draws.step (.new transportA) redirectedDraws = some s ∧ s.drawn = [1, 2, 3, 4] ∧
      (∀ id ∈ s.drawn, id ≠ 0) ∧
      ∀ i j a b, i < j → j - i < 2 ^ 32 - 1 → s.drawn[i]? = some a → s.drawn[j]? = some b →
        a ≠ b := by
  refine exec_reaches (P := fun s => s.drawn = [1, 2, 3, 4]) (by decide +kernel) fun s hrun hs => ?_
  exact ⟨hs, connIDs_distinct newTransport_transportA redirectedDraws s hrun⟩

end PTBridge.Dpi
