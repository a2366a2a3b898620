import PTBridge.Dpi.Client.Transport
import PTBridge.Dpi.Server.Wellformed

/-!
# Several clients on one server

Any number of `Transport`s that hold the server's key make calls in any order. Each draws the ids
of its connections from its own counter, which starts at 1, and the server files all connections
in one table under these ids.

## Architecture

- `Tenants` is the server together with the transports, the call each handler serves, and the
  `Connect` calls that have returned. A client uses an id only after a `Connect` returned it.
- `Bound` links the handlers to the calls; it holds in every run.
- `Isolated` is the property: a client's data goes to its own remotes and comes from them.
- `tenants_isolated` proves it for runs in which no `Connect` is registered under an id that was
  registered before; `tenants_share_a_remote` is a run of two clients with one `Connect` each.
-/

namespace PTBridge.Dpi

open PTBridge.Stream PTBridge.Container PTBridge.Transition

/-! ## The system -/

/-- A call of a `Transport`, as it reaches the server. -/
inductive Call where
  | connect (connID : UInt32) (req : ConnectRequest)
  | sendData (connID : UInt32) (data : Bytes)
  | closeConn (connID : UInt32)
  | download (connID : UInt32)
  deriving DecidableEq

/-- The id a call uses, if a `Connect` has to have returned it. -/
def Call.uses : Call → Option UInt32
  | .connect _ _ => none
  | .sendData connID _ => some connID
  | .closeConn connID => some connID
  | .download connID => some connID

/-- The request a call sends. -/
def Call.request (e : Encryptor) (nonce : Nonce) : Call → Request
  | .connect connID req => connectRequest e nonce connID req
  | .sendData connID data => sendDataRequest e nonce connID data
  | .closeConn connID => closeConnRequest e nonce connID
  | .download connID => downloadRequest connID

/-- Where the handler of a call can stand. -/
def Call.At : Call → Pc → Prop
  | _, .done => True
  | .connect connID _, .dial id _ => id = connID
  | .sendData connID data, .dataLookup id payload => id = connID ∧ payload = data
  | .sendData connID data, .dataWrite id payload _ => id = connID ∧ payload = data
  | .sendData connID _, .closeRemote id _ => id = connID
  | .sendData connID _, .unregister id => id = connID
  | .closeConn connID, .closeLookup id => id = connID
  | .closeConn connID, .closeRemote id _ => id = connID
  | .closeConn connID, .unregister id => id = connID
  | .download connID, .downLookup id => id = connID
  | .download connID, .downLoop id _ => id = connID
  | .download connID, .downWrite id _ _ => id = connID
  | _, _ => False

/-- A call's handler starts where the call belongs. -/
theorem Call.at_start (cfg : Config) (nonce : Nonce) (call : Call) :
    call.At (start cfg (call.request cfg.encryptor nonce)).pc := by
  cases call with
  | connect connID req =>
    have hstart := @start_connectRequest cfg nonce connID req
    rw [Call.request]
    generalize start cfg (connectRequest cfg.encryptor nonce connID req) = handler at hstart
    rcases hstart with ⟨req', rfl⟩ | rfl | rfl
    · exact rfl
    · trivial
    · trivial
  | sendData connID data =>
    rw [Call.request, start_sendDataRequest]
    exact ⟨rfl, rfl⟩
  | closeConn connID =>
    rw [Call.request, start_closeConnRequest]
    exact rfl
  | download connID =>
    rw [Call.request, start_downloadRequest]
    exact rfl

/-- The control flow of a handler stays within its call. -/
theorem Call.At.next {call : Call} {pc pc' : Pc} (hat : call.At pc) (hnext : pc.Next pc') :
    call.At pc' := by
  -- every edge of the control flow, for each kind of call
  cases hnext <;> cases call <;> first | trivial | exact hat | exact hat.1

structure Tenants where
  server : Server
  transports : Nat → Transport
  /-- The client and the call that each handler serves. -/
  calls : List (Nat × Call)
  /-- The handlers whose `Connect` has returned its id. -/
  returned : List Nat

namespace Tenants

/-- No call was made yet. -/
def new (cfg : Config) (scheme host : List Char) : Tenants :=
  ⟨.new, fun _ => .new scheme host cfg.encryptor, [], []⟩

/-- `Connect` of client `cl` returned `connID`. -/
def owns (y : Tenants) (cl : Nat) (connID : UInt32) : Bool :=
  y.returned.any fun h =>
    match y.calls[h]? with
    | some (cl', .connect connID' _) => cl' == cl && connID' == connID
    | _ => false

/-- A call of client `cl` reaches the server. -/
def ask (y : Tenants) (cfg : Config) (cl : Nat) (call : Call) (nonce : Nonce) : Tenants :=
  { y with
    server :=
      { y.server with
        handlers :=
          y.server.handlers ++ [start cfg (call.request (y.transports cl).encryptor nonce)] }
    calls := y.calls ++ [(cl, call)] }

inductive Act where
  /-- `rand` is what `Encrypt` draws; on its error the id is spent and nothing is sent. -/
  | connect (cl : Nat) (req : ConnectRequest) (rand : Option Nonce)
  | sendData (cl : Nat) (connID : UInt32) (data : Bytes) (nonce : Nonce)
  | closeConn (cl : Nat) (connID : UInt32) (nonce : Nonce)
  | download (cl : Nat) (connID : UInt32)
  /-- the `Connect` served by handler `h` gets its response -/
  | returns (h : Nat)
  | server (a : Dpi.Act)

def step (cfg : Config) (y : Tenants) : Act → Option Tenants
  | .connect cl req rand =>
      -- the id is spent even if nothing is sent
      let (connID, t) := (y.transports cl).nextConnID
      let y' := { y with transports := Function.update y.transports cl t }
      match rand with
      | none => some y'
      | some nonce => some (y'.ask cfg cl (.connect connID req) nonce)
  | .sendData cl connID data nonce =>
      if y.owns cl connID then some (y.ask cfg cl (.sendData connID data) nonce) else none
  | .closeConn cl connID nonce =>
      if y.owns cl connID then some (y.ask cfg cl (.closeConn connID) nonce) else none
  | .download cl connID =>
      if y.owns cl connID then some (y.ask cfg cl (.download connID) .zero) else none
  -- the client sees the response of its handler, and judges it by `Connect`'s own checks
  | .returns h =>
      match y.calls[h]?, (y.server.handlers[h]?).bind (·.response) with
      | some (cl, .connect connID _), some resp =>
          let (outcome, t) := (y.transports cl).connectReply connID (.ok resp)
          some
            { y with
              transports := Function.update y.transports cl t
              returned := if outcome = .returned connID then y.returned ++ [h] else y.returned }
      | _, _ => none
  | .server (.request _) => none
  | .server a =>
      match Dpi.step cfg y.server a with
      | none => none
      | some s => some { y with server := s }

/-! ## The property -/

/-- The remote of `cc` was dialed for a `Connect` of client `cl` that returned `connID`. -/
def OwnRemote (y : Tenants) (cl : Nat) (connID : UInt32) (cc : ClientConn) : Prop :=
  (∃ req, y.calls[cc.dialedBy]? = some (cl, .connect connID req)) ∧ cc.dialedBy ∈ y.returned

/-- What a client sends goes to its own remotes, and what it is sent comes from them. -/
structure Isolated (y : Tenants) : Prop where
  upload : ∀ (c : Nat) (cc : ClientConn) (h : Nat) (bytes : Bytes),
    y.server.conns[c]? = some cc → (h, bytes) ∈ cc.written →
    ∃ cl connID data, y.calls[h]? = some (cl, .sendData connID data) ∧ bytes <+: data ∧
      y.OwnRemote cl connID cc
  download : ∀ (h : Nat) (hd : Handler) (cl : Nat) (connID : UInt32),
    y.server.handlers[h]? = some hd → y.calls[h]? = some (cl, .download connID) →
    ∃ (c : Nat) (cc : ClientConn), y.server.conns[c]? = some cc ∧ y.OwnRemote cl connID cc ∧
      ∀ frame ∈ hd.sent, frame.2 ∈ cc.received

/-- If this step registers a connection, then under an id that no earlier one was registered
under. -/
def freshID (y : Tenants) : Act → Bool
  | .server (.handler h (.dial true)) =>
      match y.server.pcOf h with
      | .dial connID _ => y.server.conns.all fun cc => cc.connID != connID
      | _ => true
  | _ => true

/-! ## The cases of a step -/

/-- Every way the system can move. -/
inductive Step (cfg : Config) (y : Tenants) : Act → Tenants → Prop where
  /-- a `Connect` that sends nothing -/
  | spent (cl : Nat) (req : ConnectRequest) :
      Step cfg y (.connect cl req none)
        { y with transports := Function.update y.transports cl (y.transports cl).nextConnID.2 }
  | connected (cl : Nat) (req : ConnectRequest) (nonce : Nonce) :
      Step cfg y (.connect cl req (some nonce))
        (ask { y with
            transports := Function.update y.transports cl (y.transports cl).nextConnID.2 }
          cfg cl (.connect (y.transports cl).nextConnID.1 req) nonce)
  | asked {a : Act} {cl : Nat} {call : Call} {connID : UInt32} {nonce : Nonce}
      (huses : call.uses = some connID) (howns : y.owns cl connID = true) :
      Step cfg y a (y.ask cfg cl call nonce)
  | returned {h cl : Nat} {connID : UInt32} {req : ConnectRequest} {hd : Handler} {resp : Response}
      (hcall : y.calls[h]? = some (cl, .connect connID req))
      (hh : y.server.handlers[h]? = some hd) (hresp : hd.response = some resp) :
      Step cfg y (.returns h)
        { y with
          transports :=
            Function.update y.transports cl ((y.transports cl).connectReply connID (.ok resp)).2
          returned :=
            if ((y.transports cl).connectReply connID (.ok resp)).1 = .returned connID then
              y.returned ++ [h]
            else y.returned }
  | served {a : Dpi.Act} {s : Server} (hreq : ∀ r, a ≠ .request r) (hs : Dpi.Step cfg y.server a s) :
      Step cfg y (.server a) { y with server := s }

theorem step_cases {cfg : Config} {y y' : Tenants} {a : Act} (h : step cfg y a = some y') :
    Step cfg y a y' := by
  cases a with
  | connect cl req rand =>
    cases rand with
    | none => cases h; exact .spent cl req
    | some nonce => cases h; exact .connected cl req nonce
  | sendData cl connID data nonce =>
    simp only [step] at h
    split at h
    · rename_i howns
      cases h
      exact .asked rfl howns
    · cases h
  | closeConn cl connID nonce =>
    simp only [step] at h
    split at h
    · rename_i howns
      cases h
      exact .asked rfl howns
    · cases h
  | download cl connID =>
    simp only [step] at h
    split at h
    · rename_i howns
      cases h
      exact .asked rfl howns
    · cases h
  | returns g =>
    simp only [step] at h
    split at h
    · rename_i cl connID req resp hcall hbind
      obtain ⟨hd, hh, hresp⟩ := Option.bind_eq_some_iff.mp hbind
      cases h
      exact .returned hcall hh hresp
    · cases h
  | server b =>
    cases b with
    | request r => cases h
    | handler g m =>
      simp only [step] at h
      split at h
      · cases h
      · rename_i s hs
        cases h
        exact .served nofun (Dpi.step_cases hs)
    | reader c m =>
      simp only [step] at h
      split at h
      · cases h
      · rename_i s hs
        cases h
        exact .served nofun (Dpi.step_cases hs)
    | shutdown =>
      simp only [step] at h
      split at h
      · cases h
      · rename_i s hs
        cases h
        exact .served nofun (Dpi.step_cases hs)

/-! ## What holds in every run -/

/-- The `Connect` served by handler `h` dialed a connection. -/
def Dialed (y : Tenants) (h : Nat) : Prop :=
  ∃ (c : Nat) (cc : ClientConn), y.server.conns[c]? = some cc ∧ cc.dialedBy = h

/-- Handlers, connections and returned ids belong to the calls that made them. -/
structure Bound (cfg : Config) (y : Tenants) : Prop where
  keys : ∀ cl, (y.transports cl).encryptor = cfg.encryptor
  length : y.calls.length = y.server.handlers.length
  wellFormed : WellFormed y.server
  traced : Traced y.server
  serves : ∀ (h : Nat) (hd : Handler) (cl : Nat) (call : Call), y.server.handlers[h]? = some hd →
    y.calls[h]? = some (cl, call) → call.At hd.pc
  dialed : ∀ (c : Nat) (cc : ClientConn), y.server.conns[c]? = some cc →
    ∃ cl req, y.calls[cc.dialedBy]? = some (cl, .connect cc.connID req)
  /-- A `Connect` is answered with success only once its connection is registered. -/
  replied : ∀ (h : Nat) (hd : Handler) (cl : Nat) (connID : UInt32) (req : ConnectRequest)
    (resp : Response), y.server.handlers[h]? = some hd →
    y.calls[h]? = some (cl, .connect connID req) → hd.response = some resp →
    y.Dialed h ∨ resp = connectFailed ∨ resp = badRequest
  returned : ∀ h ∈ y.returned, y.Dialed h
  asked : ∀ (h cl : Nat) (call : Call) (connID : UInt32), y.calls[h]? = some (cl, call) →
    call.uses = some connID → y.owns cl connID = true

section Bound

variable {cfg : Config} {y y' : Tenants} {a : Act}

theorem owns_iff {cl : Nat} {connID : UInt32} :
    y.owns cl connID = true ↔
      ∃ h ∈ y.returned, ∃ req, y.calls[h]? = some (cl, .connect connID req) := by
  simp only [owns, List.any_eq_true]
  refine exists_congr fun h => and_congr_right fun _ => ?_
  constructor
  · intro hm
    split at hm
    · rename_i cl' connID' req hcall
      simp only [Bool.and_eq_true, beq_iff_eq] at hm
      obtain ⟨rfl, rfl⟩ := hm
      exact ⟨req, hcall⟩
    · cases hm
  · rintro ⟨req, hcall⟩
    simp [hcall]

/-- Ownership only grows with the calls and the returned ids. -/
theorem owns_mono {cl : Nat} {connID : UInt32} (hown : y.owns cl connID = true)
    (hcalls : ∀ (h : Nat) (x : Nat × Call), y.calls[h]? = some x → y'.calls[h]? = some x)
    (hret : ∀ h ∈ y.returned, h ∈ y'.returned) : y'.owns cl connID = true := by
  obtain ⟨h, hh, req, hcall⟩ := owns_iff.mp hown
  exact owns_iff.mpr ⟨h, hret h hh, req, hcalls h _ hcall⟩

theorem bound_new (cfg : Config) (scheme host : List Char) : Bound cfg (new cfg scheme host) where
  keys _ := rfl
  length := rfl
  wellFormed := wellFormed_new
  traced := traced_new
  serves _ _ _ _ h := by cases h
  dialed _ _ h := by cases h
  replied _ _ _ _ _ _ h := by cases h
  returned _ h := by cases h
  asked _ _ _ _ h := by cases h

/-- A handler that starts has not answered a `Connect` with success. -/
theorem start_connect_response {connID : UInt32} {req : ConnectRequest} {nonce : Nonce}
    {resp : Response}
    (hresp : (start cfg (connectRequest cfg.encryptor nonce connID req)).response = some resp) :
    resp = badRequest := by
  rcases @start_connectRequest cfg nonce connID req with ⟨req', h⟩ | h | h
  · rw [h] at hresp
    cases hresp
  · rw [h] at hresp
    exact (Option.some.inj hresp).symm
  · rw [h] at hresp
    cases hresp

/-- A change of the transports that keeps the key. -/
theorem Bound.setTransports (hB : Bound cfg y) {ts : Nat → Transport}
    (hkeys : ∀ cl, (ts cl).encryptor = cfg.encryptor) :
    Bound cfg { y with transports := ts } :=
  { hB with keys := hkeys, replied := hB.replied, returned := hB.returned, asked := hB.asked }

/-- Every handler serves a call. -/
theorem Bound.exists_call (hB : Bound cfg y) {h : Nat} {hd : Handler}
    (hh : y.server.handlers[h]? = some hd) : ∃ cl call, y.calls[h]? = some (cl, call) := by
  obtain ⟨hlt, -⟩ := List.getElem?_eq_some_iff.mp hh
  exact ⟨_, _, List.getElem?_eq_getElem (by rw [hB.length]; exact hlt)⟩

/-- A handler and its call are old ones, or both are the new ones. -/
theorem Bound.ask_cases (hB : Bound cfg y) {cl : Nat} {call : Call} {nonce : Nonce} {h : Nat}
    {hd : Handler} {x : Nat × Call}
    (hh : (y.ask cfg cl call nonce).server.handlers[h]? = some hd)
    (hx : (y.ask cfg cl call nonce).calls[h]? = some x) :
    (y.server.handlers[h]? = some hd ∧ y.calls[h]? = some x) ∨
      (hd = start cfg (call.request cfg.encryptor nonce) ∧ x = (cl, call)) := by
  have hlength := hB.length
  rw [← hB.keys cl]
  rcases pool_snoc_some hh with hold | ⟨hnew, rfl⟩
  · rcases pool_snoc_some hx with hold' | ⟨hnew', -⟩
    · exact Or.inl ⟨hold, hold'⟩
    · obtain ⟨hlt, -⟩ := List.getElem?_eq_some_iff.mp hold
      omega
  · rcases pool_snoc_some hx with hold' | ⟨-, rfl⟩
    · obtain ⟨hlt, -⟩ := List.getElem?_eq_some_iff.mp hold'
      omega
    · exact Or.inr ⟨rfl, rfl⟩

/-- A call reaches the server. -/
theorem Bound.ask (hB : Bound cfg y) {cl : Nat} {call : Call} (nonce : Nonce)
    (huses : ∀ connID, call.uses = some connID → y.owns cl connID = true) :
    Bound cfg (y.ask cfg cl call nonce) := by
  have hstep : Dpi.Step cfg y.server
      (.request (call.request (y.transports cl).encryptor nonce)) (y.ask cfg cl call nonce).server :=
    .request _
  refine
    { keys := hB.keys
      length := ?_
      wellFormed := hB.wellFormed.step hstep
      traced := hB.traced.step hstep
      serves := ?_
      dialed := ?_
      replied := ?_
      returned := hB.returned
      asked := ?_ }
  · show (y.calls ++ [(cl, call)]).length = (y.server.handlers ++ [_]).length
    rw [List.length_append, List.length_append, hB.length]
    rfl
  · intro h hd cl' call' hh hx
    rcases hB.ask_cases hh hx with ⟨hold, hold'⟩ | ⟨rfl, hnew⟩
    · exact hB.serves h hd cl' call' hold hold'
    · cases hnew
      exact Call.at_start cfg nonce call
  · intro c cc hcc
    obtain ⟨cl', req, hcall⟩ := hB.dialed c cc hcc
    exact ⟨cl', req, pool_snoc_old hcall⟩
  · intro h hd cl' connID req resp hh hx hresp
    rcases hB.ask_cases hh hx with ⟨hold, hold'⟩ | ⟨rfl, hnew⟩
    · exact hB.replied h hd cl' connID req resp hold hold' hresp
    · cases hnew
      exact Or.inr (Or.inr (start_connect_response hresp))
  · intro h cl' call' connID hx hu
    refine owns_mono (y := y) ?_ (fun _ _ hx => pool_snoc_old hx) fun _ hh => hh
    rcases pool_snoc_some hx with hold | ⟨-, hnew⟩
    · exact hB.asked h cl' call' connID hold hu
    · cases hnew
      exact huses connID hu

theorem Dialed.step {h : Nat} {b : Dpi.Act} {s : Server} (hd : y.Dialed h)
    (hs : Dpi.Step cfg y.server b s) : Dialed { y with server := s } h := by
  obtain ⟨c, cc, hcc, hby⟩ := hd
  obtain ⟨cc', hcc', hev⟩ := conn_evolves hs hcc
  exact ⟨c, cc', hcc', hev.dialedBy.trans hby⟩

/-- The handler of a `Connect` answers after it has dialed, or says that the dial failed. -/
theorem connect_step {h : Nat} {m : HandlerMove} {s s' : Server} {hd hd' : Handler}
    {connID : UInt32} {req : ConnectRequest} {resp : Response}
    (hs : Dpi.Step cfg s (.handler h m) s') (hh : s.handlers[h]? = some hd)
    (hat : (Call.connect connID req).At hd.pc) (hh' : s'.handlers[h]? = some hd')
    (hresp : hd'.response = some resp) :
    (∃ (c : Nat) (cc : ClientConn), s'.conns[c]? = some cc ∧ cc.dialedBy = h) ∨
      resp = connectFailed := by
  -- every step but a dial starts at a place where no `Connect` stands
  have hplace : ∀ {gd : Handler} {pc : Pc}, s.handlers[h]? = some gd → gd.pc = pc →
      (Call.connect connID req).At pc := by
    intro gd pc hg hpc
    rw [hh] at hg
    cases hg
    rw [← hpc]
    exact hat
  cases hs with
  | dialed _ _ => exact Or.inl ⟨_, _, pool_snoc_new, rfl⟩
  | dialFailed hg _ =>
    rw [Server.setHandler_handlers, pool_set_self hg] at hh'
    cases hh'
    exact Or.inr (Option.some.inj hresp).symm
  | dataFound hg hpc _ => exact (hplace hg hpc).elim
  | dataUnknown hg hpc _ => exact (hplace hg hpc).elim
  | wrote hg hpc _ _ => exact (hplace hg hpc).elim
  | writeFailed hg hpc _ _ => exact (hplace hg hpc).elim
  | closeFound hg hpc _ => exact (hplace hg hpc).elim
  | closeUnknown hg hpc _ => exact (hplace hg hpc).elim
  | closedRemote hg hpc _ => exact (hplace hg hpc).elim
  | unregistered hg hpc => exact (hplace hg hpc).elim
  | downFound hg hpc _ => exact (hplace hg hpc).elim
  | downUnknown hg hpc _ => exact (hplace hg hpc).elim
  | downReceived hg hpc _ _ _ => exact (hplace hg hpc).elim
  | downDrained hg hpc _ _ _ => exact (hplace hg hpc).elim
  | downCancelled hg hpc => exact (hplace hg hpc).elim
  | downStopped hg hpc _ => exact (hplace hg hpc).elim
  | emitted hg hpc => exact (hplace hg hpc).elim
  | emitFailed hg hpc => exact (hplace hg hpc).elim
  | encryptFailed hg hpc => exact (hplace hg hpc).elim

/-- A step of the server. -/
theorem Bound.serve (hB : Bound cfg y) {b : Dpi.Act} {s : Server} (hreq : ∀ r, b ≠ .request r)
    (hs : Dpi.Step cfg y.server b s) : Bound cfg { y with server := s } where
  keys := hB.keys
  length := hB.length.trans (handlers_length_step hs hreq).symm
  wellFormed := hB.wellFormed.step hs
  traced := hB.traced.step hs
  serves h hd cl call hh hcall := by
    rcases handler_origin hs hreq hh with hold | ⟨m, gd, -, hg, hnext⟩
    · exact hB.serves h hd cl call hold hcall
    · exact (hB.serves h gd cl call hg hcall).next hnext
  dialed c cc hcc := by
    rcases conn_origin hs hcc with ⟨cc₀, hcc₀, hev⟩ | ⟨h, hd, req, -, hh, hpc, -, hnew⟩
    · obtain ⟨cl, req, hcall⟩ := hB.dialed c cc₀ hcc₀
      exact ⟨cl, req, by rw [hev.dialedBy, hev.connID]; exact hcall⟩
    · -- the dialing handler serves a `Connect` for that id
      obtain ⟨cl, call, hcall⟩ := hB.exists_call hh
      have hat := hB.serves h hd cl call hh hcall
      rw [hpc] at hat
      rw [hnew]
      cases call with
      | connect connID req' =>
        have hid : cc.connID = connID := hat
        exact ⟨cl, req', by rw [hid]; exact hcall⟩
      | sendData _ _ => exact hat.elim
      | closeConn _ => exact hat.elim
      | download _ => exact hat.elim
  replied h hd cl connID req resp hh hcall hresp := by
    rcases handler_origin hs hreq hh with hold | ⟨m, gd, rfl, hg, -⟩
    · exact (hB.replied h hd cl connID req resp hold hcall hresp).imp_left fun hd => hd.step hs
    · exact (connect_step hs hg (hB.serves h gd cl _ hg hcall) hh hresp).imp id Or.inl
  returned h hh := (hB.returned h hh).step hs
  asked := hB.asked

/-- `Connect` does not take the server's refusals for success. -/
theorem connectReply_refused (t : Transport) (connID : UInt32) {resp : Response}
    (hresp : resp = connectFailed ∨ resp = badRequest) :
    (t.connectReply connID (.ok resp)).1 ≠ .returned connID := by
  intro h
  obtain ⟨hstatus, hmark⟩ := Transport.connectReply_returned h
  rcases hresp with rfl | rfl
  · exact absurd hmark (by decide +kernel)
  · exact absurd hstatus (by decide +kernel)

/-- A change of one transport that keeps its key. -/
theorem keys_update (hB : Bound cfg y) {cl : Nat} {t : Transport}
    (ht : t.encryptor = (y.transports cl).encryptor) :
    ∀ cl', (Function.update y.transports cl t cl').encryptor = cfg.encryptor := by
  intro cl'
  rw [Function.update_apply]
  split
  · exact ht.trans (hB.keys cl)
  · exact hB.keys cl'

/-- Every step keeps handlers and calls together. -/
theorem Bound.preserved (hB : Bound cfg y) (hs : Step cfg y a y') : Bound cfg y' := by
  cases hs with
  | spent cl req => exact hB.setTransports (keys_update hB rfl)
  | connected cl req nonce =>
    have hB' : Bound cfg { y with
        transports := Function.update y.transports cl (y.transports cl).nextConnID.2 } :=
      hB.setTransports (keys_update hB rfl)
    refine hB'.ask nonce ?_
    intro connID hu
    cases hu
  | asked huses howns =>
    refine hB.ask _ fun connID hu => ?_
    rw [huses] at hu
    cases hu
    exact howns
  -- the id of a `Connect` becomes the client's
  | @returned h cl connID req hd resp hcall hh hresp =>
    have hB' := hB.setTransports (keys_update hB
      (Transport.connectReply_encryptor (y.transports cl) connID (.ok resp)))
    split
    · rename_i hout
      -- the response was a success, so the connection is there
      have hdialed : y.Dialed h :=
        (hB.replied h hd cl connID req resp hh hcall hresp).resolve_right fun hno =>
          connectReply_refused _ connID hno hout
      refine { hB' with returned := ?_, asked := ?_, replied := hB'.replied }
      · intro k hk
        rcases List.mem_append.mp hk with hold | hnew
        · exact hB.returned k hold
        · rw [List.mem_singleton.mp hnew]
          exact hdialed
      · intro k cl' call id hx hu
        exact owns_mono (hB.asked k cl' call id hx hu) (fun _ _ hx => hx) fun _ hk =>
          List.mem_append_left _ hk
    · exact hB'
  | served hreq hs => exact hB.serve hreq hs

/-! ## Isolation -/

/-- No two connections were registered under one id. -/
def Unique (s : Server) : Prop :=
  ∀ (c d : Nat) (cc dd : ClientConn), s.conns[c]? = some cc → s.conns[d]? = some dd →
    cc.connID = dd.connID → c = d

theorem Unique.conn_eq {s : Server} (hU : Unique s) {c d : Nat} {cc dd : ClientConn}
    (hcc : s.conns[c]? = some cc) (hdd : s.conns[d]? = some dd) (hid : cc.connID = dd.connID) :
    cc = dd := by
  obtain rfl := hU c d cc dd hcc hdd hid
  rw [hcc] at hdd
  exact Option.some.inj hdd

/-- The condition on the step keeps ids unique. -/
theorem Unique.preserved (hU : Unique y.server) (hok : y.freshID a = true) (hs : Step cfg y a y') :
    Unique y'.server := by
  cases hs with
  | spent _ _ => exact hU
  | connected _ _ _ => exact hU
  | asked _ _ => exact hU
  | returned _ _ _ => exact hU
  | @served b s hreq hs =>
    -- a connection that is dialed now has an id that no other has
    have hfresh : ∀ {c : Nat} {cc cc₀ : ClientConn} {h : Nat} {hd : Handler} {req : ConnectRequest},
        y.server.conns[c]? = some cc₀ → cc₀.connID = cc.connID → b = .handler h (.dial true) →
        y.server.handlers[h]? = some hd → hd.pc ≠ .dial cc.connID req := by
      intro c cc cc₀ h hd req hcc₀ hid hb hh hpc
      subst hb
      simp only [freshID, Server.pcOf, hh, hpc, List.all_eq_true, bne_iff_ne] at hok
      exact hok cc₀ (List.mem_of_getElem? hcc₀) hid
    intro c d cc dd hcc hdd hid
    rcases conn_origin hs hcc with ⟨cc₀, hcc₀, hev⟩ | ⟨h, hd, req, hb, hh, hpc, hc, -⟩
    · rcases conn_origin hs hdd with ⟨dd₀, hdd₀, hev'⟩ | ⟨h, hd, req, hb, hh, hpc, -, -⟩
      · exact hU c d cc₀ dd₀ hcc₀ hdd₀ (hev.connID.symm.trans (hid.trans hev'.connID))
      · exact absurd hpc (hfresh hcc₀ (hev.connID.symm.trans hid) hb hh)
    · rcases conn_origin hs hdd with ⟨dd₀, hdd₀, hev'⟩ | ⟨_, _, _, _, _, _, hd', -⟩
      · exact absurd hpc (hfresh hdd₀ (hev'.connID.symm.trans hid.symm) hb hh)
      · rw [hc, hd']

/-- An owned id has a connection, and it is the client's own. -/
theorem Bound.own_remote (hB : Bound cfg y) {cl : Nat} {connID : UInt32}
    (hown : y.owns cl connID = true) :
    ∃ (c : Nat) (cc : ClientConn), y.server.conns[c]? = some cc ∧ cc.connID = connID ∧
      y.OwnRemote cl connID cc := by
  obtain ⟨h, hret, req, hcall⟩ := owns_iff.mp hown
  obtain ⟨c, cc, hcc, hby⟩ := hB.returned h hret
  obtain ⟨cl', req', hcall'⟩ := hB.dialed c cc hcc
  rw [hby, hcall] at hcall'
  cases hcall'
  exact ⟨c, cc, hcc, rfl, ⟨req, by rw [hby]; exact hcall⟩, by rw [hby]; exact hret⟩

/-- With unique ids, the connection of an owned id is the client's own. -/
theorem Bound.own_of_connID (hB : Bound cfg y) (hU : Unique y.server) {cl c : Nat}
    {connID : UInt32} {cc : ClientConn} (hown : y.owns cl connID = true)
    (hcc : y.server.conns[c]? = some cc) (hid : cc.connID = connID) :
    y.OwnRemote cl connID cc := by
  obtain ⟨d, dd, hdd, hdid, hremote⟩ := hB.own_remote hown
  obtain rfl := hU.conn_eq hcc hdd (hid.trans hdid.symm)
  exact hremote

/-- Ownership of a remote survives what keeps its dialer. -/
theorem OwnRemote.mono {cl : Nat} {connID : UInt32} {cc cc' : ClientConn}
    (hremote : y.OwnRemote cl connID cc) (hby : cc'.dialedBy = cc.dialedBy)
    (hcalls : ∀ (h : Nat) (x : Nat × Call), y.calls[h]? = some x → y'.calls[h]? = some x)
    (hret : ∀ h ∈ y.returned, h ∈ y'.returned) : y'.OwnRemote cl connID cc' := by
  obtain ⟨⟨req, hcall⟩, hmem⟩ := hremote
  rw [← hby] at hcall hmem
  exact ⟨⟨req, hcalls _ _ hcall⟩, hret _ hmem⟩

/-- Calls and returned ids grow while the server stands still. -/
theorem Isolated.grow (hI : Isolated y) (hserver : y'.server.conns = y.server.conns)
    (hcalls : ∀ (h : Nat) (x : Nat × Call), y.calls[h]? = some x → y'.calls[h]? = some x)
    (hret : ∀ h ∈ y.returned, h ∈ y'.returned)
    (hdown : ∀ (h : Nat) (hd : Handler) (cl : Nat) (connID : UInt32),
      y'.server.handlers[h]? = some hd → y'.calls[h]? = some (cl, .download connID) →
      (y.server.handlers[h]? = some hd ∧ y.calls[h]? = some (cl, .download connID)) ∨
        hd.sent = [] ∧ ∃ (c : Nat) (cc : ClientConn), y.server.conns[c]? = some cc ∧
          y.OwnRemote cl connID cc) : Isolated y' where
  upload c cc h bytes hcc hmem := by
    rw [hserver] at hcc
    obtain ⟨cl, connID, data, hcall, hpre, hremote⟩ := hI.upload c cc h bytes hcc hmem
    exact ⟨cl, connID, data, hcalls h _ hcall, hpre, hremote.mono rfl hcalls hret⟩
  download h hd cl connID hh hcall := by
    rw [hserver]
    rcases hdown h hd cl connID hh hcall with ⟨hold, hcall'⟩ | ⟨hnone, c, cc, hcc, hremote⟩
    · obtain ⟨c, cc, hcc, hremote, hsent⟩ := hI.download h hd cl connID hold hcall'
      exact ⟨c, cc, hcc, hremote.mono rfl hcalls hret, hsent⟩
    · refine ⟨c, cc, hcc, hremote.mono rfl hcalls hret, ?_⟩
      rw [hnone]
      exact nofun

/-- A new call has not been sent anything yet. -/
theorem Isolated.ask (hI : Isolated y) (hB : Bound cfg y) {cl : Nat} {call : Call} (nonce : Nonce)
    (huses : ∀ connID, call.uses = some connID → y.owns cl connID = true) :
    Isolated (y.ask cfg cl call nonce) := by
  refine hI.grow rfl (fun _ _ hx => pool_snoc_old hx) (fun _ hk => hk) ?_
  intro h hd cl' connID hh hcall
  rcases hB.ask_cases hh hcall with hold | ⟨rfl, hnew⟩
  · exact Or.inl hold
  · cases hnew
    obtain ⟨c, cc, hcc, -, hremote⟩ := hB.own_remote (huses connID rfl)
    exact Or.inr ⟨start_sent cfg _, c, cc, hcc, hremote⟩

/-- A step of the server sends data only where it belongs. -/
theorem Isolated.serve (hI : Isolated y) (hB : Bound cfg y) (hU : Unique y.server) {b : Dpi.Act}
    {s : Server} (hs : Dpi.Step cfg y.server b s) : Isolated { y with server := s } where
  upload c cc h bytes hcc hmem := by
    -- the bytes were written before, or by this step
    rcases written_step hs hcc hmem with ⟨cc₀, hcc₀, hold⟩ | ⟨hd, connID, payload, hh, hpc, hpre⟩
    · obtain ⟨cc', hcc', hev⟩ := conn_evolves hs hcc₀
      rw [hcc] at hcc'
      cases hcc'
      obtain ⟨cl, connID, data, hcall, hpre, hremote⟩ := hI.upload c cc₀ h bytes hcc₀ hold
      exact ⟨cl, connID, data, hcall, hpre, hremote.mono hev.dialedBy (fun _ _ hx => hx)
        fun _ hk => hk⟩
    · -- the writing handler serves a `SendData` of a client that owns the id
      obtain ⟨cl, call, hcall⟩ := hB.exists_call hh
      have hat := hB.serves h hd cl call hh hcall
      rw [hpc] at hat
      obtain ⟨cc₀, hcc₀, hid⟩ := hB.wellFormed.target h hd connID c hh (by rw [hpc]; rfl)
      obtain ⟨cc', hcc', hev⟩ := conn_evolves hs hcc₀
      rw [hcc] at hcc'
      cases hcc'
      cases call with
      | sendData id data =>
        obtain ⟨rfl, rfl⟩ : connID = id ∧ payload = data := hat
        have hown := hB.asked h cl _ connID hcall rfl
        have hremote := hB.own_of_connID hU hown hcc₀ hid
        exact ⟨cl, connID, payload, hcall, hpre, hremote.mono hev.dialedBy (fun _ _ hx => hx)
          fun _ hk => hk⟩
      | connect _ _ => exact hat.elim
      | closeConn _ => exact hat.elim
      | download _ => exact hat.elim
  download h hd cl connID hh hcall := by
    have hown := hB.asked h cl _ connID hcall rfl
    -- with unique ids the download can only have met this connection
    obtain ⟨c, cc₀, hcc₀, hid, hremote⟩ := hB.own_remote hown
    obtain ⟨cc, hcc, hev⟩ := conn_evolves hs hcc₀
    refine ⟨c, cc, hcc, hremote.mono hev.dialedBy (fun _ _ hx => hx) fun _ hk => hk, ?_⟩
    intro frame hframe
    refine hev.received.subset ?_
    rcases sent_step hs hh hframe with ⟨gd, hg, hold⟩ | ⟨gd, id, d, hg, hpc⟩
    · -- a frame written before came from the one connection with this id
      obtain ⟨d, dd, hdd, hremote', hsent⟩ := hI.download h gd cl connID hg hcall
      obtain ⟨cl', req', hdialed⟩ := hB.dialed d dd hdd
      obtain ⟨⟨req, hcall'⟩, -⟩ := hremote'
      rw [hdialed] at hcall'
      have hdid : dd.connID = connID := by cases hcall'; rfl
      obtain rfl := hU.conn_eq hdd hcc₀ (hdid.trans hid.symm)
      exact hsent frame hold
    · -- a frame written now was in the hand of the download, which works on that connection
      have hat := hB.serves h gd cl _ hg hcall
      rw [hpc] at hat
      have hid' : id = connID := hat
      obtain ⟨dd, hdd, hdid⟩ := hB.wellFormed.target h gd id d hg (by rw [hpc]; rfl)
      have hcd := hU d c dd cc₀ hdd hcc₀ (hdid.trans (hid'.trans hid.symm))
      subst hcd
      obtain ⟨dd', hdd', hdata⟩ := hB.traced.inHand h gd id d frame.2 hg hpc
      rw [hcc₀] at hdd'
      cases hdd'
      exact hdata

theorem Isolated.preserved (hI : Isolated y) (hB : Bound cfg y) (hU : Unique y.server)
    (hs : Step cfg y a y') : Isolated y' := by
  cases hs with
  | spent _ _ => exact ⟨hI.upload, hI.download⟩
  | connected cl req nonce =>
    have hI' : Isolated { y with
        transports := Function.update y.transports cl (y.transports cl).nextConnID.2 } :=
      ⟨hI.upload, hI.download⟩
    refine hI'.ask (hB.setTransports (keys_update hB rfl)) nonce ?_
    intro connID hu
    cases hu
  | asked huses howns =>
    refine hI.ask hB _ fun connID hu => ?_
    rw [huses] at hu
    cases hu
    exact howns
  -- a `Connect` that returns only adds to what is owned
  | returned _ _ _ =>
    refine hI.grow rfl (fun _ _ hx => hx) ?_ fun _ _ _ _ hh hc => Or.inl ⟨hh, hc⟩
    intro k hk
    dsimp only
    split
    · exact List.mem_append_left _ hk
    · exact hk
  | served _ hs => exact hI.serve hB hU hs

end Bound

/-- In every run in which each `Connect` is registered under an id that was not registered before,
clients are isolated from each other. -/
theorem tenants_isolated (cfg : Config) (scheme host : List Char) (acts : List Act) (y : Tenants)
    (hok : Meets (step cfg) (fun y a => y.freshID a = true) (new cfg scheme host) acts)
    (hrun : exec (step cfg) (new cfg scheme host) acts = some y) : Isolated y := by
  have hinit : Bound cfg (new cfg scheme host) ∧ Unique (new cfg scheme host).server ∧
      Isolated (new cfg scheme host) :=
    ⟨bound_new cfg scheme host, fun _ _ _ _ hcc => (by cases hcc),
      ⟨fun _ _ _ _ hcc => (by cases hcc), fun _ _ _ _ hh => (by cases hh)⟩⟩
  -- the three invariants go together: isolation needs the other two at every step
  have hinv : Bound cfg y ∧ Unique y.server ∧ Isolated y := by
    refine exec_invariant (I := fun y => Bound cfg y ∧ Unique y.server ∧ Isolated y) ?_ acts _ y
      hinit hok hrun
    rintro y a y' ⟨hB, hU, hI⟩ ha hs
    have hs' := step_cases hs
    exact ⟨hB.preserved hs', hU.preserved ha hs', hI.preserved hB hU hs'⟩
  exact hinv.2.2

/-- Client `cl` connects through handler `h` and gets its id. -/
def connectAs (cl h : Nat) (address : Bytes) : List Act :=
  [.connect cl ⟨[116], address⟩ (some .zero), .server (.handler h (.dial true)), .returns h]

/-- Two clients with a connection each. `Encrypt` fails in the first `Connect` of client 1, so that
its second one is under the id 2. -/
def connectBoth : List Act :=
  connectAs 0 0 [97] ++ [.connect 1 ⟨[116], [98]⟩ none] ++ connectAs 1 1 [98]

/-- Both clients send data and download, with the steps of one between those of the other. -/
def talkBoth : List Act :=
  [.sendData 0 1 [5] .zero, .sendData 1 2 [6] .zero, .download 0 1, .download 1 2,
    .server (.handler 2 .lookup), .server (.handler 3 .lookup),
    .server (.handler 3 (.write 1 true)), .server (.handler 2 (.write 1 true)),
    .server (.handler 5 .lookup), .server (.handler 4 .lookup),
    .server (.reader 0 (.read [7] none)), .server (.reader 1 (.read [8] none)),
    .server (.reader 1 .send), .server (.reader 0 .send),
    .server (.handler 4 .receive), .server (.handler 5 .receive),
    .server (.handler 4 (.emit (some .zero) true)), .server (.handler 5 (.emit (some .zero) true))]

/-- Each client's data went to its own remote, and each download carries that remote's answer. -/
theorem tenants_isolated_two_clients :
    ∃ y, exec (step .plain) (new .plain [] []) (connectBoth ++ talkBoth) = some y ∧
      (y.calls.map fun c => (c.1, c.2.uses)) =
        [(0, none), (1, none), (0, some 1), (1, some 2), (0, some 1), (1, some 2)] ∧
      (y.server.conns.map fun cc => (cc.dialedBy, cc.written)) =
        [(0, [(2, [5])]), (1, [(3, [6])])] ∧
      (y.server.handlers.map fun hd => hd.sent.map Prod.snd) = [[], [], [], [], [[7]], [[8]]] ∧
      Isolated y := by
  apply exec_reaches (P := fun y : Tenants =>
    (y.calls.map fun c => (c.1, c.2.uses)) =
        [(0, none), (1, none), (0, some 1), (1, some 2), (0, some 1), (1, some 2)] ∧
      (y.server.conns.map fun cc => (cc.dialedBy, cc.written)) =
        [(0, [(2, [5])]), (1, [(3, [6])])] ∧
      (y.server.handlers.map fun hd => hd.sent.map Prod.snd) = [[], [], [], [], [[7]], [[8]]])
  · decide +kernel
  · rintro y hy ⟨hcalls, hwritten, hsent⟩
    exact ⟨hcalls, hwritten, hsent, tenants_isolated .plain [] [] _ y (by decide +kernel) hy⟩

/-- Two clients connect once each, both under id 1; what the first one sends is written to the
remote of the second. -/
theorem tenants_share_a_remote :
    ∃ y, exec (step .plain) (new .plain [] []) (connectAs 0 0 [97] ++ connectAs 1 1 [98] ++
        [.sendData 0 1 [5] .zero, .server (.handler 2 .lookup),
          .server (.handler 2 (.write 1 true))]) = some y ∧
      y.calls[2]? = some (0, .sendData 1 [5]) ∧
      y.calls[1]? = some (1, .connect 1 ⟨[116], [98]⟩) ∧
      y.server.conns.map (fun cc => (cc.dialedBy, cc.written)) = [(0, []), (1, [(2, [5])])] ∧
      ¬ Isolated y := by
  apply exec_reaches (P := fun y : Tenants => y.calls[2]? = some (0, .sendData 1 [5]) ∧
    y.calls[1]? = some (1, .connect 1 ⟨[116], [98]⟩) ∧
    y.server.conns.map (fun cc => (cc.dialedBy, cc.written)) = [(0, []), (1, [(2, [5])])])
  · decide +kernel
  rintro y - ⟨hsend, hconn, hwritten⟩
  refine ⟨hsend, hconn, hwritten, fun hI => ?_⟩
  -- the second connection was dialed for client 1 and carries data of client 0
  obtain ⟨cc, hcc, hpair⟩ : ∃ cc, y.server.conns[1]? = some cc ∧
      (cc.dialedBy, cc.written) = (1, [(2, [5])]) := by
    have hget := congrArg (fun l => l[1]?) hwritten
    simp only [List.getElem?_map] at hget
    exact Option.map_eq_some_iff.mp hget
  obtain ⟨hby, hwr⟩ := Prod.mk.inj hpair
  obtain ⟨cl, connID, data, hcall, -, ⟨req, hown⟩, -⟩ :=
    hI.upload 1 cc 2 [5] hcc (by rw [hwr]; exact List.mem_singleton_self _)
  rw [hsend] at hcall
  rw [hby, hconn] at hown
  cases hcall
  cases hown

end Tenants

end PTBridge.Dpi
