import PTBridge.Dpi.Client.TunnelWrite

/-!
# `dpi/client/dns_resolver.go` and `dpi/client/proxy.go`: the callers of `Connect`

`exchange`, the closure of `tunnelDialContext` and `handleHTTPProxy` open a connection on the server
with `Connect` and make a `tunnelConn` for it with `newTunnelConn`. From then on the `tunnelConn`'s
`Close` tells the server that the connection is over; before that, and when `newTunnelConn` fails,
only a call of `CloseConn` does. Any number of calls share one `Transport`.

- `callStep` is the code of a call, `step` that of all of them; a call's `tunnelConn` moves by the
  steps of `TunnelWriter`. `CallStep` and `callStep_cases` list what a step of a call can do.
- `ConnectCall.Released`: the connection was handed out as an open `tunnelConn`, or `CloseConn` was
  called for it.
- `caller_releases_iff`: a call that returns has released its connection unless it returns by one of
  the exits of `leaks`.
-/

namespace PTBridge.Dpi

open PTBridge.Stream PTBridge.Transition

/-! ## What is dialed -/

/-- `"tcp"` -/
def tcp : Bytes := [116, 99, 112]

/-- `"udp"` -/
def udp : Bytes := [117, 100, 112]

/-- `tunnelNetwork`: a final 4 or 6 is dropped. -/
def tunnelNetwork (network : Bytes) : Option Bytes :=
  if network = tcp ∨ network = tcp ++ [52] ∨ network = tcp ++ [54] then some tcp
  else if network = udp ∨ network = udp ++ [52] ∨ network = udp ++ [54] then some udp
  else none

/-- What `handleHTTPProxy` reads of a request. -/
structure ProxyRequest where
  method : Method
  host : Bytes

/-- The host of a `CONNECT` request, with `:443` if it has no port. -/
def ProxyRequest.address (req : ProxyRequest) : Bytes :=
  if 58 ∈ req.host then req.host else req.host ++ [58, 52, 52, 51]

/-- The errors of the goroutine that reads the reply to a DNS query. -/
inductive AnswerError where
  | read
  /-- a length of zero -/
  | empty
  | unpack
  deriving DecidableEq

/-- How a call ends. -/
inductive Exit where
  | unsupportedNetwork
  /-- `http.ReadRequest` failed -/
  | readRequest
  /-- the reply is 405 -/
  | methodNotAllowed
  /-- `Connect` failed; the reply of `handleHTTPProxy` is 502 -/
  | connect (err : TransportError)
  /-- writing the 200 reply failed -/
  | reply
  /-- `newTunnelConn` failed -/
  | stream (err : TransportError)
  | pack
  | queryTooLarge
  | writeQuery
  | ctxDone
  | timedOut
  | answered (answer : Except AnswerError Bytes)
  /-- one direction of the copying has ended -/
  | copied
  deriving DecidableEq

/-- A function that calls `Connect`, and what it is called with. -/
inductive Caller where
  /-- `tunneledResolver.exchange`, with the resolver's `network` and `upstream` -/
  | exchange (network upstream : Bytes)
  /-- the closure of `tunnelDialContext` -/
  | dialContext (network addr : Bytes)
  /-- `handleHTTPProxy`, with what `http.ReadRequest` returned -/
  | httpProxy (req : Option ProxyRequest)

/-- The code before `Connect`: what to connect to, or why not. -/
def Caller.target : Caller → Except Exit ConnectRequest
  | .exchange network upstream => .ok ⟨network, upstream⟩
  | .dialContext network addr =>
      match tunnelNetwork network with
      | none => .error .unsupportedNetwork
      | some network => .ok ⟨network, addr⟩
  | .httpProxy none => .error .readRequest
  | .httpProxy (some req) =>
      if req.method ≠ .connect then .error .methodNotAllowed else .ok ⟨tcp, req.address⟩

/-- What `exchangeTCP` or `exchangeUDP` writes for a query; over TCP the length comes first. -/
def queryFrame (network query : Bytes) : Option Bytes :=
  if network = tcp then
    if 0xffff < query.length then none else some (putUint16 (UInt16.ofNat query.length) ++ query)
  else some query

/-! ## State -/

/-- Where a call stands that has its `tunnelConn`. -/
inductive HoldPc where
  /-- before `msg.Pack()` -/
  | packing
  /-- in `tc.Write` -/
  | writing (k : Nat)
  /-- at the select for the answer -/
  | awaiting
  /-- at `<-errCh` -/
  | copying
  /-- in the deferred `Close` -/
  | closing (k : Nat) (e : Exit)
  | returned (e : Exit)
  /-- returned, with the `tunnelConn` -/
  | handedOut
  deriving DecidableEq

def HoldPc.hasReturned : HoldPc → Bool
  | .returned _ | .handedOut => true
  | _ => false

/-- Where a call stands. -/
inductive CallPc where
  /-- in `Connect`, with the id of the request -/
  | connecting (connID : UInt32) (req : ConnectRequest)
  /-- before the 200 reply is written -/
  | replying
  /-- in `newTunnelConn` -/
  | opening
  /-- before `CloseConn`, after `newTunnelConn` failed -/
  | closingConn (err : TransportError)
  | holding (conn : TunnelWriter) (pc : HoldPc)
  /-- returned, without a `tunnelConn` -/
  | returned (e : Exit)

structure ConnectCall where
  caller : Caller
  pc : CallPc
  /-- What `Connect` returned. -/
  connID : Option UInt32
  /-- The caller itself has called `CloseConn(connID)`. -/
  closeConn : Bool

/-- The calls that share a `Transport`. -/
structure Client where
  transport : Transport
  calls : List ConnectCall

namespace ConnectCall

def hasReturned (c : ConnectCall) : Bool :=
  match c.pc with
  | .returned _ => true
  | .holding _ pc => pc.hasReturned
  | _ => false

/-- Whether a call has returned does not depend on the state of its `tunnelConn`. -/
theorem hasReturned_holding {c : ConnectCall} {conn : TunnelWriter} {pc : HoldPc}
    (hpc : c.pc = .holding conn pc) : c.hasReturned = pc.hasReturned := by
  rw [hasReturned, hpc]

/-- The caller has returned a `tunnelConn` that nobody has begun to close. -/
def handsOut (c : ConnectCall) : Bool :=
  match c.pc with
  | .holding conn .handedOut => decide (conn.closeOnce = .idle)
  | _ => false

/-- `CloseConn(connID)` was called, by the caller or by the `Close` of its `tunnelConn`. -/
def closeCalled (c : ConnectCall) : Bool :=
  c.closeConn ||
    match c.pc with
    | .holding conn _ => conn.closeCalled
    | _ => false

def Released (c : ConnectCall) : Prop := c.handsOut = true ∨ c.closeCalled = true

instance (c : ConnectCall) : Decidable c.Released :=
  inferInstanceAs (Decidable (c.handsOut = true ∨ c.closeCalled = true))

end ConnectCall

/-! ## Steps -/

inductive CallMove where
  /-- the answer to the request of `Connect` -/
  | connect (answer : Except TransportError Response)
  /-- `resp.Write(conn)` of the 200 reply returns -/
  | reply (isOk : Bool)
  /-- `DownloadStream` returns -/
  | stream (err : Option TransportError)
  | closeConn
  /-- `msg.Pack()` returns -/
  | pack (query : Option Bytes)
  /-- `tc.Write` has returned -/
  | wrote
  | ctxDone
  | timeout
  | answer (answer : Except AnswerError Bytes)
  /-- `err = <-errCh` -/
  | copied
  /-- the deferred `Close` has returned -/
  | leave
  /-- the goroutines of the `tunnelConn` and those that use it -/
  | conn (a : TunnelWriter.Act)

/-- The caller returns with `e`, and its deferred `Close` is called first. -/
def CallPc.deferClose (conn : TunnelWriter) (e : Exit) : CallPc :=
  .holding { conn with closers := conn.closers ++ [.entering] } (.closing conn.closers.length e)

/-- `tc.Write(b)` is called. -/
def CallPc.callWrite (conn : TunnelWriter) (b : Bytes) : CallPc :=
  .holding { conn with writes := conn.writes ++ [⟨b, .queueing, []⟩] } (.writing conn.writes.length)

/-- What a caller does with the `tunnelConn` that `newTunnelConn` has returned. -/
def Caller.hold : Caller → HoldPc
  | .exchange _ _ => .packing
  | .dialContext _ _ => .handedOut
  | .httpProxy _ => .copying

/-- What a caller does when `newTunnelConn` has failed: `exchange` alone calls `CloseConn`. -/
def Caller.giveUp (err : TransportError) : Caller → CallPc
  | .exchange _ _ => .closingConn err
  | .dialContext _ _ | .httpProxy _ => .returned (.stream err)

/-- What a caller does once `Connect` has returned. -/
def Caller.connected : Caller → CallPc
  | .exchange _ _ | .dialContext _ _ => .opening
  | .httpProxy _ => .replying

/-- A step of `exchange` or `handleHTTPProxy` with its `tunnelConn`. -/
def holdStep (caller : Caller) (conn : TunnelWriter) (pc : HoldPc) (m : CallMove) : Option CallPc :=
  match pc, m with
  | .packing, .pack query =>
      match caller, query with
      | .exchange network _, some query =>
          match queryFrame network query with
          | none => some (.deferClose conn .queryTooLarge)
          | some frame => some (.callWrite conn frame)
      | _, _ => some (.deferClose conn .pack)
  | .writing k, .wrote =>
      match conn.writes[k]? with
      | some ⟨_, .returned (.ok _), _⟩ => some (.holding conn .awaiting)
      | some ⟨_, .returned _, _⟩ => some (.deferClose conn .writeQuery)
      | _ => none
  | .awaiting, .ctxDone => some (.deferClose conn .ctxDone)
  | .awaiting, .timeout => some (.deferClose conn .timedOut)
  | .awaiting, .answer answer => some (.deferClose conn (.answered answer))
  | .copying, .copied => some (.deferClose conn .copied)
  | .closing k e, .leave =>
      if conn.closers[k]? = some .returned then some (.holding conn (.returned e)) else none
  | pc, .conn a => (conn.step a).map fun conn => .holding conn pc
  | _, _ => none

def callStep (t : Transport) (c : ConnectCall) (m : CallMove) : Option (Transport × ConnectCall) :=
  match c.pc, m with
  | .connecting connID req, .connect answer =>
      let reply := t.connectReply connID answer
      match reply.1 with
      | .returned connID =>
          some (reply.2, { c with pc := c.caller.connected, connID := some connID })
      | .failed err => some (reply.2, { c with pc := .returned (.connect err) })
      | .redirected =>
          let next := reply.2.nextConnID
          some (next.2, { c with pc := .connecting next.1 req })
  | .replying, .reply isOk =>
      some (t, { c with pc := if isOk then .opening else .returned .reply })
  | .opening, .stream none => some (t, { c with pc := .holding .new c.caller.hold })
  | .opening, .stream (some err) => some (t, { c with pc := c.caller.giveUp err })
  | .closingConn err, .closeConn =>
      some (t, { c with pc := .returned (.stream err), closeConn := true })
  | .holding conn pc, m => (holdStep c.caller conn pc m).map fun pc => (t, { c with pc := pc })
  | _, _ => none

namespace Client

inductive Act where
  | call (caller : Caller)
  | move (k : Nat) (m : CallMove)

def new (t : Transport) : Client := ⟨t, []⟩

def step (s : Client) : Act → Option Client
  | .call caller =>
      match caller.target with
      | .error e => some { s with calls := s.calls ++ [⟨caller, .returned e, none, false⟩] }
      | .ok req =>
          let next := s.transport.nextConnID
          some ⟨next.2, s.calls ++ [⟨caller, .connecting next.1 req, none, false⟩]⟩
  | .move k m =>
      match s.calls[k]? with
      | none => none
      | some c => (callStep s.transport c m).map fun r => ⟨r.1, s.calls.set k r.2⟩

end Client

/-! ## What a step of a call can do -/

/-- The deferred `Close` is still to be called. -/
def HoldPc.inBody : HoldPc → Bool
  | .packing | .writing _ | .awaiting | .copying => true
  | .closing _ _ | .returned _ | .handedOut => false

/-- The steps of a call with its `tunnelConn`. -/
inductive HoldStep (conn : TunnelWriter) (pc : HoldPc) : CallMove → CallPc → Prop where
  | deferred {m e} (hpc : pc.inBody = true) : HoldStep conn pc m (.deferClose conn e)
  | called {query frame} (hpc : pc = .packing) :
      HoldStep conn pc (.pack (some query)) (.callWrite conn frame)
  | wrote {k} (hpc : pc = .writing k) : HoldStep conn pc .wrote (.holding conn .awaiting)
  | left {k e} (hpc : pc = .closing k e) (hk : conn.closers[k]? = some .returned) :
      HoldStep conn pc .leave (.holding conn (.returned e))
  | moved {a conn'} (ha : conn.step a = some conn') : HoldStep conn pc (.conn a) (.holding conn' pc)

/-- The steps of a call, one case for each branch of the code. -/
inductive CallStep (t : Transport) (c : ConnectCall) :
    CallMove → Transport → ConnectCall → Prop where
  | connected {old req answer t' connID} (hpc : c.pc = .connecting old req) :
      CallStep t c (.connect answer) t'
        { c with pc := c.caller.connected, connID := some connID }
  | refused {old req answer t' err} (hpc : c.pc = .connecting old req) :
      CallStep t c (.connect answer) t' { c with pc := .returned (.connect err) }
  | redirected {old req answer t' connID} (hpc : c.pc = .connecting old req) :
      CallStep t c (.connect answer) t' { c with pc := .connecting connID req }
  | replied (hpc : c.pc = .replying) : CallStep t c (.reply true) t { c with pc := .opening }
  | replyFailed (hpc : c.pc = .replying) :
      CallStep t c (.reply false) t { c with pc := .returned .reply }
  | opened (hpc : c.pc = .opening) :
      CallStep t c (.stream none) t { c with pc := .holding .new c.caller.hold }
  | gaveUp {err} (hpc : c.pc = .opening) :
      CallStep t c (.stream (some err)) t { c with pc := c.caller.giveUp err }
  | closed {err} (hpc : c.pc = .closingConn err) :
      CallStep t c .closeConn t { c with pc := .returned (.stream err), closeConn := true }
  | held {conn pc m pc'} (hpc : c.pc = .holding conn pc) (hstep : HoldStep conn pc m pc') :
      CallStep t c m t { c with pc := pc' }

theorem holdStep_cases {caller : Caller} {conn : TunnelWriter} {pc : HoldPc} {m : CallMove}
    {pc' : CallPc} (h : holdStep caller conn pc m = some pc') : HoldStep conn pc m pc' := by
  unfold holdStep at h
  split at h
  · split at h
    · split at h
      · cases h
        exact .deferred rfl
      · cases h
        exact .called rfl
    · cases h
      exact .deferred rfl
  · split at h
    · cases h
      exact .wrote rfl
    · cases h
      exact .deferred rfl
    · cases h
  · cases h
    exact .deferred rfl
  · cases h
    exact .deferred rfl
  · cases h
    exact .deferred rfl
  · cases h
    exact .deferred rfl
  · split at h
    · rename_i hk
      cases h
      exact .left rfl hk
    · cases h
  · obtain ⟨conn', ha, rfl⟩ := Option.map_eq_some_iff.mp h
    exact .moved ha
  · cases h

variable {t t' : Transport} {c c' : ConnectCall} {m : CallMove}

theorem callStep_cases (h : callStep t c m = some (t', c')) : CallStep t c m t' c' := by
  unfold callStep at h
  split at h
  · rename_i hpc
    dsimp only at h
    split at h
    · cases h
      exact .connected hpc
    · cases h
      exact .refused hpc
    · cases h
      exact .redirected hpc
  · rename_i isOk hpc
    cases h
    cases isOk with
    | true => exact .replied hpc
    | false => exact .replyFailed hpc
  · rename_i hpc
    cases h
    exact .opened hpc
  · rename_i hpc
    cases h
    exact .gaveUp hpc
  · rename_i hpc
    cases h
    exact .closed hpc
  · rename_i conn pc _ hpc
    obtain ⟨pc', hstep, heq⟩ := Option.map_eq_some_iff.mp h
    cases heq
    exact .held hpc (holdStep_cases hstep)
  · cases h

/-! ## Release -/

/-- What holds of a call at any time: its `tunnelConn` is in a state that `Close` leaves it in, the
caller's own `CloseConn` comes last, and `Connect` is the first to name an id. -/
structure CallOk (c : ConnectCall) : Prop where
  conn : ∀ conn pc, c.pc = .holding conn pc → conn.CloseOk
  closed : c.closeConn = true → ∃ e, c.pc = .returned e
  unopened : ∀ connID req, c.pc = .connecting connID req → c.connID = none

theorem CallOk.of_returned {e : Exit} (hpc : c.pc = .returned e) : CallOk c where
  conn := by simp [hpc]
  closed := fun _ => ⟨e, hpc⟩
  unopened := by simp [hpc]

/-- A call without a `tunnelConn` that has called `CloseConn` not yet. -/
theorem CallOk.of_bare (hno : c.closeConn = false) (hconn : ∀ conn pc, c.pc ≠ .holding conn pc)
    (hunopened : ∀ connID req, c.pc = .connecting connID req → c.connID = none) : CallOk c where
  conn := fun conn pc hpc => absurd hpc (hconn conn pc)
  closed := by simp [hno]
  unopened := hunopened

/-- Only a call that has returned has called `CloseConn` itself. -/
theorem CallOk.not_closed (h : CallOk c) (hpc : ∀ e, c.pc ≠ .returned e) : c.closeConn = false := by
  cases hclosed : c.closeConn with
  | false => rfl
  | true =>
    obtain ⟨e, he⟩ := h.closed hclosed
    exact absurd he (hpc e)

/-- A call goes on with a `tunnelConn` that `Close` can be in the middle of. -/
theorem CallOk.hold (hno : c.closeConn = false) {conn : TunnelWriter} (hconn : conn.CloseOk)
    (pc : HoldPc) : CallOk { c with pc := .holding conn pc } where
  conn := by
    intro conn' pc' heq
    cases heq
    exact hconn
  closed := by simp [hno]
  unopened := by simp

theorem callOk_step (h : CallOk c) (hstep : CallStep t c m t' c') : CallOk c' := by
  cases hstep with
  | connected hpc =>
    have hno := h.not_closed (by simp [hpc])
    refine CallOk.of_bare hno ?_ ?_
    · cases hcaller : c.caller <;> simp [Caller.connected]
    · cases hcaller : c.caller <;> simp [Caller.connected]
  | refused hpc => exact .of_returned rfl
  | redirected hpc =>
    have hno := h.not_closed (by simp [hpc])
    exact .of_bare hno (by simp) fun _ _ _ => h.unopened _ _ hpc
  | replied hpc =>
    have hno := h.not_closed (by simp [hpc])
    exact .of_bare hno (by simp) (by simp)
  | replyFailed hpc => exact .of_returned rfl
  | opened hpc =>
    have hno := h.not_closed (by simp [hpc])
    exact .hold hno TunnelWriter.closeOk_new _
  | gaveUp hpc =>
    have hno := h.not_closed (by simp [hpc])
    refine CallOk.of_bare hno ?_ ?_
    · cases hcaller : c.caller <;> simp [Caller.giveUp]
    · cases hcaller : c.caller <;> simp [Caller.giveUp]
  | closed hpc => exact .of_returned rfl
  | held hpc hhold =>
    have hno := h.not_closed (by simp [hpc])
    have hconn := h.conn _ _ hpc
    cases hhold with
    | deferred => exact .hold hno (TunnelWriter.closeOk_step hconn .closeCalls) _
    | called => exact .hold hno (TunnelWriter.closeOk_step hconn .wrote) _
    | wrote => exact .hold hno hconn _
    | left => exact .hold hno hconn _
    | moved ha => exact .hold hno (TunnelWriter.closeOk_step hconn (TunnelWriter.step_cases ha)) _

namespace ConnectCall

/-- The exits that forget the connection: the 200 reply could not be written, or `newTunnelConn`
failed for a caller other than `exchange`. -/
def leaks (c : ConnectCall) : CallMove → Bool
  | .reply isOk => !isOk
  | .stream (some _) =>
      match c.caller with
      | .exchange _ _ => false
      | .dialContext _ _ | .httpProxy _ => true
  | _ => false

/-- A call that returns without a `tunnelConn` can only have called `CloseConn` itself. -/
theorem not_released_of_returned {e : Exit} (hpc : c.pc = .returned e) (hno : c.closeConn = false) :
    ¬ c.Released := by
  simp [Released, handsOut, closeCalled, hpc, hno]

theorem released_of_closeCalled {conn : TunnelWriter} {pc : HoldPc} (hpc : c.pc = .holding conn pc)
    (hcalled : conn.closeCalled = true) : c.Released := by
  simp [Released, closeCalled, hpc, hcalled]

theorem released_of_handedOut (hpc : c.pc = .holding .new .handedOut) : c.Released := by
  simp [Released, handsOut, hpc, TunnelWriter.new]

/-- At the step by which a call returns, its connection is released unless the step leaks it. -/
theorem released_iff (hstep : CallStep t c m t' c') (h : CallOk c)
    (hrunning : c.hasReturned = false) (hreturned : c'.hasReturned = true)
    (hopened : c'.connID ≠ none) : c'.Released ↔ c.leaks m = false := by
  cases hstep with
  | connected hpc =>
    cases hcaller : c.caller <;> simp [hasReturned, Caller.connected, hcaller] at hreturned
  | refused hpc => exact absurd (h.unopened _ _ hpc) hopened
  | redirected | replied => cases hreturned
  | replyFailed hpc =>
    have hno := h.not_closed (by simp [hpc])
    exact iff_of_false (not_released_of_returned rfl hno) (by simp [leaks])
  | opened hpc =>
    -- a call returns here only with the new connection in hand
    cases hcaller : c.caller with
    | dialContext => exact iff_of_true (released_of_handedOut rfl) rfl
    | exchange | httpProxy =>
      simp [hasReturned, HoldPc.hasReturned, Caller.hold, hcaller] at hreturned
  | gaveUp hpc =>
    have hno := h.not_closed (by simp [hpc])
    cases hcaller : c.caller with
    | exchange => simp [hasReturned, Caller.giveUp, hcaller] at hreturned
    | dialContext | httpProxy =>
      apply iff_of_false
      · exact not_released_of_returned rfl hno
      · simp [leaks, hcaller]
  | closed => exact iff_of_true (Or.inr rfl) rfl
  | held hpc hhold =>
    have hconn := h.conn _ _ hpc
    cases hhold with
    | deferred | called | wrote => cases hreturned
    | left hclosing hk =>
      -- the deferred `Close` has returned, so some call of `Close` went all the way
      have hcalled := hconn.finished (hconn.returned (List.mem_of_getElem? hk))
      exact iff_of_true (released_of_closeCalled rfl hcalled) rfl
    | moved ha =>
      -- the connection's own steps leave the caller where it is
      rw [hasReturned_holding rfl, ← hasReturned_holding hpc, hrunning] at hreturned
      cases hreturned

end ConnectCall

namespace Client

variable {s s' : Client} {a : Act} {k : Nat}

theorem callsOk_step (h : ∀ c ∈ s.calls, CallOk c) (hstep : step s a = some s') :
    ∀ c ∈ s'.calls, CallOk c := by
  cases a with
  | call caller =>
    simp only [step] at hstep
    split at hstep
    · cases hstep
      intro c hc
      rcases List.mem_append.mp hc with hold | hnew
      · exact h c hold
      · cases List.mem_singleton.mp hnew
        exact .of_returned rfl
    · cases hstep
      intro c hc
      rcases List.mem_append.mp hc with hold | hnew
      · exact h c hold
      · cases List.mem_singleton.mp hnew
        exact .of_bare rfl (by simp) fun _ _ _ => rfl
  | move k m =>
    simp only [step] at hstep
    split at hstep
    · cases hstep
    · rename_i c hk
      obtain ⟨⟨t', c'⟩, hcall, rfl⟩ := Option.map_eq_some_iff.mp hstep
      intro x hx
      rcases List.mem_or_eq_of_mem_set hx with hold | rfl
      · exact h x hold
      · exact callOk_step (h c (List.mem_of_getElem? hk)) (callStep_cases hcall)

/-- A step changes a call only by a step of the call. -/
theorem call_step {c c' : ConnectCall} (hstep : step s a = some s') (hc : s.calls[k]? = some c)
    (hc' : s'.calls[k]? = some c') :
    c' = c ∨ ∃ m, a = .move k m ∧ callStep s.transport c m = some (s'.transport, c') := by
  cases a with
  | call caller =>
    left
    have hold : s'.calls[k]? = some c := by
      simp only [step] at hstep
      split at hstep <;> cases hstep <;> exact pool_snoc_old hc
    rw [hold] at hc'
    exact (Option.some.inj hc').symm
  | move j m =>
    simp only [step] at hstep
    split at hstep
    · cases hstep
    · rename_i x hj
      obtain ⟨⟨t', x'⟩, hcall, rfl⟩ := Option.map_eq_some_iff.mp hstep
      rcases pool_set_some hc' with ⟨rfl, rfl⟩ | ⟨-, hsame⟩
      · rw [hc] at hj
        cases hj
        exact Or.inr ⟨m, rfl, hcall⟩
      · rw [hc] at hsame
        exact Or.inl (Option.some.inj hsame).symm

/-- A call that returns after `Connect` gave it an id has handed out an open `tunnelConn`, or
`CloseConn` has been called for the id, exactly if it does not return by one of the exits of
`leaks`. -/
theorem caller_releases_iff (t : Transport) (acts : List Act) (s s' : Client) (a : Act) (k : Nat)
    (c c' : ConnectCall) (hrun : exec step (.new t) acts = some s) (hstep : step s a = some s')
    (hc : s.calls[k]? = some c) (hc' : s'.calls[k]? = some c') (hrunning : c.hasReturned = false)
    (hreturned : c'.hasReturned = true) (hopened : c'.connID ≠ none) :
    c'.Released ↔ ∀ m, a = .move k m → c.leaks m = false := by
  have hok : ∀ c ∈ s.calls, CallOk c :=
    exec_invariant_all (I := fun s => ∀ c ∈ s.calls, CallOk c)
      (fun _ _ _ h hs => callsOk_step h hs) acts _ _ (by simp [new]) hrun
  rcases call_step hstep hc hc' with rfl | ⟨m, rfl, hcall⟩
  · rw [hrunning] at hreturned
    cases hreturned
  · have hiff := ConnectCall.released_iff (callStep_cases hcall) (hok c (List.mem_of_getElem? hc))
      hrunning hreturned hopened
    rw [hiff]
    constructor
    · intro hleaks m' heq
      cases heq
      exact hleaks
    · exact fun hall => hall m rfl

/-! ## Calls on fixed inputs -/

/-- A `CONNECT` request for which `Connect` returns id 1. -/
def proxyConnected : List Act :=
  [.call (.httpProxy (some ⟨.connect, [97]⟩)), .move 0 (.connect (.ok (connected 1)))]

/-- A dial for which `Connect` returns id 1. -/
def dialConnected : List Act :=
  [.call (.dialContext tcp [97]), .move 0 (.connect (.ok (connected 1)))]

/-- The proxy copies until one direction ends, and its deferred `Close` runs. -/
def proxyRun : List Act :=
  proxyConnected ++ ([.move 0 (.reply true), .move 0 (.stream none), .move 0 .copied,
    .move 0 (.conn (.closer 0 .enter)), .move 0 (.conn (.closer 0 .closeCh)),
    .move 0 (.conn (.closer 0 (.conn true))), .move 0 (.conn (.closer 0 .reply)),
    .move 0 (.conn (.closer 0 .reader))] : List Act)

def plain : Client := .new (.new "http".toList "h".toList Config.plain.encryptor)

theorem caller_releases_iff_proxy :
    ∃ (s s' : Client) (c c' : ConnectCall), exec step plain proxyRun = some s ∧
      step s (.move 0 .leave) = some s' ∧ s.calls[0]? = some c ∧ s'.calls[0]? = some c' ∧
      c'.connID = some 1 ∧ c'.Released := by
  have hrun : ((exec step plain proxyRun).bind fun (s : Client) =>
      (step s (.move 0 .leave)).bind fun (s' : Client) =>
        s.calls[0]?.bind fun (c : ConnectCall) => s'.calls[0]?.map fun (c' : ConnectCall) =>
          decide (c.hasReturned = false ∧ c'.hasReturned = true ∧ c'.connID = some 1)) =
            some true := by decide +kernel
  obtain ⟨s, hs, hrun⟩ := Option.bind_eq_some_iff.mp hrun
  obtain ⟨s', hs', hrun⟩ := Option.bind_eq_some_iff.mp hrun
  obtain ⟨c, hc, hrun⟩ := Option.bind_eq_some_iff.mp hrun
  obtain ⟨c', hc', hat⟩ := Option.map_eq_some_iff.mp hrun
  obtain ⟨hrunning, hreturned, hid⟩ := of_decide_eq_true hat
  have hiff := caller_releases_iff _ _ s s' _ 0 c c' hs hs' hc hc' hrunning hreturned
    (by rw [hid]; nofun)
  refine ⟨s, s', c, c', hs, hs', hc, hc', hid, hiff.mpr ?_⟩
  intro m heq
  cases heq
  rfl

/-- The first call returns with id 1 open on the server and nobody left to close it. -/
def LeaksAfter (acts : List Act) : Prop :=
  ∃ (s : Client) (c : ConnectCall), exec step plain acts = some s ∧ s.calls[0]? = some c ∧
    c.hasReturned = true ∧ c.connID = some 1 ∧ ¬ c.Released

theorem leaksAfter_of_run {acts : List Act}
    (hrun : ((exec step plain acts).bind fun (s : Client) =>
      s.calls[0]?.map fun (c : ConnectCall) =>
        decide (c.hasReturned = true ∧ c.connID = some 1 ∧ ¬ c.Released)) = some true) :
    LeaksAfter acts := by
  obtain ⟨s, hs, hcall⟩ := Option.bind_eq_some_iff.mp hrun
  obtain ⟨c, hc, hat⟩ := Option.map_eq_some_iff.mp hcall
  exact ⟨s, c, hs, hc, of_decide_eq_true hat⟩

/-- The last moves of a proxy that cannot write its reply. -/
def replyFails : List Act := [.move 0 (.reply false)]

/-- The last moves of a caller for which `DownloadStream` fails. -/
def streamFails : List Act := [.move 0 (.stream (some .exchange))]

theorem leaking_exits :
    LeaksAfter (proxyConnected ++ replyFails) ∧
      LeaksAfter (proxyConnected ++ .move 0 (.reply true) :: streamFails) ∧
      LeaksAfter (dialConnected ++ streamFails) := by
  refine ⟨leaksAfter_of_run ?_, leaksAfter_of_run ?_, leaksAfter_of_run ?_⟩
  · decide +kernel
  · decide +kernel
  · decide +kernel

end Client

end PTBridge.Dpi
