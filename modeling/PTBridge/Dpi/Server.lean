import PTBridge.Container.Channel
import PTBridge.Dpi.Http
import PTBridge.Stream.Reader
import PTBridge.Transition.Pool
import PTBridge.Transition.Run

/-!
# The dpi server

`dpi/server/server.go` and `dpi/server/handler.go` as a transition system. A handler runs one
HTTP request, a reader goroutine serves one dialed connection, and they share the table
`s.clients`, the channels `dataCh` and the remote connections.

## Architecture

- `start` is what a handler does before it first touches shared state: routing, the checks on
  method, body and key, the header and the switch on the message type.
- `handlerStep` and `readerStep` are the atomic steps after that: one table operation, one
  operation on a remote, or one channel operation each. The label (`HandlerMove`,
  `ReaderMove`) says what the environment answers.
- `step` interleaves all handlers, all readers, new requests and `Shutdown`.
- `Step` lists the cases of `step` once; invariants are proved from it.

A connection that is dialed and registered is one step: between the two nobody else knows it.
-/

namespace PTBridge.Dpi

open PTBridge.Stream PTBridge.Container PTBridge.Transition

/-! ## State -/

structure Config where
  encryptor : Encryptor
  redirectURL : List Char

/-- A configuration for runs on fixed inputs. -/
def Config.plain : Config := ⟨⟨.plain⟩, []⟩

/-- Where the reader goroutine of a connection stands. -/
inductive ReaderPc where
  /-- before `remote.Read` -/
  | reading
  /-- in the `select` that sends `data`; `err` came with it -/
  | sending (data : Bytes) (err : Option ReadError)
  /-- out of the loop, before `close(cc.dataCh)` -/
  | closing
  /-- before the deferred `remote.Close` -/
  | closingRemote
  /-- before the deferred `unregisterClient` -/
  | unregistering
  | exited
  deriving DecidableEq

/-- `clientConn`, with its remote and its reader goroutine. -/
structure ClientConn where
  connID : UInt32
  targetAddr : Bytes
  dataCh : Chan 16 Bytes
  /-- `remote.Close` was called. -/
  remoteClosed : Bool
  /-- What was written to the remote, each write with the handler that made it. -/
  written : List (Nat × Bytes)
  /-- The chunks the reader goroutine read from the remote. -/
  received : List Bytes
  reader : ReaderPc
  /-- The handler whose `Connect` dialed the remote. -/
  dialedBy : Nat
  deriving DecidableEq

/-- A connection just dialed for `req` by handler `h`. -/
def ClientConn.dialed (connID : UInt32) (req : ConnectRequest) (h : Nat) : ClientConn :=
  { connID := connID, targetAddr := req.address, dataCh := Chan.make, remoteClosed := false,
    written := [], received := [], reader := .reading, dialedBy := h }

/-- Where a handler stands. `conn` is the connection its `getClient` returned. -/
inductive Pc where
  | dial (connID : UInt32) (req : ConnectRequest)
  | dataLookup (connID : UInt32) (payload : Bytes)
  | dataWrite (connID : UInt32) (payload : Bytes) (conn : Nat)
  | closeLookup (connID : UInt32)
  | closeRemote (connID : UInt32) (conn : Nat)
  | unregister (connID : UInt32)
  | downLookup (connID : UInt32)
  | downLoop (connID : UInt32) (conn : Nat)
  | downWrite (connID : UInt32) (conn : Nat) (data : Bytes)
  | done
  deriving DecidableEq

structure Handler where
  pc : Pc
  response : Option Response
  /-- The frames `handleDownload` wrote, the last one perhaps only in part. -/
  sent : List (Nonce × Bytes)
  deriving DecidableEq

/-- The handler's local state at `pc`, before it has replied. -/
def Handler.at (pc : Pc) : Handler := ⟨pc, none, []⟩

/-- The handler replied and returned. -/
def Handler.reply (response : Response) : Handler := ⟨.done, some response, []⟩

/-- The handler panicked; `net/http` drops the request. -/
def Handler.aborted : Handler := ⟨.done, none, []⟩

structure Server where
  clients : UInt32 → Option Nat
  conns : List ClientConn
  handlers : List Handler
  /-- `stopCh` is closed. -/
  stopped : Bool

namespace Server

/-- The state `NewServer` makes. -/
def new : Server := ⟨fun _ => none, [], [], false⟩

def getClient (s : Server) (connID : UInt32) : Option Nat := s.clients connID

/-- `registerClient` of a connection that was just dialed. -/
def registerClient (s : Server) (connID : UInt32) (cc : ClientConn) : Server :=
  { s with
    clients := Function.update s.clients connID (some s.conns.length)
    conns := s.conns ++ [cc] }

def unregisterClient (s : Server) (connID : UInt32) : Server :=
  { s with clients := Function.update s.clients connID none }

def setHandler (s : Server) (h : Nat) (hd : Handler) : Server :=
  { s with handlers := s.handlers.set h hd }

def setConn (s : Server) (c : Nat) (cc : ClientConn) : Server :=
  { s with conns := s.conns.set c cc }

/-- Where handler `h` stands; one that does not exist counts as returned. -/
def pcOf (s : Server) (h : Nat) : Pc :=
  match s.handlers[h]? with
  | none => .done
  | some hd => hd.pc

theorem pcOf_eq {s : Server} {h : Nat} {pc : Pc} (hpc : s.pcOf h = pc) (hne : pc ≠ .done) :
    ∃ hd, s.handlers[h]? = some hd ∧ hd.pc = pc := by
  unfold pcOf at hpc
  split at hpc
  · exact absurd hpc.symm hne
  · rename_i hd hh
    exact ⟨hd, hh, hpc⟩

@[simp] theorem setHandler_clients (s : Server) (h : Nat) (hd : Handler) :
    (s.setHandler h hd).clients = s.clients := rfl
@[simp] theorem setHandler_conns (s : Server) (h : Nat) (hd : Handler) :
    (s.setHandler h hd).conns = s.conns := rfl
@[simp] theorem setHandler_handlers (s : Server) (h : Nat) (hd : Handler) :
    (s.setHandler h hd).handlers = s.handlers.set h hd := rfl
@[simp] theorem setHandler_stopped (s : Server) (h : Nat) (hd : Handler) :
    (s.setHandler h hd).stopped = s.stopped := rfl
@[simp] theorem setConn_clients (s : Server) (c : Nat) (cc : ClientConn) :
    (s.setConn c cc).clients = s.clients := rfl
@[simp] theorem setConn_conns (s : Server) (c : Nat) (cc : ClientConn) :
    (s.setConn c cc).conns = s.conns.set c cc := rfl
@[simp] theorem setConn_handlers (s : Server) (c : Nat) (cc : ClientConn) :
    (s.setConn c cc).handlers = s.handlers := rfl
@[simp] theorem setConn_stopped (s : Server) (c : Nat) (cc : ClientConn) :
    (s.setConn c cc).stopped = s.stopped := rfl
@[simp] theorem registerClient_clients (s : Server) (connID : UInt32) (cc : ClientConn) :
    (s.registerClient connID cc).clients =
      Function.update s.clients connID (some s.conns.length) := rfl
@[simp] theorem registerClient_conns (s : Server) (connID : UInt32) (cc : ClientConn) :
    (s.registerClient connID cc).conns = s.conns ++ [cc] := rfl
@[simp] theorem registerClient_handlers (s : Server) (connID : UInt32) (cc : ClientConn) :
    (s.registerClient connID cc).handlers = s.handlers := rfl
@[simp] theorem registerClient_stopped (s : Server) (connID : UInt32) (cc : ClientConn) :
    (s.registerClient connID cc).stopped = s.stopped := rfl
@[simp] theorem unregisterClient_clients (s : Server) (connID : UInt32) :
    (s.unregisterClient connID).clients = Function.update s.clients connID none := rfl
@[simp] theorem unregisterClient_conns (s : Server) (connID : UInt32) :
    (s.unregisterClient connID).conns = s.conns := rfl
@[simp] theorem unregisterClient_handlers (s : Server) (connID : UInt32) :
    (s.unregisterClient connID).handlers = s.handlers := rfl
@[simp] theorem unregisterClient_stopped (s : Server) (connID : UInt32) :
    (s.unregisterClient connID).stopped = s.stopped := rfl

end Server

/-! ## Up to the first access to shared state -/

/-- The `switch hdr.MsgType` of `handleTunnel`. -/
def handleMessage (hdr : StreamHeader) (payload : Bytes) : Handler :=
  if hdr.msgType = msgConnect then
    if hdr.payloadLen.toNat ≠ payload.length then .reply badRequest
    else
      match decodeConnectRequest payload with
      | .ok req => .at (.dial hdr.connID req)
      | .panic => .aborted
      | _ => .reply badRequest
  else if hdr.msgType = msgData then .at (.dataLookup hdr.connID payload)
  else if hdr.msgType = msgClose then .at (.closeLookup hdr.connID)
  else .reply statusOk

def handleTunnel (cfg : Config) (r : Request) : Handler :=
  if r.method ≠ .post ∧ r.method ≠ .put then .reply methodNotAllowed
  else
    match r.body with
    | none => .reply badRequest
    | some body =>
        if body = [] then .reply statusOk
        else
          match cfg.encryptor.decryptStream body with
          | .error _ => .reply badRequest
          | .ok decrypted =>
              if decrypted.length < streamHeaderSize then .reply badRequest
              else
                match readStreamHeader decrypted with
                | none => .aborted
                | some (hdr, payload) => handleMessage hdr payload

def handleDownload (r : Request) : Handler :=
  if r.method ≠ .get ∧ r.method ≠ .head then .reply methodNotAllowed
  else
    match downloadConnID r.path with
    | none => .reply notFound
    | some connID => .at (.downLookup connID)

def handleRoot (cfg : Config) : Handler :=
  if cfg.redirectURL ≠ [] then .reply (found cfg.redirectURL) else .reply servicePage

/-- A new request: the mux picks the handler. -/
def start (cfg : Config) (r : Request) : Handler :=
  match mux r with
  | .badRequest => .reply badTarget
  | .redirect location => .reply (moved location)
  | .tunnel => handleTunnel cfg r
  | .download => handleDownload r
  | .root => handleRoot cfg

/-! ## Steps on shared state -/

/-- A step of a handler, with the environment's answer. -/
inductive HandlerMove where
  | dial (ok : Bool)
  /-- `getClient` -/
  | lookup
  /-- `remote.Write` took `n` bytes -/
  | write (n : Nat) (ok : Bool)
  | closeRemote
  | unregister
  /-- the `select` of `handleDownload` takes `<-conn.dataCh` -/
  | receive
  /-- `EncryptStream` draws `rand`, and the response writer accepts the frame or fails -/
  | emit (rand : Option Nonce) (ok : Bool)
  /-- the `select` takes `<-r.Context().Done()` -/
  | cancel
  /-- the `select` takes `<-h.server.stopCh` -/
  | stop
  deriving DecidableEq

/-- A step of a reader goroutine, with the environment's answer. -/
inductive ReaderMove where
  | read (data : Bytes) (err : Option ReadError)
  | send
  /-- the `select` takes `<-h.server.stopCh` -/
  | stop
  | closeCh
  | closeRemote
  | unregister
  deriving DecidableEq

/-- The buffer of the reader goroutine. -/
def readBufSize : Nat := 32 * 1024

def handlerStep (s : Server) (h : Nat) (hd : Handler) (m : HandlerMove) : Option Server :=
  match hd.pc, m with
  | .dial connID req, .dial ok =>
      if ok then
        some ((s.registerClient connID (.dialed connID req h)).setHandler h
          (.reply (connected connID)))
      else some (s.setHandler h (.reply connectFailed))
  | .dataLookup connID payload, .lookup =>
      match s.getClient connID with
      | none => some (s.setHandler h (.reply statusOk))
      | some c => some (s.setHandler h (.at (.dataWrite connID payload c)))
  | .dataWrite connID payload c, .write n ok =>
      match s.conns[c]? with
      | none => none
      | some cc =>
          -- a write that succeeds took everything, and its remote was open
          if n ≤ payload.length ∧ (ok = true → n = payload.length ∧ cc.remoteClosed = false) then
            some ((s.setConn c { cc with written := cc.written ++ [(h, payload.take n)] }).setHandler
              h (if ok then .reply statusOk else .at (.closeRemote connID c)))
          else none
  | .closeLookup connID, .lookup =>
      match s.getClient connID with
      | none => some (s.setHandler h (.reply statusOk))
      | some c => some (s.setHandler h (.at (.closeRemote connID c)))
  | .closeRemote connID c, .closeRemote =>
      match s.conns[c]? with
      | none => none
      | some cc =>
          some ((s.setConn c { cc with remoteClosed := true }).setHandler h (.at (.unregister connID)))
  | .unregister connID, .unregister =>
      some ((s.unregisterClient connID).setHandler h (.reply statusOk))
  | .downLookup connID, .lookup =>
      match s.getClient connID with
      | none => some (s.setHandler h (.reply notFound))
      | some c => some (s.setHandler h ⟨.downLoop connID c, some streaming, []⟩)
  -- `none` blocks: the queue is empty and open; `some (none, _)` is `ok == false`
  | .downLoop connID c, .receive =>
      match s.conns[c]? with
      | none => none
      | some cc =>
          match cc.dataCh.recv with
          | none => none
          | some (none, _) => some (s.setHandler h { hd with pc := .done })
          | some (some data, ch) =>
              some ((s.setConn c { cc with dataCh := ch }).setHandler h
                { hd with pc := .downWrite connID c data })
  | .downLoop _ _, .cancel => some (s.setHandler h { hd with pc := .done })
  | .downLoop _ _, .stop =>
      if s.stopped then some (s.setHandler h { hd with pc := .done }) else none
  -- a failed write has sent the frame in part at most, and the chunk is gone either way
  | .downWrite connID c data, .emit rand ok =>
      match rand with
      | none => some (s.setHandler h { hd with pc := .done })
      | some nonce =>
          some (s.setHandler h
            { hd with
              pc := if ok then .downLoop connID c else .done
              sent := hd.sent ++ [(nonce, data)] })
  | _, _ => none

def readerStep (s : Server) (c : Nat) (cc : ClientConn) (m : ReaderMove) : Option Server :=
  match cc.reader, m with
  | .reading, .read data err =>
      -- a closed remote gives an error and no data
      if data.length ≤ readBufSize ∧ (cc.remoteClosed = true → data = [] ∧ err ≠ none) then
        some (s.setConn c
          { cc with
            received := if data = [] then cc.received else cc.received ++ [data]
            reader := if data = [] then (if err = none then .reading else .closing)
              else .sending data err })
      else none
  | .sending data err, .send =>
      match cc.dataCh.send data with
      | none => none
      | some ch =>
          some (s.setConn c
            { cc with dataCh := ch, reader := if err = none then .reading else .closing })
  -- this return is before `close(cc.dataCh)`: only the deferred calls are left
  | .sending _ _, .stop =>
      if s.stopped then some (s.setConn c { cc with reader := .closingRemote }) else none
  | .closing, .closeCh =>
      some (s.setConn c { cc with dataCh := cc.dataCh.close, reader := .closingRemote })
  | .closingRemote, .closeRemote =>
      some (s.setConn c { cc with remoteClosed := true, reader := .unregistering })
  | .unregistering, .unregister =>
      some ((s.unregisterClient cc.connID).setConn c { cc with reader := .exited })
  | _, _ => none

inductive Act where
  | request (r : Request)
  | handler (h : Nat) (m : HandlerMove)
  | reader (c : Nat) (m : ReaderMove)
  | shutdown
  deriving DecidableEq

def step (cfg : Config) (s : Server) : Act → Option Server
  | .request r => some { s with handlers := s.handlers ++ [start cfg r] }
  | .handler h m =>
      match s.handlers[h]? with
      | none => none
      | some hd => handlerStep s h hd m
  | .reader c m =>
      match s.conns[c]? with
      | none => none
      | some cc => readerStep s c cc m
  | .shutdown => if s.stopped then none else some { s with stopped := true }

/-! ## The cases of a step -/

/-- Every way the server can move, with what the moving thread saw. -/
inductive Step (cfg : Config) (s : Server) : Act → Server → Prop where
  | request (r : Request) :
      Step cfg s (.request r) { s with handlers := s.handlers ++ [start cfg r] }
  | dialed {h hd connID req} (hh : s.handlers[h]? = some hd) (hpc : hd.pc = .dial connID req) :
      Step cfg s (.handler h (.dial true))
        ((s.registerClient connID (.dialed connID req h)).setHandler h (.reply (connected connID)))
  | dialFailed {h hd connID req} (hh : s.handlers[h]? = some hd) (hpc : hd.pc = .dial connID req) :
      Step cfg s (.handler h (.dial false)) (s.setHandler h (.reply connectFailed))
  | dataFound {h hd connID payload c} (hh : s.handlers[h]? = some hd)
      (hpc : hd.pc = .dataLookup connID payload) (hc : s.clients connID = some c) :
      Step cfg s (.handler h .lookup) (s.setHandler h (.at (.dataWrite connID payload c)))
  | dataUnknown {h hd connID payload} (hh : s.handlers[h]? = some hd)
      (hpc : hd.pc = .dataLookup connID payload) (hc : s.clients connID = none) :
      Step cfg s (.handler h .lookup) (s.setHandler h (.reply statusOk))
  | wrote {h hd connID payload c cc} (hh : s.handlers[h]? = some hd)
      (hpc : hd.pc = .dataWrite connID payload c) (hcc : s.conns[c]? = some cc)
      (hopen : cc.remoteClosed = false) :
      Step cfg s (.handler h (.write payload.length true))
        ((s.setConn c { cc with written := cc.written ++ [(h, payload)] }).setHandler h
          (.reply statusOk))
  | writeFailed {h hd connID payload c cc n} (hh : s.handlers[h]? = some hd)
      (hpc : hd.pc = .dataWrite connID payload c) (hcc : s.conns[c]? = some cc)
      (hn : n ≤ payload.length) :
      Step cfg s (.handler h (.write n false))
        ((s.setConn c { cc with written := cc.written ++ [(h, payload.take n)] }).setHandler h
          (.at (.closeRemote connID c)))
  | closeFound {h hd connID c} (hh : s.handlers[h]? = some hd)
      (hpc : hd.pc = .closeLookup connID) (hc : s.clients connID = some c) :
      Step cfg s (.handler h .lookup) (s.setHandler h (.at (.closeRemote connID c)))
  | closeUnknown {h hd connID} (hh : s.handlers[h]? = some hd)
      (hpc : hd.pc = .closeLookup connID) (hc : s.clients connID = none) :
      Step cfg s (.handler h .lookup) (s.setHandler h (.reply statusOk))
  | closedRemote {h hd connID c cc} (hh : s.handlers[h]? = some hd)
      (hpc : hd.pc = .closeRemote connID c) (hcc : s.conns[c]? = some cc) :
      Step cfg s (.handler h .closeRemote)
        ((s.setConn c { cc with remoteClosed := true }).setHandler h (.at (.unregister connID)))
  | unregistered {h hd connID} (hh : s.handlers[h]? = some hd) (hpc : hd.pc = .unregister connID) :
      Step cfg s (.handler h .unregister)
        ((s.unregisterClient connID).setHandler h (.reply statusOk))
  | downFound {h hd connID c} (hh : s.handlers[h]? = some hd)
      (hpc : hd.pc = .downLookup connID) (hc : s.clients connID = some c) :
      Step cfg s (.handler h .lookup)
        (s.setHandler h ⟨.downLoop connID c, some streaming, []⟩)
  | downUnknown {h hd connID} (hh : s.handlers[h]? = some hd)
      (hpc : hd.pc = .downLookup connID) (hc : s.clients connID = none) :
      Step cfg s (.handler h .lookup) (s.setHandler h (.reply notFound))
  | downReceived {h hd connID c cc data ch} (hh : s.handlers[h]? = some hd)
      (hpc : hd.pc = .downLoop connID c) (hcc : s.conns[c]? = some cc)
      (hbuf : cc.dataCh.buf = data :: ch.buf) (hclosed : ch.closed = cc.dataCh.closed) :
      Step cfg s (.handler h .receive)
        ((s.setConn c { cc with dataCh := ch }).setHandler h
          { hd with pc := .downWrite connID c data })
  | downDrained {h hd connID c cc} (hh : s.handlers[h]? = some hd)
      (hpc : hd.pc = .downLoop connID c) (hcc : s.conns[c]? = some cc)
      (hbuf : cc.dataCh.buf = []) (hclosed : cc.dataCh.closed = true) :
      Step cfg s (.handler h .receive) (s.setHandler h { hd with pc := .done })
  | downCancelled {h hd connID c} (hh : s.handlers[h]? = some hd)
      (hpc : hd.pc = .downLoop connID c) :
      Step cfg s (.handler h .cancel) (s.setHandler h { hd with pc := .done })
  | downStopped {h hd connID c} (hh : s.handlers[h]? = some hd)
      (hpc : hd.pc = .downLoop connID c) (hstop : s.stopped = true) :
      Step cfg s (.handler h .stop) (s.setHandler h { hd with pc := .done })
  | emitted {h hd connID c data nonce} (hh : s.handlers[h]? = some hd)
      (hpc : hd.pc = .downWrite connID c data) :
      Step cfg s (.handler h (.emit (some nonce) true))
        (s.setHandler h
          { hd with pc := .downLoop connID c, sent := hd.sent ++ [(nonce, data)] })
  | emitFailed {h hd connID c data nonce} (hh : s.handlers[h]? = some hd)
      (hpc : hd.pc = .downWrite connID c data) :
      Step cfg s (.handler h (.emit (some nonce) false))
        (s.setHandler h { hd with pc := .done, sent := hd.sent ++ [(nonce, data)] })
  | encryptFailed {h hd connID c data ok} (hh : s.handlers[h]? = some hd)
      (hpc : hd.pc = .downWrite connID c data) :
      Step cfg s (.handler h (.emit none ok)) (s.setHandler h { hd with pc := .done })
  | readData {c cc data err} (hcc : s.conns[c]? = some cc) (hpc : cc.reader = .reading)
      (hdata : data ≠ []) (hlen : data.length ≤ readBufSize) (hopen : cc.remoteClosed = false) :
      Step cfg s (.reader c (.read data err))
        (s.setConn c { cc with received := cc.received ++ [data], reader := .sending data err })
  | readEmpty {c cc} (hcc : s.conns[c]? = some cc) (hpc : cc.reader = .reading)
      (hopen : cc.remoteClosed = false) :
      Step cfg s (.reader c (.read [] none)) (s.setConn c cc)
  | readErr {c cc err} (hcc : s.conns[c]? = some cc) (hpc : cc.reader = .reading) :
      Step cfg s (.reader c (.read [] (some err))) (s.setConn c { cc with reader := .closing })
  | sent {c cc data err ch} (hcc : s.conns[c]? = some cc) (hpc : cc.reader = .sending data err)
      (hopen : cc.dataCh.closed = false) (hroom : cc.dataCh.buf.length < 16)
      (hbuf : ch.buf = cc.dataCh.buf ++ [data]) (hclosed : ch.closed = cc.dataCh.closed) :
      Step cfg s (.reader c .send)
        (s.setConn c
          { cc with dataCh := ch, reader := if err = none then .reading else .closing })
  | sendStopped {c cc data err} (hcc : s.conns[c]? = some cc) (hpc : cc.reader = .sending data err)
      (hstop : s.stopped = true) :
      Step cfg s (.reader c .stop) (s.setConn c { cc with reader := .closingRemote })
  | closedCh {c cc} (hcc : s.conns[c]? = some cc) (hpc : cc.reader = .closing) :
      Step cfg s (.reader c .closeCh)
        (s.setConn c { cc with dataCh := cc.dataCh.close, reader := .closingRemote })
  | closedOwn {c cc} (hcc : s.conns[c]? = some cc) (hpc : cc.reader = .closingRemote) :
      Step cfg s (.reader c .closeRemote)
        (s.setConn c { cc with remoteClosed := true, reader := .unregistering })
  | unregisteredOwn {c cc} (hcc : s.conns[c]? = some cc) (hpc : cc.reader = .unregistering) :
      Step cfg s (.reader c .unregister)
        ((s.unregisterClient cc.connID).setConn c { cc with reader := .exited })
  | shutdown (hstop : s.stopped = false) : Step cfg s .shutdown { s with stopped := true }

section Inversion

variable {cfg : Config} {s s' : Server}

theorem handlerStep_cases {h : Nat} {hd : Handler} {m : HandlerMove}
    (hh : s.handlers[h]? = some hd) (hs : handlerStep s h hd m = some s') :
    Step cfg s (.handler h m) s' := by
  unfold handlerStep at hs
  split at hs
  next connID req ok hpc =>
    cases ok with
    | true => cases hs; exact .dialed hh hpc
    | false => cases hs; exact .dialFailed hh hpc
  next connID payload hpc =>
    split at hs
    next hc => cases hs; exact .dataUnknown hh hpc hc
    next c hc => cases hs; exact .dataFound hh hpc hc
  next connID payload c n ok hpc =>
    split at hs
    next => cases hs
    next cc hcc =>
      split at hs
      next hok =>
        cases ok with
        | true =>
          obtain ⟨rfl, hopen⟩ := hok.2 rfl
          cases hs
          rw [List.take_length]
          exact .wrote hh hpc hcc hopen
        | false => cases hs; exact .writeFailed hh hpc hcc hok.1
      next => cases hs
  next connID hpc =>
    split at hs
    next hc => cases hs; exact .closeUnknown hh hpc hc
    next c hc => cases hs; exact .closeFound hh hpc hc
  next connID c hpc =>
    split at hs
    next => cases hs
    next cc hcc => cases hs; exact .closedRemote hh hpc hcc
  next connID hpc => cases hs; exact .unregistered hh hpc
  next connID hpc =>
    split at hs
    next hc => cases hs; exact .downUnknown hh hpc hc
    next c hc => cases hs; exact .downFound hh hpc hc
  next connID c hpc =>
    split at hs
    next => cases hs
    next cc hcc =>
      split at hs
      next => cases hs
      next hrecv =>
        cases hs
        obtain ⟨hbuf, hclosed, -⟩ := Chan.recv_eq_closed.mp hrecv
        exact .downDrained hh hpc hcc hbuf hclosed
      next data ch hrecv =>
        cases hs
        obtain ⟨hbuf, hclosed⟩ := Chan.recv_eq_value.mp hrecv
        exact .downReceived hh hpc hcc hbuf hclosed
  next connID c hpc => cases hs; exact .downCancelled hh hpc
  next connID c hpc =>
    split at hs
    next hstop => cases hs; exact .downStopped hh hpc hstop
    next => cases hs
  next connID c data rand ok hpc =>
    cases rand with
    | none => cases hs; exact .encryptFailed hh hpc
    | some nonce =>
      cases ok with
      | true => cases hs; exact .emitted hh hpc
      | false => cases hs; exact .emitFailed hh hpc
  next => cases hs

theorem readerStep_cases {c : Nat} {cc : ClientConn} {m : ReaderMove}
    (hcc : s.conns[c]? = some cc) (hs : readerStep s c cc m = some s') :
    Step cfg s (.reader c m) s' := by
  unfold readerStep at hs
  split at hs
  next data err hpc =>
    split at hs
    next hok =>
      obtain ⟨hlen, hopen⟩ := hok
      cases data with
      | nil =>
        cases err with
        | none =>
          have hopen' : cc.remoteClosed = false := by
            cases hc : cc.remoteClosed with
            | false => rfl
            | true => exact absurd rfl (hopen hc).2
          cases hs
          have hsame : { cc with received := cc.received, reader := .reading } = cc := by
            rw [← hpc]
          simp only [↓reduceIte, hsame]
          exact .readEmpty hcc hpc hopen'
        | some e => cases hs; exact .readErr hcc hpc
      | cons b bs =>
        have hopen' : cc.remoteClosed = false := by
          cases hc : cc.remoteClosed with
          | false => rfl
          | true => exact absurd (hopen hc).1 (List.cons_ne_nil _ _)
        cases hs
        exact .readData hcc hpc (List.cons_ne_nil _ _) hlen hopen'
    next => cases hs
  next data err hpc =>
    split at hs
    next => cases hs
    next ch hsend =>
      cases hs
      obtain ⟨hopen, hroom, hbuf, hclosed⟩ := Chan.send_eq_some.mp hsend
      exact .sent hcc hpc hopen hroom hbuf hclosed
  next data err hpc =>
    split at hs
    next hstop => cases hs; exact .sendStopped hcc hpc hstop
    next => cases hs
  next hpc => cases hs; exact .closedCh hcc hpc
  next hpc => cases hs; exact .closedOwn hcc hpc
  next hpc => cases hs; exact .unregisteredOwn hcc hpc
  next => cases hs

/-- A step is one of the cases of `Step`. -/
theorem step_cases {a : Act} (h : step cfg s a = some s') : Step cfg s a s' := by
  cases a with
  | request r => cases h; exact .request r
  | handler i m =>
    simp only [step] at h
    split at h
    next => cases h
    next hd hh => exact handlerStep_cases hh h
  | reader c m =>
    simp only [step] at h
    split at h
    next => cases h
    next cc hcc => exact readerStep_cases hcc h
  | shutdown =>
    simp only [step] at h
    split at h
    next => cases h
    next hstop => cases h; exact .shutdown (Bool.eq_false_iff.mpr hstop)

/-- The cases of `Step` are steps. -/
theorem Step.enabled {a : Act} (hs : Step cfg s a s') : step cfg s a = some s' := by
  cases hs with
  | request r => rfl
  | dialed hh hpc => simp [step, hh, handlerStep, hpc]
  | dialFailed hh hpc => simp [step, hh, handlerStep, hpc]
  | dataFound hh hpc hc => simp [step, hh, handlerStep, hpc, Server.getClient, hc]
  | dataUnknown hh hpc hc => simp [step, hh, handlerStep, hpc, Server.getClient, hc]
  | wrote hh hpc hcc hopen => simp [step, hh, handlerStep, hpc, hcc, hopen]
  | writeFailed hh hpc hcc hn => simp [step, hh, handlerStep, hpc, hcc, hn]
  | closeFound hh hpc hc => simp [step, hh, handlerStep, hpc, Server.getClient, hc]
  | closeUnknown hh hpc hc => simp [step, hh, handlerStep, hpc, Server.getClient, hc]
  | closedRemote hh hpc hcc => simp [step, hh, handlerStep, hpc, hcc]
  | unregistered hh hpc => simp [step, hh, handlerStep, hpc]
  | downFound hh hpc hc => simp [step, hh, handlerStep, hpc, Server.getClient, hc]
  | downUnknown hh hpc hc => simp [step, hh, handlerStep, hpc, Server.getClient, hc]
  | downReceived hh hpc hcc hbuf hclosed =>
    simp [step, hh, handlerStep, hpc, hcc, Chan.recv_eq_value.mpr ⟨hbuf, hclosed⟩]
  | downDrained hh hpc hcc hbuf hclosed =>
    simp [step, hh, handlerStep, hpc, hcc, Chan.recv_eq_closed.mpr ⟨hbuf, hclosed, rfl⟩]
  | downCancelled hh hpc => simp [step, hh, handlerStep, hpc]
  | downStopped hh hpc hstop => simp [step, hh, handlerStep, hpc, hstop]
  | emitted hh hpc => simp [step, hh, handlerStep, hpc]
  | emitFailed hh hpc => simp [step, hh, handlerStep, hpc]
  | encryptFailed hh hpc => simp [step, hh, handlerStep, hpc]
  | readData hcc hpc hdata hlen hopen => simp [step, hcc, readerStep, hpc, hdata, hlen, hopen]
  | @readEmpty c cc hcc hpc hopen =>
    have hsame : { cc with remoteClosed := false, reader := .reading } = cc := by
      rw [← hpc, ← hopen]
    simp [step, hcc, readerStep, hpc, hopen, hsame]
  | readErr hcc hpc => simp [step, hcc, readerStep, hpc]
  | sent hcc hpc hopen hroom hbuf hclosed =>
    simp [step, hcc, readerStep, hpc, Chan.send_eq_some.mpr ⟨hopen, hroom, hbuf, hclosed⟩]
  | sendStopped hcc hpc hstop => simp [step, hcc, readerStep, hpc, hstop]
  | closedCh hcc hpc => simp [step, hcc, readerStep, hpc]
  | closedOwn hcc hpc => simp [step, hcc, readerStep, hpc]
  | unregisteredOwn hcc hpc => simp [step, hcc, readerStep, hpc]
  | shutdown hstop => simp [step, hstop]

/-! ## Frames -/

/-- A handler is only changed by its own steps. -/
theorem handler_frame {a : Act} {h : Nat} {hd : Handler} (hs : Step cfg s a s')
    (hother : ∀ m, a ≠ .handler h m) (hh : s.handlers[h]? = some hd) :
    s'.handlers[h]? = some hd := by
  have hset : ∀ (h' : Nat) (hd' : Handler), h' ≠ h → (s.handlers.set h' hd')[h]? = some hd :=
    fun h' hd' hne => by rw [List.getElem?_set_ne hne, hh]
  cases hs <;>
    first
    | exact hh
    | exact pool_snoc_old hh
    | exact hset _ _ fun heq => hother _ (by rw [heq])

/-- A handler that has returned makes no step. -/
theorem step_done {h : Nat} {hd : Handler} (hh : s.handlers[h]? = some hd) (hpc : hd.pc = .done)
    (m : HandlerMove) : step cfg s (.handler h m) = none := by
  simp only [step, hh, handlerStep, hpc]

/-- A handler that has returned stays as it is. -/
theorem handler_done_run {h : Nat} {hd : Handler} (hpc : hd.pc = .done) (acts : List Act)
    (hh : s.handlers[h]? = some hd) (hrun : exec (step cfg) s acts = some s') :
    s'.handlers[h]? = some hd := by
  refine exec_invariant_all (I := fun t => t.handlers[h]? = some hd) ?_ acts s s' hh hrun
  intro t a t' ht hs
  refine handler_frame (step_cases hs) ?_ ht
  rintro m rfl
  rw [step_done ht hpc] at hs
  cases hs

end Inversion

end PTBridge.Dpi
