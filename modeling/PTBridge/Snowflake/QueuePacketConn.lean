import PTBridge.Container.Channel
import PTBridge.Snowflake.ClientMap
import PTBridge.Snowflake.Turbotunnel
import PTBridge.Transition.Pool
import PTBridge.Transition.Run

/-!
# `QueuePacketConn` and the calls of `serveHTTP`

The server keeps one outgoing queue for each client that was seen recently. `WriteTo` looks the
queue of its address up and sends without waiting; each `serveHTTP` call starts a goroutine that
looks the queue of its client up once and then receives from it for good. The map of the queues
forgets a client after a timeout, and makes a new queue when the client is looked up again.

- `step` interleaves the callers of `WriteTo` and `ReadFrom`, the expiry of `ClientMap`, and the
  calls of `serveHTTP`, each with its two goroutines. Channels are named by the order in which
  they were made, as in `ClientMap`.
- `Step` and `step_cases` list what a step can do.
-/

namespace PTBridge.Snowflake.Serve

open PTBridge.Stream PTBridge.Container PTBridge.Transition

universe u

/-- What a call of `ClientMap.SendQueue` returned: the channel, and the address it is for. -/
structure Lookup (Addr : Type u) where
  addr : Addr
  queue : Nat
  deriving DecidableEq

/-- Where a call of `WriteTo` stands. -/
inductive WritePc (Addr : Type u) where
  /-- after its check of `closed` -/
  | entered (addr : Addr) (p : Bytes)
  /-- `SendQueue` has returned; at the select -/
  | sending (l : Lookup Addr) (p : Bytes)
  | done
  deriving DecidableEq

/-- Where a call of `ReadFrom` with a buffer of `n` bytes stands. -/
inductive ReadPc (Addr : Type u) where
  /-- at its second select -/
  | selecting (n : Nat)
  /-- returned a packet, or the error of a closed connection -/
  | done (res : Option (Bytes × Addr))
  deriving DecidableEq

/-- Where the reading goroutine of a `serveHTTP` call stands. -/
inductive ReaderPc where
  /-- in `ReadData` -/
  | reading
  /-- `ReadData` has its packet; before the check of `closed` in `QueueIncoming` -/
  | checking (p : Bytes)
  /-- in `QueueIncoming`, at the select -/
  | queueing (p : Bytes)
  | ended
  deriving DecidableEq

/-- Where the writing goroutine of a `serveHTTP` call stands. -/
inductive WriterPc (Addr : Type u) where
  /-- before `OutgoingQueue(clientID)` -/
  | starting
  /-- waits for the next packet of its queue -/
  | receiving (l : Lookup Addr)
  /-- in `WriteData` or `Flush`, with bytes that `writeLoop` has not taken from the pipe -/
  | writing (l : Lookup Addr) (p : Bytes)
  /-- `writeLoop` has taken all of them; before `Flush` returns nil -/
  | written (l : Lookup Addr)
  | ended
  deriving DecidableEq

/-- The queue the goroutine receives from while it runs. -/
def WriterPc.lookup {Addr : Type u} : WriterPc Addr → Option (Lookup Addr)
  | .receiving l => some l
  | .writing l _ => some l
  | .written l => some l
  | _ => none

/-- A call of `serveHTTP` that got past the preamble. -/
structure ServeCall (Addr : Type u) where
  clientID : Addr
  reader : ReaderPc
  writer : WriterPc Addr
  errCh : Chan 2 Unit
  /-- The call has returned and closed its connection. -/
  returned : Bool
  deriving DecidableEq

/-- The server: `pconn`, the calls that use it, and what went through its queues. -/
structure Server (Addr : Type u) where
  clients : ClientMapInner Addr
  queues : Nat → Chan queueSize (Nat × Bytes)
  recvQueue : Chan queueSize (Bytes × Addr)
  /-- `pconn` was closed. -/
  closed : Bool
  writes : List (WritePc Addr)
  reads : List (ReadPc Addr)
  calls : List (ServeCall Addr)
  /-- Every packet that came to the select of `WriteTo`. A packet in a queue carries its
  position in this list. -/
  written : List (Addr × Bytes)
  /-- Every packet a writing goroutine took, with the queue it took it from. -/
  received : List (Lookup Addr × Nat × Bytes)

section Model

variable {Addr : Type u}

namespace Server

/-- `NewServer`. -/
def new : Server Addr := ⟨.empty, fun _ => .make, .make, false, [], [], [], [], []⟩

def setWrite (s : Server Addr) (w : Nat) (pc : WritePc Addr) : Server Addr :=
  { s with writes := s.writes.set w pc }

def setRead (s : Server Addr) (r : Nat) (pc : ReadPc Addr) : Server Addr :=
  { s with reads := s.reads.set r pc }

def setCall (s : Server Addr) (k : Nat) (c : ServeCall Addr) : Server Addr :=
  { s with calls := s.calls.set k c }

/-- The select of `WriteTo`: the packet goes into the queue, or is dropped if that is full. -/
def put (s : Server Addr) (l : Lookup Addr) (p : Bytes) : Server Addr :=
  { s with
    queues := Function.update s.queues l.queue ((s.queues l.queue).offer (s.written.length, p))
    written := s.written ++ [(l.addr, p)] }

/-- Packet `i` leaves the queue `l`, which becomes `q`. -/
def take (s : Server Addr) (l : Lookup Addr) (q : Chan queueSize (Nat × Bytes)) (i : Nat)
    (p : Bytes) : Server Addr :=
  { s with
    queues := Function.update s.queues l.queue q
    received := s.received ++ [(l, i, p)] }

end Server

/-! ## Steps -/

inductive ReaderMove where
  /-- `ReadData` returns a packet, or an error -/
  | read (res : Option Bytes)
  /-- the check of `closed` in `QueueIncoming` -/
  | check
  /-- the select of `QueueIncoming` -/
  | queue
  deriving DecidableEq

inductive WriterMove where
  /-- `OutgoingQueue(clientID)` at time `now` -/
  | start (now : Time)
  /-- the next packet of the queue -/
  | receive
  /-- `writeLoop` takes the last bytes of the packet, or `WriteData` or `Flush` fail -/
  | write (ok : Bool)
  /-- `Flush` returns nil -/
  | goOn
  deriving DecidableEq

/-- A step of a caller of `pconn`, or of the goroutine that `NewClientMap` starts. -/
inductive ConnMove (Addr : Type u) where
  /-- `WriteTo(p, addr)` is called and checks `closed` -/
  | writeTo (addr : Addr) (p : Bytes)
  /-- call `w` of `WriteTo` evaluates `SendQueue(addr)` at time `now` -/
  | lookup (w : Nat) (now : Time)
  /-- the select of call `w` of `WriteTo` -/
  | put (w : Nat)
  /-- `ReadFrom` is called with a buffer of `n` bytes and checks `closed` -/
  | readFrom (n : Nat)
  /-- call `r` of `ReadFrom` takes a packet -/
  | take (r : Nat)
  /-- call `r` of `ReadFrom` finds `closed` closed -/
  | readClosed (r : Nat)
  | close
  /-- one round of the expiry loop, at time `now` -/
  | expire (now : Time)
  deriving DecidableEq

/-- A step of the server. -/
inductive Act (Addr : Type u) where
  | conn (m : ConnMove Addr)
  /-- a WebSocket gets past the preamble and `serveHTTP` starts its goroutines -/
  | accept (clientID : Addr)
  | reader (k : Nat) (m : ReaderMove)
  | writer (k : Nat) (m : WriterMove)
  /-- call `k` takes an error from `errCh`, returns, and closes its connection -/
  | finish (k : Nat)
  deriving DecidableEq

/-- `clientMapTimeout`, one minute in nanoseconds. -/
def clientMapTimeout : Int := 60 * 10 ^ 9

def readerStep (s : Server Addr) (k : Nat) (c : ServeCall Addr) : ReaderMove →
    Option (Server Addr)
  | .read res =>
      if c.reader = .reading then
        match res with
        | some p =>
            -- nothing can be read from a closed connection
            if c.returned then none else some (s.setCall k { c with reader := .checking p })
        | none =>
            match c.errCh.send () with
            | none => none
            | some errCh => some (s.setCall k { c with reader := .ended, errCh })
      else none
  | .check =>
      match c.reader with
      | .checking p =>
          if s.closed then some (s.setCall k { c with reader := .reading })
          else some (s.setCall k { c with reader := .queueing p })
      | _ => none
  | .queue =>
      match c.reader with
      | .queueing p =>
          some { s.setCall k { c with reader := .reading } with
            recvQueue := s.recvQueue.offer (p, c.clientID) }
      | _ => none

variable [DecidableEq Addr]

def writerStep (s : Server Addr) (k : Nat) (c : ServeCall Addr) : WriterMove →
    Option (Server Addr)
  | .start now =>
      match c.writer with
      | .starting =>
          match s.clients.sendQueue c.clientID now with
          | none => none
          | some (clients, queue) =>
              some { s.setCall k { c with writer := .receiving ⟨c.clientID, queue⟩ } with clients }
      | _ => none
  | .receive =>
      match c.writer with
      | .receiving l =>
          match (s.queues l.queue).recv with
          | some (some (i, p), q) =>
              some ((s.take l q i p).setCall k { c with writer := .writing l p })
          | _ => none
      | _ => none
  | .write ok =>
      match c.writer with
      | .writing l _ =>
          if ok then
            -- nothing is taken from the pipe of a closed connection
            if c.returned then none else some (s.setCall k { c with writer := .written l })
          else
            match c.errCh.send () with
            | none => none
            | some errCh => some (s.setCall k { c with writer := .ended, errCh })
      | _ => none
  -- a `Write` on the pipe whose bytes were taken returns nil, also after `Close`
  | .goOn =>
      match c.writer with
      | .written l => some (s.setCall k { c with writer := .receiving l })
      | _ => none

def connStep (timeout : Int) (s : Server Addr) : ConnMove Addr → Option (Server Addr)
  | .writeTo addr p =>
      if s.closed then some s else some { s with writes := s.writes ++ [.entered addr p] }
  | .lookup w now =>
      match s.writes[w]? with
      | some (.entered addr p) =>
          match s.clients.sendQueue addr now with
          | none => none
          | some (clients, queue) =>
              some { s.setWrite w (.sending ⟨addr, queue⟩ p) with clients }
      | _ => none
  -- `closed` is not looked at again between the check and the select
  | .put w =>
      match s.writes[w]? with
      | some (.sending l p) => some ((s.put l p).setWrite w .done)
      | _ => none
  | .readFrom n =>
      if s.closed then some s else some { s with reads := s.reads ++ [.selecting n] }
  | .take r =>
      match s.reads[r]? with
      | some (.selecting n) =>
          match s.recvQueue.recv with
          | some (some (p, addr), q) =>
              some { s.setRead r (.done (some (p.take n, addr))) with recvQueue := q }
          | _ => none
      | _ => none
  | .readClosed r =>
      match s.reads[r]? with
      | some (.selecting _) => if s.closed then some (s.setRead r (.done none)) else none
      | _ => none
  | .close => some { s with closed := true }
  | .expire now =>
      match s.clients.removeExpired now timeout with
      | none => none
      | some clients => some { s with clients }

def step (timeout : Int) (s : Server Addr) : Act Addr → Option (Server Addr)
  | .conn m => connStep timeout s m
  | .accept clientID =>
      some { s with calls := s.calls ++ [⟨clientID, .reading, .starting, .make, false⟩] }
  | .reader k m =>
      match s.calls[k]? with
      | none => none
      | some c => readerStep s k c m
  | .writer k m =>
      match s.calls[k]? with
      | none => none
      | some c => writerStep s k c m
  -- one error is taken; `errCh` has room for two, so the other goroutine can still report its own
  | .finish k =>
      match s.calls[k]? with
      | none => none
      | some c =>
          if c.returned then none
          else
            match c.errCh.recv with
            | some (some _, errCh) => some (s.setCall k { c with errCh, returned := true })
            | _ => none

/-- What a step can do, one constructor for each branch. -/
inductive Step (timeout : Int) (s : Server Addr) : Act Addr → Server Addr → Prop where
  | writeRefused {addr p} (hclosed : s.closed = true) :
      Step timeout s (.conn (.writeTo addr p)) s
  | writeEnters {addr p} (hopen : s.closed = false) :
      Step timeout s (.conn (.writeTo addr p)) { s with writes := s.writes ++ [.entered addr p] }
  | writeLooksUp {w now addr p clients queue} (hw : s.writes[w]? = some (.entered addr p))
      (hq : s.clients.sendQueue addr now = some (clients, queue)) :
      Step timeout s (.conn (.lookup w now))
        { s.setWrite w (.sending ⟨addr, queue⟩ p) with clients }
  | writePuts {w l p} (hw : s.writes[w]? = some (.sending l p)) :
      Step timeout s (.conn (.put w)) ((s.put l p).setWrite w .done)
  | readRefused {n} (hclosed : s.closed = true) : Step timeout s (.conn (.readFrom n)) s
  | readEnters {n} (hopen : s.closed = false) :
      Step timeout s (.conn (.readFrom n)) { s with reads := s.reads ++ [.selecting n] }
  | readTakes {r n p addr q} (hr : s.reads[r]? = some (.selecting n))
      (hq : s.recvQueue.recv = some (some (p, addr), q)) :
      Step timeout s (.conn (.take r))
        { s.setRead r (.done (some (p.take n, addr))) with recvQueue := q }
  | readStops {r n} (hr : s.reads[r]? = some (.selecting n)) (hclosed : s.closed = true) :
      Step timeout s (.conn (.readClosed r)) (s.setRead r (.done none))
  | close : Step timeout s (.conn .close) { s with closed := true }
  | expires {now clients} (hm : s.clients.removeExpired now timeout = some clients) :
      Step timeout s (.conn (.expire now)) { s with clients }
  | accepts {clientID} :
      Step timeout s (.accept clientID)
        { s with calls := s.calls ++ [⟨clientID, .reading, .starting, .make, false⟩] }
  -- the reading goroutine of call `k`
  | readerReads {k c p} (hc : s.calls[k]? = some c) (hr : c.reader = .reading)
      (hopen : c.returned = false) :
      Step timeout s (.reader k (.read (some p))) (s.setCall k { c with reader := .checking p })
  | readerFails {k c errCh} (hc : s.calls[k]? = some c) (hr : c.reader = .reading)
      (he : c.errCh.send () = some errCh) :
      Step timeout s (.reader k (.read none)) (s.setCall k { c with reader := .ended, errCh })
  | readerDrops {k c p} (hc : s.calls[k]? = some c) (hr : c.reader = .checking p)
      (hclosed : s.closed = true) :
      Step timeout s (.reader k .check) (s.setCall k { c with reader := .reading })
  | readerGoesOn {k c p} (hc : s.calls[k]? = some c) (hr : c.reader = .checking p)
      (hopen : s.closed = false) :
      Step timeout s (.reader k .check) (s.setCall k { c with reader := .queueing p })
  | readerQueues {k c p} (hc : s.calls[k]? = some c) (hr : c.reader = .queueing p) :
      Step timeout s (.reader k .queue)
        { s.setCall k { c with reader := .reading } with
          recvQueue := s.recvQueue.offer (p, c.clientID) }
  -- the writing goroutine of call `k`
  | writerStarts {k c now clients queue} (hc : s.calls[k]? = some c) (hw : c.writer = .starting)
      (hq : s.clients.sendQueue c.clientID now = some (clients, queue)) :
      Step timeout s (.writer k (.start now))
        { s.setCall k { c with writer := .receiving ⟨c.clientID, queue⟩ } with clients }
  | writerReceives {k c l i p q} (hc : s.calls[k]? = some c) (hw : c.writer = .receiving l)
      (hq : (s.queues l.queue).recv = some (some (i, p), q)) :
      Step timeout s (.writer k .receive)
        ((s.take l q i p).setCall k { c with writer := .writing l p })
  | writerWrites {k c l p} (hc : s.calls[k]? = some c) (hw : c.writer = .writing l p)
      (hopen : c.returned = false) :
      Step timeout s (.writer k (.write true)) (s.setCall k { c with writer := .written l })
  | writerFails {k c l p errCh} (hc : s.calls[k]? = some c) (hw : c.writer = .writing l p)
      (he : c.errCh.send () = some errCh) :
      Step timeout s (.writer k (.write false)) (s.setCall k { c with writer := .ended, errCh })
  | writerGoesOn {k c l} (hc : s.calls[k]? = some c) (hw : c.writer = .written l) :
      Step timeout s (.writer k .goOn) (s.setCall k { c with writer := .receiving l })
  | finishes {k c errCh} (hc : s.calls[k]? = some c) (hopen : c.returned = false)
      (he : c.errCh.recv = some (some (), errCh)) :
      Step timeout s (.finish k) (s.setCall k { c with errCh, returned := true })

theorem connStep_cases {timeout : Int} {s t : Server Addr} {m : ConnMove Addr}
    (h : connStep timeout s m = some t) : Step timeout s (.conn m) t := by
  cases m with
  | writeTo addr p =>
    simp only [connStep] at h
    split at h
    · rename_i hclosed
      cases h
      exact .writeRefused hclosed
    · rename_i hopen
      cases h
      exact .writeEnters (eq_false_of_ne_true hopen)
  | lookup w now =>
    simp only [connStep] at h
    split at h
    · rename_i addr p hw
      split at h
      · cases h
      · rename_i clients queue hq
        cases h
        exact .writeLooksUp hw hq
    · cases h
  | put w =>
    simp only [connStep] at h
    split at h
    · rename_i l p hw
      cases h
      exact .writePuts hw
    · cases h
  | readFrom n =>
    simp only [connStep] at h
    split at h
    · rename_i hclosed
      cases h
      exact .readRefused hclosed
    · rename_i hopen
      cases h
      exact .readEnters (eq_false_of_ne_true hopen)
  | take r =>
    simp only [connStep] at h
    split at h
    · rename_i n hr
      split at h
      · rename_i p addr q hq
        cases h
        exact .readTakes hr hq
      · cases h
    · cases h
  | readClosed r =>
    simp only [connStep] at h
    split at h
    · rename_i n hr
      split at h
      · rename_i hclosed
        cases h
        exact .readStops hr hclosed
      · cases h
    · cases h
  | close =>
    cases h
    exact .close
  | expire now =>
    simp only [connStep] at h
    split at h
    · cases h
    · rename_i clients hm
      cases h
      exact .expires hm

theorem readerStep_cases {timeout : Int} {s t : Server Addr} {k : Nat} {c : ServeCall Addr}
    {m : ReaderMove} (hc : s.calls[k]? = some c) (h : readerStep s k c m = some t) :
    Step timeout s (.reader k m) t := by
  cases m with
  | read res =>
    simp only [readerStep] at h
    split at h
    · rename_i hr
      cases res with
      | some p =>
        simp only at h
        split at h
        · cases h
        · rename_i hopen
          cases h
          exact .readerReads hc hr (eq_false_of_ne_true hopen)
      | none =>
        simp only at h
        split at h
        · cases h
        · rename_i errCh he
          cases h
          exact .readerFails hc hr he
    · cases h
  | check =>
    simp only [readerStep] at h
    split at h
    · rename_i p hr
      split at h
      · rename_i hclosed
        cases h
        exact .readerDrops hc hr hclosed
      · rename_i hopen
        cases h
        exact .readerGoesOn hc hr (eq_false_of_ne_true hopen)
    · cases h
  | queue =>
    simp only [readerStep] at h
    split at h
    · rename_i p hr
      cases h
      exact .readerQueues hc hr
    · cases h

theorem writerStep_cases {timeout : Int} {s t : Server Addr} {k : Nat} {c : ServeCall Addr}
    {m : WriterMove} (hc : s.calls[k]? = some c) (h : writerStep s k c m = some t) :
    Step timeout s (.writer k m) t := by
  cases m with
  | start now =>
    simp only [writerStep] at h
    split at h
    · rename_i hw
      split at h
      · cases h
      · rename_i clients queue hq
        cases h
        exact .writerStarts hc hw hq
    · cases h
  | receive =>
    simp only [writerStep] at h
    split at h
    · rename_i l hw
      split at h
      · rename_i i p q hq
        cases h
        exact .writerReceives hc hw hq
      · cases h
    · cases h
  | write ok =>
    simp only [writerStep] at h
    split at h
    · rename_i l p hw
      cases ok with
      | true =>
        simp only [if_true] at h
        split at h
        · cases h
        · rename_i hopen
          cases h
          exact .writerWrites hc hw (eq_false_of_ne_true hopen)
      | false =>
        simp only [Bool.false_eq_true, if_false] at h
        split at h
        · cases h
        · rename_i errCh he
          cases h
          exact .writerFails hc hw he
    · cases h
  | goOn =>
    simp only [writerStep] at h
    split at h
    · rename_i l hw
      cases h
      exact .writerGoesOn hc hw
    · cases h

theorem step_cases {timeout : Int} {s t : Server Addr} {a : Act Addr}
    (h : step timeout s a = some t) : Step timeout s a t := by
  cases a with
  | conn m => exact connStep_cases h
  | accept clientID =>
    cases h
    exact .accepts
  | reader k m =>
    simp only [step] at h
    split at h
    · cases h
    · rename_i c hc
      exact readerStep_cases hc h
  | writer k m =>
    simp only [step] at h
    split at h
    · cases h
    · rename_i c hc
      exact writerStep_cases hc h
  | finish k =>
    simp only [step] at h
    split at h
    · cases h
    · rename_i c hc
      split at h
      · cases h
      · rename_i hopen
        split at h
        · rename_i errCh he
          cases h
          exact .finishes hc (eq_false_of_ne_true hopen) he
        · cases h

end Model

end PTBridge.Snowflake.Serve
