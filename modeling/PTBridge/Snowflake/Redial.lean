import PTBridge.Container.Channel
import PTBridge.Snowflake.WebSocket
import PTBridge.Transition.Pool
import PTBridge.Transition.Run

/-!
# `turbotunnel.RedialPacketConn` over `WrapWebSocketDial`

A `RedialPacketConn` keeps one send queue and one receive queue while its `dialLoop` opens one
connection after the other. For each of them `exchange` starts a reading and a writing goroutine;
it returns on the first error of either, and the goroutines of an old connection may still run
while the next one is in use. A connection is a WebSocket on which `WrapWebSocketDial` has written
the token and the client id, with an `EncapsulationPacketConn` around it.

- `step` interleaves the callers of `WriteTo`, `ReadFrom` and `Close`, the dial loop, and both
  goroutines of every connection. The two unbuffered error channels of an `exchange` are modelled by
  what their senders and receivers wait for: a goroutine that waits to send its error is
  `reporting`, and one that has returned has closed its channel.
- `Step` and `step_cases` list what a step can do.
- A packet in the send queue carries the index of its `WriteTo` call; `written` are all the packets.
  A packet in the receive queue carries the number of the connection it came in on.
-/

namespace PTBridge.Snowflake.Redial

open PTBridge.Stream PTBridge.Container PTBridge.Transition

/-- Where the reading goroutine of an `exchange` stands. -/
inductive ReaderPc where
  /-- at the select before a read -/
  | checking
  /-- in `conn.ReadFrom` -/
  | reading
  /-- has the packet `p`, before the send to `recvQueue` -/
  | queueing (p : Bytes)
  /-- at `readErrCh <- err` -/
  | reporting
  /-- returned; `readErrCh` is closed -/
  | done
  deriving DecidableEq, Repr

/-- Where the writing goroutine of an `exchange` stands. -/
inductive WriterPc where
  /-- at its select -/
  | selecting
  /-- in `conn.WriteTo` with packet `i` -/
  | writing (i : Nat) (p : Bytes)
  /-- at `writeErrCh <- err` -/
  | reporting
  /-- returned; `writeErrCh` is closed -/
  | done
  deriving DecidableEq, Repr

/-- One dialed WebSocket and the two goroutines that use it. -/
structure Conn where
  /-- What the calls of `Write` on the WebSocket took. -/
  writes : List Bytes
  bw : BufWriter
  /-- `conn.Close()` was called. -/
  closed : Bool
  reader : ReaderPc
  writer : WriterPc
  /-- The packets `conn.WriteTo` was called with and did not refuse, with their indices. -/
  carried : List (Nat × Bytes)
  deriving DecidableEq

/-- Where `dialLoop` stands. -/
inductive DialPc where
  | top
  /-- in `c.dialContext(ctx)` -/
  | dialing
  /-- in `exchange` with connection `d`, at its select -/
  | exchanging (d : Nat)
  /-- at `conn.Close()` -/
  | closing (d : Nat)
  | ended
  deriving DecidableEq, Repr

/-- `RedialPacketConn`. -/
structure RedialPacketConn where
  sendQueue : Chan queueSize (Nat × Bytes)
  recvQueue : Chan queueSize (Nat × Bytes)
  /-- `closed` is closed. -/
  closed : Bool
  dialer : DialPc
  /-- Every connection that was dialed. -/
  conns : List Conn
  /-- Every packet that was passed to `WriteTo`. -/
  written : List Bytes
  deriving DecidableEq

namespace RedialPacketConn

/-- `NewRedialPacketConn`. -/
def new : RedialPacketConn := ⟨.make, .make, false, .top, [], []⟩

def setConn (s : RedialPacketConn) (d : Nat) (c : Conn) : RedialPacketConn :=
  { s with conns := s.conns.set d c }

@[simp] theorem setConn_conns (s : RedialPacketConn) (d : Nat) (c : Conn) :
    (s.setConn d c).conns = s.conns.set d c := rfl

end RedialPacketConn

/-! ## Steps -/

inductive DialMove where
  /-- the select at the top of the loop -/
  | check
  /-- `dialWS` fails -/
  | dialFailed
  /-- `dialWS` returns a WebSocket that fails after `room` bytes, if at all -/
  | dialed (room : Option Nat)
  /-- `<-readErrCh` in `exchange` -/
  | readErr
  /-- `<-writeErrCh` in `exchange` -/
  | writeErr
  | closeConn
  deriving DecidableEq, Repr

inductive ReaderMove where
  /-- `<-c.closed` -/
  | quit
  /-- `<-writeErrCh` -/
  | writeErr
  /-- neither channel is ready -/
  | goOn
  /-- `conn.ReadFrom` gets a packet, or an error -/
  | read (res : Option Bytes)
  /-- the select with the send to `recvQueue` -/
  | queue
  deriving DecidableEq, Repr

inductive WriterMove where
  /-- `<-c.closed` -/
  | quit
  /-- `<-readErrCh` -/
  | readErr
  /-- `p := <-c.sendQueue` -/
  | take
  /-- `conn.WriteTo(p, …)` on a WebSocket that fails after `room` more bytes, if at all -/
  | write (room : Option Nat)
  deriving DecidableEq, Repr

/-- A step of the system. -/
inductive Act where
  /-- `WriteTo(p)` puts `p` on the queue or drops it; its check of `closed` came before -/
  | writeTo (p : Bytes)
  /-- `WriteTo(p)` finds the connection closed -/
  | writeRefused (p : Bytes)
  /-- `ReadFrom` takes a packet -/
  | readFrom
  /-- `Close` -/
  | close
  | dial (m : DialMove)
  | reader (d : Nat) (m : ReaderMove)
  | writer (d : Nat) (m : WriterMove)
  deriving DecidableEq, Repr

/-- The buffer of the reading goroutine. -/
def packetSize : Nat := 1500

/-- `WrapWebSocketDial` on a fresh WebSocket: whether both writes succeed, and what was taken. -/
def writePreamble (id : ClientID) (room : Option Nat) : Bool × List Bytes :=
  match (⟨[], room⟩ : Sink).write token with
  | (_, false, k) => (false, k.writes)
  | (_, true, k) =>
      match k.write id.bytes with
      | (_, ok, k') => (ok, k'.writes)

def dialStep (id : ClientID) (s : RedialPacketConn) (m : DialMove) : Option RedialPacketConn :=
  match s.dialer, m with
  | .top, .check =>
      if s.closed then some { s with dialer := .ended } else some { s with dialer := .dialing }
  | .dialing, .dialFailed => some { s with closed := true, dialer := .ended }
  | .dialing, .dialed room =>
      match writePreamble id room with
      | (true, writes) =>
          some { s with
            conns := s.conns ++ [⟨writes, .new, false, .checking, .selecting, []⟩]
            dialer := .exchanging s.conns.length }
      | (false, writes) =>
          -- the WebSocket is closed and its error closes everything
          some { s with
            conns := s.conns ++ [⟨writes, .new, true, .done, .done, []⟩]
            closed := true
            dialer := .ended }
  -- a receive from an error channel meets the goroutine that reports, or finds the channel closed
  -- because the goroutine has returned
  | .exchanging d, .readErr =>
      match s.conns[d]? with
      | none => none
      | some c =>
          match c.reader with
          | .reporting => some { s.setConn d { c with reader := .done } with dialer := .closing d }
          | .done => some { s with dialer := .closing d }
          | _ => none
  | .exchanging d, .writeErr =>
      match s.conns[d]? with
      | none => none
      | some c =>
          match c.writer with
          | .reporting => some { s.setConn d { c with writer := .done } with dialer := .closing d }
          | .done => some { s with dialer := .closing d }
          | _ => none
  | .closing d, .closeConn =>
      match s.conns[d]? with
      | none => none
      | some c => some { s.setConn d { c with closed := true } with dialer := .top }
  | _, _ => none

def readerStep (s : RedialPacketConn) (d : Nat) (c : Conn) (m : ReaderMove) :
    Option RedialPacketConn :=
  match c.reader, m with
  | .checking, .quit => if s.closed then some (s.setConn d { c with reader := .done }) else none
  | .checking, .writeErr =>
      match c.writer with
      | .reporting => some (s.setConn d { c with reader := .done, writer := .done })
      | .done => some (s.setConn d { c with reader := .done })
      | _ => none
  | .checking, .goOn =>
      -- the default case, when nothing else is ready
      if s.closed = false ∧ c.writer ≠ .reporting ∧ c.writer ≠ .done then
        some (s.setConn d { c with reader := .reading })
      else none
  | .reading, .read res =>
      match res with
      | none => some (s.setConn d { c with reader := .reporting })
      -- nothing comes in on a closed connection
      | some data =>
          if c.closed then none
          else some (s.setConn d { c with reader := .queueing (data.take packetSize) })
  -- what came in is queued or dropped, also after `Close`
  | .queueing p, .queue =>
      some { s.setConn d { c with reader := .checking } with
        recvQueue := s.recvQueue.offer (d, p) }
  | _, _ => none

def writerStep (s : RedialPacketConn) (d : Nat) (c : Conn) (m : WriterMove) :
    Option RedialPacketConn :=
  match c.writer, m with
  | .selecting, .quit => if s.closed then some (s.setConn d { c with writer := .done }) else none
  | .selecting, .readErr =>
      match c.reader with
      | .reporting => some (s.setConn d { c with reader := .done, writer := .done })
      | .done => some (s.setConn d { c with writer := .done })
      | _ => none
  | .selecting, .take =>
      match s.sendQueue.recv with
      | some (some (i, p), q) =>
          some { s.setConn d { c with writer := .writing i p } with sendQueue := q }
      | _ => none
  -- `WriteData` and `Flush`; an error ends the goroutine
  | .writing i p, .write room =>
      -- a closed WebSocket takes nothing
      if c.closed = true ∧ room ≠ some 0 then none
      else
        match writePacket p c.bw ⟨c.writes, room⟩ with
        | (ok, bw, k) =>
            some (s.setConn d
              { c with
                writes := k.writes
                bw
                writer := if ok then .selecting else .reporting
                carried := if (encodeData p).isSome then c.carried ++ [(i, p)] else c.carried })
  | _, _ => none

def step (id : ClientID) (s : RedialPacketConn) : Act → Option RedialPacketConn
  | .writeTo p =>
      some { s with
        sendQueue := s.sendQueue.offer (s.written.length, p)
        written := s.written ++ [p] }
  | .writeRefused p => if s.closed then some { s with written := s.written ++ [p] } else none
  | .readFrom =>
      match s.recvQueue.recv with
      | some (some _, q) => some { s with recvQueue := q }
      | _ => none
  | .close => some { s with closed := true }
  | .dial m => dialStep id s m
  | .reader d m =>
      match s.conns[d]? with
      | none => none
      | some c => readerStep s d c m
  | .writer d m =>
      match s.conns[d]? with
      | none => none
      | some c => writerStep s d c m

/-! ## What a step can do -/

/-- The steps, one case for each branch of the code. -/
inductive Step (id : ClientID) (s : RedialPacketConn) : Act → RedialPacketConn → Prop where
  | writeTo (p : Bytes) :
      Step id s (.writeTo p)
        { s with
          sendQueue := s.sendQueue.offer (s.written.length, p)
          written := s.written ++ [p] }
  | writeRefused (p : Bytes) (hclosed : s.closed = true) :
      Step id s (.writeRefused p) { s with written := s.written ++ [p] }
  | readFrom {q} : Step id s .readFrom { s with recvQueue := q }
  | close : Step id s .close { s with closed := true }
  -- the dial loop
  | loopEnds (hpc : s.dialer = .top) (hclosed : s.closed = true) :
      Step id s (.dial .check) { s with dialer := .ended }
  | loopDials (hpc : s.dialer = .top) (hopen : s.closed = false) :
      Step id s (.dial .check) { s with dialer := .dialing }
  | dialFailed (hpc : s.dialer = .dialing) :
      Step id s (.dial .dialFailed) { s with closed := true, dialer := .ended }
  | dialed {room writes} (hpc : s.dialer = .dialing)
      (hpre : writePreamble id room = (true, writes)) :
      Step id s (.dial (.dialed room))
        { s with
          conns := s.conns ++ [⟨writes, .new, false, .checking, .selecting, []⟩]
          dialer := .exchanging s.conns.length }
  | dialCut {room writes} (hpc : s.dialer = .dialing)
      (hpre : writePreamble id room = (false, writes)) :
      Step id s (.dial (.dialed room))
        { s with
          conns := s.conns ++ [⟨writes, .new, true, .done, .done, []⟩]
          closed := true
          dialer := .ended }
  | exchangeReadErr {d c} (hpc : s.dialer = .exchanging d) (hc : s.conns[d]? = some c)
      (hr : c.reader = .reporting) :
      Step id s (.dial .readErr)
        { s.setConn d { c with reader := .done } with dialer := .closing d }
  | exchangeReadDone {d c} (hpc : s.dialer = .exchanging d) (hc : s.conns[d]? = some c)
      (hr : c.reader = .done) :
      Step id s (.dial .readErr) { s with dialer := .closing d }
  | exchangeWriteErr {d c} (hpc : s.dialer = .exchanging d) (hc : s.conns[d]? = some c)
      (hw : c.writer = .reporting) :
      Step id s (.dial .writeErr)
        { s.setConn d { c with writer := .done } with dialer := .closing d }
  | exchangeWriteDone {d c} (hpc : s.dialer = .exchanging d) (hc : s.conns[d]? = some c)
      (hw : c.writer = .done) :
      Step id s (.dial .writeErr) { s with dialer := .closing d }
  | connClosed {d c} (hpc : s.dialer = .closing d) (hc : s.conns[d]? = some c) :
      Step id s (.dial .closeConn) { s.setConn d { c with closed := true } with dialer := .top }
  -- the reading goroutine of connection `d`
  | readerQuit {d c} (hc : s.conns[d]? = some c) (hr : c.reader = .checking)
      (hclosed : s.closed = true) :
      Step id s (.reader d .quit) (s.setConn d { c with reader := .done })
  | readerWriteErr {d c} (hc : s.conns[d]? = some c) (hr : c.reader = .checking)
      (hw : c.writer = .reporting) :
      Step id s (.reader d .writeErr) (s.setConn d { c with reader := .done, writer := .done })
  | readerWriteDone {d c} (hc : s.conns[d]? = some c) (hr : c.reader = .checking)
      (hw : c.writer = .done) :
      Step id s (.reader d .writeErr) (s.setConn d { c with reader := .done })
  | readerGoesOn {d c} (hc : s.conns[d]? = some c) (hr : c.reader = .checking)
      (hopen : s.closed = false) (hw : c.writer ≠ .reporting ∧ c.writer ≠ .done) :
      Step id s (.reader d .goOn) (s.setConn d { c with reader := .reading })
  | readFailed {d c} (hc : s.conns[d]? = some c) (hr : c.reader = .reading) :
      Step id s (.reader d (.read none)) (s.setConn d { c with reader := .reporting })
  | readPacket {d c data} (hc : s.conns[d]? = some c) (hr : c.reader = .reading)
      (hopen : c.closed = false) :
      Step id s (.reader d (.read (some data)))
        (s.setConn d { c with reader := .queueing (data.take packetSize) })
  | packetQueued {d c p} (hc : s.conns[d]? = some c) (hr : c.reader = .queueing p) :
      Step id s (.reader d .queue)
        { s.setConn d { c with reader := .checking } with
          recvQueue := s.recvQueue.offer (d, p) }
  -- the writing goroutine of connection `d`
  | writerQuit {d c} (hc : s.conns[d]? = some c) (hw : c.writer = .selecting)
      (hclosed : s.closed = true) :
      Step id s (.writer d .quit) (s.setConn d { c with writer := .done })
  | writerReadErr {d c} (hc : s.conns[d]? = some c) (hw : c.writer = .selecting)
      (hr : c.reader = .reporting) :
      Step id s (.writer d .readErr) (s.setConn d { c with reader := .done, writer := .done })
  | writerReadDone {d c} (hc : s.conns[d]? = some c) (hw : c.writer = .selecting)
      (hr : c.reader = .done) :
      Step id s (.writer d .readErr) (s.setConn d { c with writer := .done })
  | took {d c i p q} (hc : s.conns[d]? = some c) (hw : c.writer = .selecting)
      (hq : s.sendQueue.buf = (i, p) :: q.buf) :
      Step id s (.writer d .take)
        { s.setConn d { c with writer := .writing i p } with sendQueue := q }
  | wrote {d c i p room ok bw k} (hc : s.conns[d]? = some c) (hw : c.writer = .writing i p)
      (hopen : ¬ (c.closed = true ∧ room ≠ some 0))
      (hwrite : writePacket p c.bw ⟨c.writes, room⟩ = (ok, bw, k)) :
      Step id s (.writer d (.write room))
        (s.setConn d
          { c with
            writes := k.writes
            bw
            writer := if ok then .selecting else .reporting
            carried := if (encodeData p).isSome then c.carried ++ [(i, p)] else c.carried })

variable {id : ClientID} {s s' : RedialPacketConn} {a : Act}

theorem dialStep_cases {m : DialMove} (h : dialStep id s m = some s') : Step id s (.dial m) s' := by
  unfold dialStep at h
  split at h
  · rename_i hpc
    split at h
    · rename_i hclosed
      cases h
      exact .loopEnds hpc hclosed
    · rename_i hopen
      cases h
      exact .loopDials hpc (eq_false_of_ne_true hopen)
  · rename_i hpc
    cases h
    exact .dialFailed hpc
  · rename_i hpc
    split at h
    · rename_i hpre
      cases h
      exact .dialed hpc hpre
    · rename_i hpre
      cases h
      exact .dialCut hpc hpre
  · rename_i hpc
    split at h
    · cases h
    · rename_i hc
      split at h
      · rename_i hr
        cases h
        exact .exchangeReadErr hpc hc hr
      · rename_i hr
        cases h
        exact .exchangeReadDone hpc hc hr
      · cases h
  · rename_i hpc
    split at h
    · cases h
    · rename_i hc
      split at h
      · rename_i hw
        cases h
        exact .exchangeWriteErr hpc hc hw
      · rename_i hw
        cases h
        exact .exchangeWriteDone hpc hc hw
      · cases h
  · rename_i hpc
    split at h
    · cases h
    · rename_i hc
      cases h
      exact .connClosed hpc hc
  · cases h

theorem readerStep_cases {d : Nat} {c : Conn} {m : ReaderMove} (hc : s.conns[d]? = some c)
    (h : readerStep s d c m = some s') : Step id s (.reader d m) s' := by
  unfold readerStep at h
  split at h
  · rename_i hr
    split at h
    · rename_i hclosed
      cases h
      exact .readerQuit hc hr hclosed
    · cases h
  · rename_i hr
    split at h
    · rename_i hw
      cases h
      exact .readerWriteErr hc hr hw
    · rename_i hw
      cases h
      exact .readerWriteDone hc hr hw
    · cases h
  · rename_i hr
    split at h
    · rename_i hidle
      cases h
      exact .readerGoesOn hc hr hidle.1 hidle.2
    · cases h
  · rename_i hr
    split at h
    · cases h
      exact .readFailed hc hr
    · split at h
      · cases h
      · rename_i hopen
        cases h
        exact .readPacket hc hr (eq_false_of_ne_true hopen)
  · rename_i hr
    cases h
    exact .packetQueued hc hr
  · cases h

theorem writerStep_cases {d : Nat} {c : Conn} {m : WriterMove} (hc : s.conns[d]? = some c)
    (h : writerStep s d c m = some s') : Step id s (.writer d m) s' := by
  unfold writerStep at h
  split at h
  · rename_i hw
    split at h
    · rename_i hclosed
      cases h
      exact .writerQuit hc hw hclosed
    · cases h
  · rename_i hw
    split at h
    · rename_i hr
      cases h
      exact .writerReadErr hc hw hr
    · rename_i hr
      cases h
      exact .writerReadDone hc hw hr
    · cases h
  · rename_i hw
    split at h
    · rename_i hrecv
      cases h
      exact .took hc hw (Chan.recv_eq_value.mp hrecv).1
    · cases h
  · rename_i hw
    split at h
    · cases h
    · rename_i hopen
      split at h
      rename_i hwrite
      cases h
      exact .wrote hc hw hopen hwrite
  · cases h

/-- Everything a step can do. -/
theorem step_cases (h : step id s a = some s') : Step id s a s' := by
  cases a with
  | writeTo p =>
    cases h
    exact .writeTo p
  | writeRefused p =>
    simp only [step] at h
    split at h
    · rename_i hclosed
      cases h
      exact .writeRefused p hclosed
    · cases h
  | readFrom =>
    simp only [step] at h
    split at h
    · cases h
      exact .readFrom
    · cases h
  | close =>
    cases h
    exact .close
  | dial m => exact dialStep_cases h
  | reader d m =>
    simp only [step] at h
    split at h
    · cases h
    · rename_i hc
      exact readerStep_cases hc h
  | writer d m =>
    simp only [step] at h
    split at h
    · cases h
    · rename_i hc
      exact writerStep_cases hc h

end PTBridge.Snowflake.Redial
