import PTBridge.Snowflake.QueuePacketConn
import PTBridge.Snowflake.Redial
import PTBridge.Transition.Log

/-!
# Packets from the server to a client, across redials

The way back of a packet: `WriteTo` of the server puts it on the queue of the client, the writing
goroutine of one `serveHTTP` call takes it and writes it as a chunk to its WebSocket, the reading
goroutine of one connection of the client's `RedialPacketConn` reads the chunk, and `ReadFrom`
returns it. The client may have several WebSockets at a time, of which some are dying, and other
clients, or other WebSockets under the same id, take part as they like.

- `step` puts the server and one client together. A call of `ReadData` gets the bytes that follow on
  its WebSocket in pieces of any size, up to where the WebSocket breaks.
- `Step` and `step_cases` list what a step can do.
-/

namespace PTBridge.Snowflake.Downlink

open PTBridge.Stream PTBridge.Container PTBridge.Transition
open PTBridge.Snowflake.Serve (Server Lookup ServeCall clientMapTimeout)
open PTBridge.Snowflake.Redial (RedialPacketConn packetSize)

/-! ## State -/

/-- The server's end of the WebSocket of one `serveHTTP` call. -/
structure Wire where
  bw : BufWriter
  /-- What the calls of `Write` on the WebSocket took. -/
  writes : List Bytes
  /-- The packets `WriteData` was called with and did not refuse, with their positions among the
  packets of `WriteTo`. -/
  carried : List (Nat × Bytes)
  deriving DecidableEq

def Wire.new : Wire := ⟨.new, [], []⟩

/-- The client's end of the WebSocket of one connection. -/
structure Link where
  /-- The `serveHTTP` call at the other end. -/
  call : Option Nat
  /-- The number of bytes that were read. -/
  consumed : Nat
  deriving DecidableEq

def Link.new : Link := ⟨none, 0⟩

/-- What a call of `ReadFrom` returned. -/
structure Returned where
  /-- The size of the caller's buffer. -/
  size : Nat
  /-- The connection the packet came in on. -/
  conn : Nat
  data : Bytes
  deriving DecidableEq

/-- The server, one client, and the WebSockets between them. -/
structure System where
  server : Server ClientID
  /-- By the number of the `serveHTTP` call. -/
  wires : Nat → Wire
  /-- Every packet a writing goroutine took, under the number of its call. -/
  taken : List (Nat × Lookup ClientID × Nat × Bytes)
  client : RedialPacketConn
  /-- By the number of the client's connection. -/
  links : Nat → Link
  /-- Every packet that `ReadData` returned, under the number of the connection. -/
  pulled : List (Nat × Bytes)
  returned : List Returned

namespace System

def new : System := ⟨.new, fun _ => .new, [], .new, fun _ => .new, [], []⟩

/-- The packets the writing goroutine of call `k` took. -/
def takenBy (s : System) (k : Nat) : List (Nat × Bytes) := (ofKey s.taken k).map Prod.snd

def setWire (s : System) (k : Nat) (w : Wire) : System :=
  { s with wires := Function.update s.wires k w }

def setLink (s : System) (d : Nat) (l : Link) : System :=
  { s with links := Function.update s.links d l }

end System

/-! ## Steps -/

/-- A step of the system. -/
inductive Act where
  /-- a step of the server that is none of the next two -/
  | server (a : Serve.Act ClientID)
  /-- the writing goroutine of call `k` takes a packet -/
  | receive (k : Nat)
  /-- it writes the packet to a WebSocket that fails after `room` more bytes, if at all; that
  `Flush` returns afterwards is a step of the server -/
  | write (k : Nat) (room : Option Nat)
  /-- the WebSocket of connection `d` gets past the preamble -/
  | accept (d : Nat)
  /-- a step of the client that is none of those below -/
  | client (a : Redial.Act)
  /-- `ReadData` in the reading goroutine of connection `d`, which gets the bytes of `pieces` before
  its WebSocket breaks with `err` -/
  | read (d : Nat) (pieces : List Bytes) (err : ReadError)
  /-- `ReadFrom` is called with a buffer of `n` bytes -/
  | readFrom (n : Nat)
  deriving DecidableEq

/-- The steps of a writing goroutine that move a packet. -/
def movesPacket : Serve.Act ClientID → Bool
  | .writer _ .receive => true
  | .writer _ (.write _) => true
  | _ => false

/-- The steps of the client that take a packet in. -/
def takesPacket : Redial.Act → Bool
  | .reader _ (.read _) => true
  | .readFrom => true
  | _ => false

def receiveStep (s : System) (k : Nat) : Option System :=
  match Serve.step clientMapTimeout s.server (.writer k .receive) with
  | none => none
  | some server =>
      match server.received.getLast? with
      | none => none
      | some e => some { s with server, taken := s.taken ++ [(k, e)] }

def writeStep (s : System) (k : Nat) (room : Option Nat) : Option System :=
  match s.server.calls[k]? with
  | none => none
  | some c =>
      match c.writer with
      | .writing _ p =>
          -- a closed WebSocket takes nothing
          if c.returned = true ∧ room ≠ some 0 then none
          else
            match writePacket p (s.wires k).bw ⟨(s.wires k).writes, room⟩ with
            | (ok, bw, sink) =>
                match Serve.step clientMapTimeout s.server (.writer k (.write ok)) with
                | none => none
                | some server =>
                    some { s.setWire k
                        { bw
                          writes := sink.writes
                          carried := if (encodeData p).isSome then s.takenBy k
                            else (s.wires k).carried } with
                      server }
      | _ => none

def acceptStep (id : ClientID) (s : System) (d : Nat) : Option System :=
  match s.client.conns[d]?, (s.links d).call with
  | some c, none =>
      if (preamble id).isPrefixOf c.writes.flatten then
        match Serve.step clientMapTimeout s.server (.accept id) with
        | none => none
        | some server =>
            some { s.setLink d { s.links d with call := some s.server.calls.length } with server }
      else none
  | _, _ => none

/-- The bytes on the WebSocket of connection `d`. -/
def System.bytesOn (s : System) (d : Nat) : Bytes :=
  match (s.links d).call with
  | none => []
  | some k => (s.wires k).writes.flatten

def readStep (id : ClientID) (s : System) (d : Nat) (pieces : List Bytes) (err : ReadError) :
    Option System :=
  if pieces.flatten.isPrefixOf ((s.bytesOn d).drop (s.links d).consumed) then
    match readData (pipeReader pieces err) with
    | (.ok p, reader) =>
        match Redial.step id s.client (.reader d (.read (some p))) with
        | none => none
        | some client =>
            let n := pieces.flatten.length - reader.bytes.length
            some { s.setLink d { s.links d with consumed := (s.links d).consumed + n } with
              client, pulled := s.pulled ++ [(d, p)] }
    | (.error _, _) =>
        -- nothing reads from this WebSocket again
        match Redial.step id s.client (.reader d (.read none)) with
        | none => none
        | some client => some { s with client }
  else none

def readFromStep (s : System) (n : Nat) : Option System :=
  match s.client.recvQueue.recv with
  | some (some (d, data), recvQueue) =>
      some { s with
        client := { s.client with recvQueue }
        returned := s.returned ++ [⟨n, d, data.take n⟩] }
  | _ => none

def step (id : ClientID) (s : System) : Act → Option System
  | .server a =>
      if movesPacket a then none
      else
        match Serve.step clientMapTimeout s.server a with
        | none => none
        | some server => some { s with server }
  | .receive k => receiveStep s k
  | .write k room => writeStep s k room
  | .accept d => acceptStep id s d
  | .client a =>
      if takesPacket a then none
      else
        match Redial.step id s.client a with
        | none => none
        | some client => some { s with client }
  | .read d pieces err => readStep id s d pieces err
  | .readFrom n => readFromStep s n

/-- The steps, with what the two programs do in them. -/
inductive Step (id : ClientID) (s : System) : Act → System → Prop where
  | server {a server} (ha : movesPacket a = false)
      (h : Serve.step clientMapTimeout s.server a = some server) :
      Step id s (.server a) { s with server }
  | receive {k c l i p q} (hc : s.server.calls[k]? = some c) (hw : c.writer = .receiving l)
      (h : Serve.step clientMapTimeout s.server (.writer k .receive) =
        some ((s.server.take l q i p).setCall k { c with writer := .writing l p })) :
      Step id s (.receive k)
        { s with
          server := (s.server.take l q i p).setCall k { c with writer := .writing l p }
          taken := s.taken ++ [(k, l, i, p)] }
  | wrote {k c l p room bw sink} (hc : s.server.calls[k]? = some c) (hw : c.writer = .writing l p)
      (hwrite : writePacket p (s.wires k).bw ⟨(s.wires k).writes, room⟩ = (true, bw, sink))
      (h : Serve.step clientMapTimeout s.server (.writer k (.write true)) =
        some (s.server.setCall k { c with writer := .written l })) :
      Step id s (.write k room)
        { s.setWire k
            { bw
              writes := sink.writes
              carried := if (encodeData p).isSome then s.takenBy k else (s.wires k).carried } with
          server := s.server.setCall k { c with writer := .written l } }
  | writeFailed {k c l p room bw sink errCh} (hc : s.server.calls[k]? = some c)
      (hw : c.writer = .writing l p)
      (hwrite : writePacket p (s.wires k).bw ⟨(s.wires k).writes, room⟩ = (false, bw, sink))
      (h : Serve.step clientMapTimeout s.server (.writer k (.write false)) =
        some (s.server.setCall k { c with writer := .ended, errCh })) :
      Step id s (.write k room)
        { s.setWire k
            { bw
              writes := sink.writes
              carried := if (encodeData p).isSome then s.takenBy k else (s.wires k).carried } with
          server := s.server.setCall k { c with writer := .ended, errCh } }
  | accept {d c} (hc : s.client.conns[d]? = some c) (hlink : (s.links d).call = none)
      (hpre : preamble id <+: c.writes.flatten)
      (h : Serve.step clientMapTimeout s.server (.accept id) =
        some { s.server with
          calls := s.server.calls ++ [⟨id, .reading, .starting, .make, false⟩] }) :
      Step id s (.accept d)
        { s.setLink d { s.links d with call := some s.server.calls.length } with
          server := { s.server with
            calls := s.server.calls ++ [⟨id, .reading, .starting, .make, false⟩] } }
  | client {a client} (ha : takesPacket a = false) (h : Redial.Step id s.client a client) :
      Step id s (.client a) { s with client }
  | read {d pieces err p reader client}
      (hpieces : pieces.flatten <+: (s.bytesOn d).drop (s.links d).consumed)
      (hread : readData (pipeReader pieces err) = (.ok p, reader))
      (h : Redial.Step id s.client (.reader d (.read (some p))) client) :
      Step id s (.read d pieces err)
        { s.setLink d { s.links d with
              consumed := (s.links d).consumed + (pieces.flatten.length - reader.bytes.length) } with
          client, pulled := s.pulled ++ [(d, p)] }
  | readFailed {d pieces err client} (h : Redial.Step id s.client (.reader d (.read none)) client) :
      Step id s (.read d pieces err) { s with client }
  | readFrom {n d data q} (hq : s.client.recvQueue.buf = (d, data) :: q.buf) :
      Step id s (.readFrom n)
        { s with
          client := { s.client with recvQueue := q }
          returned := s.returned ++ [⟨n, d, data.take n⟩] }

variable {id : ClientID} {s s' : System} {a : Act}

theorem receiveStep_cases {k : Nat} (h : receiveStep s k = some s') : Step id s (.receive k) s' := by
  unfold receiveStep at h
  split at h
  · cases h
  · rename_i server hserver
    cases Serve.step_cases hserver with
    | writerReceives hc hw hq =>
      simp only [Server.setCall, Server.take, List.getLast?_concat, Option.some.injEq] at h
      subst h
      exact .receive hc hw hserver

theorem writeStep_cases {k : Nat} {room : Option Nat} (h : writeStep s k room = some s') :
    Step id s (.write k room) s' := by
  unfold writeStep at h
  split at h
  · cases h
  · rename_i c hc
    split at h
    · rename_i l p hw
      split at h
      · cases h
      · split at h
        rename_i ok bw sink hwrite
        split at h
        · cases h
        · rename_i server hserver
          cases h
          cases Serve.step_cases hserver with
          | writerWrites hc' hw' =>
            rw [hc] at hc'
            cases hc'
            rw [hw] at hw'
            cases hw'
            exact .wrote hc hw hwrite hserver
          | writerFails hc' hw' =>
            rw [hc] at hc'
            cases hc'
            rw [hw] at hw'
            cases hw'
            exact .writeFailed hc hw hwrite hserver
    · cases h

theorem acceptStep_cases {d : Nat} (h : acceptStep id s d = some s') :
    Step id s (.accept d) s' := by
  unfold acceptStep at h
  split at h
  · rename_i c hc hlink
    split at h
    · rename_i hpre
      cases h
      exact .accept hc hlink (List.isPrefixOf_iff_prefix.mp hpre) rfl
    · cases h
  · cases h

theorem readStep_cases {d : Nat} {pieces : List Bytes} {err : ReadError}
    (h : readStep id s d pieces err = some s') : Step id s (.read d pieces err) s' := by
  unfold readStep at h
  split at h
  · rename_i hpieces
    split at h
    · rename_i p reader hread
      split at h
      · cases h
      · rename_i client hclient
        cases h
        exact .read (List.isPrefixOf_iff_prefix.mp hpieces) hread (Redial.step_cases hclient)
    · split at h
      · cases h
      · rename_i client hclient
        cases h
        exact .readFailed (Redial.step_cases hclient)
  · cases h

theorem step_cases (h : step id s a = some s') : Step id s a s' := by
  cases a with
  | server a =>
    simp only [step] at h
    split at h
    · cases h
    · rename_i ha
      split at h
      · cases h
      · rename_i server hserver
        cases h
        exact .server (eq_false_of_ne_true ha) hserver
  | receive k => exact receiveStep_cases h
  | write k room => exact writeStep_cases h
  | accept d => exact acceptStep_cases h
  | client a =>
    simp only [step] at h
    split at h
    · cases h
    · rename_i ha
      split at h
      · cases h
      · rename_i client hclient
        cases h
        exact .client (eq_false_of_ne_true ha) (Redial.step_cases hclient)
  | read d pieces err => exact readStep_cases h
  | readFrom n =>
    simp only [step, readFromStep] at h
    split at h
    · rename_i d data q hq
      cases h
      exact .readFrom (Chan.recv_eq_value.mp hq).1
    · cases h

end PTBridge.Snowflake.Downlink
