import PTBridge.Snowflake.WebSocket
import PTBridge.Stream.Pipe.Flow

/-!
# The two loops of `websocketconn`

`New` puts a pipe and a goroutine between the callers of a `Conn` and each direction of the
WebSocket: `readLoop` copies the messages that arrive into the first pipe, `writeLoop` sends what it
reads from the second one, at most 2048 bytes in a message. Any number of goroutines call `Read`,
`Write` and `Close`.

- `step` interleaves the callers, the loops and the WebSocket; `Step` and `step_cases` list what a
  step can do.
- `Outgoing` is the invariant of `writeLoop`, and `writes_sent` its result: with any number of
  concurrent writers the messages are those of `writeMessages`, the writes taken in the order in
  which they got the pipe.
- `Incoming` is the invariant of `readLoop`, and `reads_complete` its result: the calls of `Read`
  read `pipeReader`, and one that returns `io.EOF` comes after everything that has arrived.
-/

namespace PTBridge.Snowflake.WebSocketConn

open PTBridge.Stream PTBridge.Transition

/-- The errors of a `websocket.Conn`. -/
inductive WsError where
  /-- a `CloseError` -/
  | close (code : Nat)
  /-- the `io.EOF` of the connection below, where it is passed on: a `tls.Conn` can return it together
  with the bytes of a frame that does not fit into the read buffer, and `NextReader` then returns it
  again; otherwise it is a `CloseError` with `CloseAbnormalClosure` -/
  | eof
  | other (n : Nat)
  deriving DecidableEq, Repr

/-- What `readLoop` and `writeLoop` return. -/
abbrev Err := PipeError WsError

def WsError.toErr : WsError → Err
  | .eof => .eof
  | e => .given e

/-- `closeErrorToEOF`, with `CloseNormalClosure` and `CloseNoStatusReceived`. -/
def closeErrorToEOF : Err → Err
  | .given (.close code) => if code = 1000 ∨ code = 1005 then .eof else .given (.close code)
  | err => err

inductive MessageType where
  | text
  | binary
  | other
  deriving DecidableEq, Repr

/-- The goroutine of `readLoop`. -/
inductive ReadPc where
  /-- at `ws.NextReader()` -/
  | next
  /-- in `io.Copy`, at the read from the message -/
  | copying
  /-- in `io.Copy`, at call `w` of `Write` on the pipe -/
  | writing (w : Nat)
  /-- `readLoop` has returned -/
  | closing (err : Err)
  | ended (err : Err)
  deriving DecidableEq, Repr

/-- The goroutine of `writeLoop`. -/
inductive WritePc where
  | reading
  /-- at call `r` of `Read` on the pipe -/
  | waiting (r : Nat)
  | sending (data : Bytes)
  /-- `writeLoop` has returned -/
  | closing (err : Err)
  | ended (err : Err)
  deriving DecidableEq, Repr

/-- Where a call of `Close` stands. -/
inductive CloseStage where
  | reader
  | writer
  | control
  | ws
  | returned
  deriving DecidableEq, Repr

structure Conn where
  /-- `pr1` and `pw1` -/
  reader : Pipe WsError
  /-- `pr2` and `pw2` -/
  writer : Pipe WsError
  readPc : ReadPc
  writePc : WritePc
  closers : List CloseStage
  /-- The code of the Close frame that was sent; after it nothing more can be sent. -/
  closeFrame : Option Nat
  /-- The WebSocket is closed. -/
  closed : Bool
  /-- The messages that were sent. -/
  sent : List Bytes
  /-- The message that could not be sent. -/
  lost : List Bytes
  deriving DecidableEq, Repr

namespace Conn

def new : Conn := ⟨.new, .new, .next, .reading, [], none, false, [], []⟩

/-- Nothing stands in the way of another frame. -/
def canSend (c : Conn) : Bool := c.closeFrame.isNone && !c.closed

end Conn

/-- The moves on the first pipe that are not `readLoop`'s or `Close`'s own. -/
def onReader : Pipe.Act WsError → Bool
  | .write _ | .closeRead _ | .closeWrite _ => false
  | _ => true

/-- The moves on the second pipe that are not `writeLoop`'s or `Close`'s own. -/
def onWriter : Pipe.Act WsError → Bool
  | .read _ | .closeRead _ | .closeWrite _ => false
  | _ => true

inductive Act where
  /-- `Read` is called or goes on, or the `Write` of `readLoop` goes on -/
  | reader (a : Pipe.Act WsError)
  /-- `Write` is called or goes on, or the `Read` of `writeLoop` goes on -/
  | writer (a : Pipe.Act WsError)
  | nextReader (t : MessageType)
  /-- `NextReader`, or a read from a message, fails, where `io.Copy` takes an `io.EOF` for the end of
  the message (`copyEnds`); for a Close frame the WebSocket may have sent one back -/
  | readFails (e : WsError) (echoed : Bool)
  /-- `io.Copy` reads bytes of the message and calls `Write` -/
  | piece (b : Bytes)
  | copyEnds
  | wrote
  | endRead
  /-- `writeLoop` calls `Read` -/
  | take
  | took
  | send
  | sendFails (e : WsError)
  | endWrite
  | close
  /-- call `i` of `Close` goes on; `ok` is whether `WriteControl` succeeds -/
  | closeStep (i : Nat) (ok : Bool)
  deriving DecidableEq

/-- The buffer of `io.Copy`. -/
def copyBuffer : Nat := 32768

/-- The Close frame that the default handler sends back. -/
def echo (c : Conn) (e : WsError) (echoed : Bool) : Option (Option Nat) :=
  match e, echoed with
  | .close code, true => if c.canSend then some (some code) else none
  | _, true => none
  | _, false => some c.closeFrame

def closeStep (c : Conn) (i : Nat) (ok : Bool) : Option Conn :=
  match c.closers[i]? with
  | some .reader =>
      some { c with reader := c.reader.closeRead none, closers := c.closers.set i .writer }
  | some .writer =>
      some { c with writer := c.writer.closeWrite none, closers := c.closers.set i .control }
  | some .control =>
      if ok then
        -- the payload is empty, which is received as `CloseNoStatusReceived`
        if c.canSend then some { c with closeFrame := some 1005, closers := c.closers.set i .ws }
        else none
      else some { c with closers := c.closers.set i .ws }
  | some .ws => some { c with closed := true, closers := c.closers.set i .returned }
  | _ => none

def step (c : Conn) : Act → Option Conn
  | .reader a =>
      if onReader a then (c.reader.step a).map fun p => { c with reader := p } else none
  | .writer a =>
      if onWriter a then (c.writer.step a).map fun p => { c with writer := p } else none
  | .nextReader t =>
      if c.readPc = .next then
        if t = .other then some c else some { c with readPc := .copying }
      else none
  | .readFails e echoed =>
      if c.readPc = .next ∨ (c.readPc = .copying ∧ e ≠ .eof) then
        (echo c e echoed).map fun frame =>
          { c with readPc := .closing e.toErr, closeFrame := frame }
      else none
  | .piece b =>
      if c.readPc = .copying ∧ b ≠ [] ∧ b.length ≤ copyBuffer then
        (c.reader.step (.write b)).map fun p =>
          { c with reader := p, readPc := .writing c.reader.writes.length }
      else none
  | .copyEnds => if c.readPc = .copying then some { c with readPc := .next } else none
  | .wrote =>
      match c.readPc with
      | .writing w =>
          match c.reader.writes[w]? with
          | some ⟨_, _, .returned none⟩ => some { c with readPc := .copying }
          | some ⟨_, _, .returned (some e)⟩ => some { c with readPc := .closing e }
          | _ => none
      | _ => none
  | .endRead =>
      match c.readPc with
      | .closing err =>
          some { c with
            reader := c.reader.closeWrite (some (closeErrorToEOF err)), readPc := .ended err }
      | _ => none
  | .take =>
      if c.writePc = .reading then
        (c.writer.step (.read messageSize)).map fun p =>
          { c with writer := p, writePc := .waiting c.writer.reads.length }
      else none
  | .took =>
      match c.writePc with
      | .waiting r =>
          match c.writer.reads[r]? with
          | some ⟨_, .returned b none⟩ => some { c with writePc := .sending b }
          | some ⟨_, .returned _ (some e)⟩ => some { c with writePc := .closing e }
          | _ => none
      | _ => none
  | .send =>
      match c.writePc with
      | .sending b =>
          if c.canSend then some { c with sent := c.sent ++ [b], writePc := .reading } else none
      | _ => none
  | .sendFails e =>
      match c.writePc with
      | .sending b => some { c with lost := [b], writePc := .closing e.toErr }
      | _ => none
  | .endWrite =>
      match c.writePc with
      | .closing err =>
          some { c with
            writer := c.writer.closeRead (some (closeErrorToEOF err)), writePc := .ended err }
      | _ => none
  | .close => some { c with closers := c.closers ++ [.reader] }
  | .closeStep i ok => closeStep c i ok

/-- What a step can do. -/
inductive Step (c : Conn) : Act → Conn → Prop where
  | reader {a : Pipe.Act WsError} {p : Pipe WsError} (ha : onReader a = true)
      (hs : Pipe.Step c.reader a p) : Step c (.reader a) { c with reader := p }
  | writer {a : Pipe.Act WsError} {p : Pipe WsError} (ha : onWriter a = true)
      (hs : Pipe.Step c.writer a p) : Step c (.writer a) { c with writer := p }
  | skip {t : MessageType} (hpc : c.readPc = .next) : Step c (.nextReader t) c
  | message {t : MessageType} (hpc : c.readPc = .next) :
      Step c (.nextReader t) { c with readPc := .copying }
  | readFails {e : WsError} {echoed : Bool} {frame : Option Nat}
      (hpc : c.readPc = .next ∨ (c.readPc = .copying ∧ e ≠ .eof))
      (hframe : frame = c.closeFrame ∨ c.canSend = true) :
      Step c (.readFails e echoed) { c with readPc := .closing e.toErr, closeFrame := frame }
  | piece {b : Bytes} (hpc : c.readPc = .copying) (hne : b ≠ []) :
      Step c (.piece b) { c with
        reader := { c.reader with writes := c.reader.writes ++ [⟨b, 0, .entering⟩] }
        readPc := .writing c.reader.writes.length }
  | copyEnds (hpc : c.readPc = .copying) : Step c .copyEnds { c with readPc := .next }
  | wrote {w n : Nat} {b : Bytes} (hpc : c.readPc = .writing w)
      (hx : c.reader.writes[w]? = some ⟨b, n, .returned none⟩) :
      Step c .wrote { c with readPc := .copying }
  | writeFailed {w n : Nat} {b : Bytes} {e : Err} (hpc : c.readPc = .writing w)
      (hx : c.reader.writes[w]? = some ⟨b, n, .returned (some e)⟩) :
      Step c .wrote { c with readPc := .closing e }
  | endRead {err : Err} (hpc : c.readPc = .closing err) :
      Step c .endRead { c with
        reader := c.reader.closeWrite (some (closeErrorToEOF err)), readPc := .ended err }
  | take (hpc : c.writePc = .reading) :
      Step c .take { c with
        writer := { c.writer with reads := c.writer.reads ++ [⟨messageSize, .entering⟩] }
        writePc := .waiting c.writer.reads.length }
  | took {r m : Nat} {b : Bytes} (hpc : c.writePc = .waiting r)
      (hz : c.writer.reads[r]? = some ⟨m, .returned b none⟩) :
      Step c .took { c with writePc := .sending b }
  | readFailed {r m : Nat} {b : Bytes} {e : Err} (hpc : c.writePc = .waiting r)
      (hz : c.writer.reads[r]? = some ⟨m, .returned b (some e)⟩) :
      Step c .took { c with writePc := .closing e }
  | send {b : Bytes} (hpc : c.writePc = .sending b) (hcan : c.canSend = true) :
      Step c .send { c with sent := c.sent ++ [b], writePc := .reading }
  | sendFails {b : Bytes} {e : WsError} (hpc : c.writePc = .sending b) :
      Step c (.sendFails e) { c with lost := [b], writePc := .closing e.toErr }
  | endWrite {err : Err} (hpc : c.writePc = .closing err) :
      Step c .endWrite { c with
        writer := c.writer.closeRead (some (closeErrorToEOF err)), writePc := .ended err }
  | close : Step c .close { c with closers := c.closers ++ [.reader] }
  | closeReader {i : Nat} {ok : Bool} (hi : c.closers[i]? = some .reader) :
      Step c (.closeStep i ok)
        { c with reader := c.reader.closeRead none, closers := c.closers.set i .writer }
  | closeWriter {i : Nat} {ok : Bool} (hi : c.closers[i]? = some .writer) :
      Step c (.closeStep i ok)
        { c with writer := c.writer.closeWrite none, closers := c.closers.set i .control }
  | control {i : Nat} {ok : Bool} {frame : Option Nat} (hi : c.closers[i]? = some .control)
      (hframe : frame = c.closeFrame ∨ c.canSend = true) :
      Step c (.closeStep i ok) { c with closeFrame := frame, closers := c.closers.set i .ws }
  | closeWs {i : Nat} {ok : Bool} (hi : c.closers[i]? = some .ws) :
      Step c (.closeStep i ok) { c with closed := true, closers := c.closers.set i .returned }

variable {c c' : Conn} {act : Act}

theorem echo_cases {e : WsError} {echoed : Bool} {frame : Option Nat}
    (h : echo c e echoed = some frame) : frame = c.closeFrame ∨ c.canSend = true := by
  unfold echo at h
  split at h
  · split at h
    · rename_i hcan
      exact Or.inr hcan
    · cases h
  · cases h
  · exact Or.inl (Option.some.inj h).symm

theorem closeStep_cases {i : Nat} {ok : Bool} (h : closeStep c i ok = some c') :
    Step c (.closeStep i ok) c' := by
  unfold closeStep at h
  split at h
  · rename_i hi
    cases h
    exact .closeReader hi
  · rename_i hi
    cases h
    exact .closeWriter hi
  · rename_i hi
    split at h
    · split at h <;> cases h
      rename_i hcan
      exact .control hi (Or.inr hcan)
    · cases h
      exact .control hi (Or.inl rfl)
  · rename_i hi
    cases h
    exact .closeWs hi
  · cases h

theorem step_cases (h : step c act = some c') : Step c act c' := by
  cases act with
  | reader a =>
    simp only [step] at h
    split at h
    · rename_i ha
      obtain ⟨p, hp, rfl⟩ := Option.map_eq_some_iff.mp h
      exact .reader ha (Pipe.step_cases hp)
    · cases h
  | writer a =>
    simp only [step] at h
    split at h
    · rename_i ha
      obtain ⟨p, hp, rfl⟩ := Option.map_eq_some_iff.mp h
      exact .writer ha (Pipe.step_cases hp)
    · cases h
  | nextReader t =>
    simp only [step] at h
    split at h
    · rename_i hpc
      split at h <;> cases h
      · exact .skip hpc
      · exact .message hpc
    · cases h
  | readFails e echoed =>
    simp only [step] at h
    split at h
    · rename_i hpc
      obtain ⟨frame, hframe, rfl⟩ := Option.map_eq_some_iff.mp h
      exact .readFails hpc (echo_cases hframe)
    · cases h
  | piece b =>
    simp only [step, Pipe.step, Option.map_some] at h
    split at h
    · rename_i hpc
      cases h
      exact .piece hpc.1 hpc.2.1
    · cases h
  | copyEnds =>
    simp only [step] at h
    split at h <;> cases h
    rename_i hpc
    exact .copyEnds hpc
  | wrote =>
    simp only [step] at h
    split at h
    · rename_i hpc
      split at h <;> cases h
      · rename_i hx
        exact .wrote hpc hx
      · rename_i hx
        exact .writeFailed hpc hx
    · cases h
  | endRead =>
    simp only [step] at h
    split at h <;> cases h
    rename_i hpc
    exact .endRead hpc
  | take =>
    simp only [step, Pipe.step, Option.map_some] at h
    split at h <;> cases h
    rename_i hpc
    exact .take hpc
  | took =>
    simp only [step] at h
    split at h
    · rename_i hpc
      split at h <;> cases h
      · rename_i hz
        exact .took hpc hz
      · rename_i hz
        exact .readFailed hpc hz
    · cases h
  | send =>
    simp only [step] at h
    split at h
    · rename_i hpc
      split at h <;> cases h
      rename_i hcan
      exact .send hpc hcan
    · cases h
  | sendFails e =>
    simp only [step] at h
    split at h <;> cases h
    rename_i hpc
    exact .sendFails hpc
  | endWrite =>
    simp only [step] at h
    split at h <;> cases h
    rename_i hpc
    exact .endWrite hpc
  | close =>
    cases h
    exact .close
  | closeStep i ok => exact closeStep_cases h

/-! ## `writeLoop` -/

/-- The bytes of a call of `Read` that has returned without an error. -/
def got (z : PipeRead WsError) : List Bytes :=
  match z.stage with
  | .returned b none => [b]
  | _ => []

/-- What `writeLoop` has read and not sent yet. -/
def Conn.hand (c : Conn) : List Bytes :=
  match c.writePc with
  | .sending b => [b]
  | .waiting r => (c.writer.reads[r]?.map got).getD []
  | _ => []

/-- `writeLoop` has returned. -/
def WritePc.over : WritePc → Bool
  | .closing _ | .ended _ => true
  | _ => false

/-- The invariant of `writeLoop`: it is the only reader of its pipe, has one call of `Read` at a
time, and everything it has read was sent, is in its hands, or is the one message that failed. -/
structure Outgoing (c : Conn) : Prop where
  flow : c.writer.Flow
  size : ∀ (r : Nat) (z : PipeRead WsError), c.writer.reads[r]? = some z → z.size = messageSize
  turn : ∀ (r : Nat) (z : PipeRead WsError), c.writer.reads[r]? = some z →
    (∃ b err, z.stage = .returned b err) ∨ c.writePc = .waiting r
  lost : c.lost = [] ∨ (c.writePc.over = true ∧ c.lost.length = 1)
  sent : c.sent ++ c.hand ++ c.lost = c.writer.moved.map Handover.data

theorem outgoing_new : Outgoing .new where
  flow := Pipe.flow_new
  size := by simp [Conn.new, Pipe.new]
  turn := by simp [Conn.new, Pipe.new]
  lost := Or.inl rfl
  sent := rfl

/-- A step that does not touch what `writeLoop` reads and sends. -/
theorem Outgoing.same (h : Outgoing c) (hflow : c'.writer.Flow)
    (hreads : c'.writer.reads = c.writer.reads) (hmoved : c'.writer.moved = c.writer.moved)
    (hpc : c'.writePc = c.writePc) (hsent : c'.sent = c.sent) (hlost : c'.lost = c.lost) :
    Outgoing c' := by
  refine ⟨hflow, ?_, ?_, ?_, ?_⟩
  · rw [hreads]
    exact h.size
  · rw [hreads, hpc]
    exact h.turn
  · rw [hlost, hpc]
    exact h.lost
  · rw [hsent, hlost, hmoved, Conn.hand, hpc, hreads]
    exact h.sent

/-- Before `writeLoop` returns no message has failed. -/
theorem Outgoing.kept (h : Outgoing c) (hpc : c.writePc.over = false) : c.lost = [] := by
  rcases h.lost with hnil | ⟨hover, -⟩
  · exact hnil
  · rw [hpc] at hover
    cases hover

/-- The call of `Read` that has not returned goes on. -/
theorem Outgoing.setRead {r : Nat} {y z : PipeRead WsError} {p : Pipe WsError} (h : Outgoing c)
    (hflow : p.Flow) (hz : c.writer.reads[r]? = some z) (hold : ∀ b err, z.stage ≠ .returned b err)
    (hsize : y.size = z.size) (hreads : p.reads = c.writer.reads.set r y)
    (hmoved : p.moved.map Handover.data = c.writer.moved.map Handover.data ++ got y) :
    Outgoing { c with writer := p } := by
  have hpc : c.writePc = .waiting r := by
    rcases h.turn r z hz with ⟨b, err, hret⟩ | hpc
    · exact absurd hret (hold b err)
    · exact hpc
  have hlost : c.lost = [] := h.kept (by rw [hpc]; rfl)
  have hnone : got z = [] := by
    unfold got
    split
    · rename_i b hret
      exact absurd hret (hold b none)
    · rfl
  refine ⟨hflow, ?_, ?_, h.lost, ?_⟩
  · intro i x hx
    rw [hreads] at hx
    rcases pool_set_some hx with ⟨-, rfl⟩ | ⟨-, hi⟩
    · rw [hsize]
      exact h.size r z hz
    · exact h.size i x hi
  · intro i x hx
    rw [hreads] at hx
    rcases pool_set_some hx with ⟨rfl, -⟩ | ⟨-, hi⟩
    · exact Or.inr hpc
    · exact h.turn i x hi
  · have hsent := h.sent
    simp only [Conn.hand, hpc, hz, hlost, Option.map_some, Option.getD_some, hnone] at hsent
    simp only [Conn.hand, hpc, hlost, hmoved, hreads, pool_set_self hz, Option.map_some,
      Option.getD_some]
    rw [← hsent]
    simp

/-- A step on the pipe of `writeLoop`. -/
theorem Outgoing.writer {a : Pipe.Act WsError} {p : Pipe WsError} (h : Outgoing c)
    (ha : onWriter a = true) (hs : Pipe.Step c.writer a p) : Outgoing { c with writer := p } := by
  have hflow := h.flow.step hs
  cases hs with
  | write b => exact h.same hflow rfl rfl rfl rfl rfl
  | refuse hx hdone => exact h.same hflow rfl rfl rfl rfl rfl
  | enter hx hopen => exact h.same hflow rfl rfl rfl rfl rfl
  | lock hx hfree => exact h.same hflow rfl rfl rfl rfl rfl
  | abort hx hdone => exact h.same hflow rfl rfl rfl rfl rfl
  | read m => cases ha
  | @refuseRead r m hz hdone =>
    exact h.setRead (y := ⟨m, .returned [] (some c.writer.readCloseError)⟩) hflow hz nofun rfl rfl
      (by simp [got])
  | @begin r m hz hopen =>
    exact h.setRead (y := ⟨m, .waiting⟩) hflow hz nofun rfl rfl (by simp [got])
  | @stop r m hz hdone =>
    exact h.setRead (y := ⟨m, .returned [] (some c.writer.readCloseError)⟩) hflow hz nofun rfl rfl
      (by simp [got])
  | @transfer w r n m b hheld hx hz =>
    exact h.setRead (y := ⟨m, .returned ((b.drop n).take m) none⟩) hflow hz nofun rfl rfl
      (by simp [got, Pipe.handOver])
  | closeRead err => cases ha
  | closeWrite err => cases ha

/-- When `writeLoop` does not wait for one, every call of `Read` has returned. -/
theorem Outgoing.returned (h : Outgoing c)
    (hpc : ∀ r, c.writePc = .waiting r →
      ∃ z b err, c.writer.reads[r]? = some z ∧ z.stage = .returned b err)
    (r : Nat) (z : PipeRead WsError) (hz : c.writer.reads[r]? = some z) :
    ∃ b err, z.stage = .returned b err := by
  rcases h.turn r z hz with hret | hwait
  · exact hret
  · obtain ⟨y, b, err, hy, hret⟩ := hpc r hwait
    rw [hz] at hy
    cases hy
    exact ⟨b, err, hret⟩

/-- `writeLoop` goes on to a place where no call of `Read` waits. -/
theorem Outgoing.moves (h : Outgoing c)
    (hpc : ∀ r, c.writePc = .waiting r →
      ∃ z b err, c.writer.reads[r]? = some z ∧ z.stage = .returned b err)
    (hflow : c'.writer.Flow) (hreads : c'.writer.reads = c.writer.reads)
    (hmoved : c'.writer.moved = c.writer.moved)
    (hlost : c'.lost = [] ∨ (c'.writePc.over = true ∧ c'.lost.length = 1))
    (hsent : c'.sent ++ c'.hand ++ c'.lost = c.sent ++ c.hand ++ c.lost) : Outgoing c' := by
  refine ⟨hflow, ?_, ?_, hlost, ?_⟩
  · rw [hreads]
    exact h.size
  · rw [hreads]
    exact fun r z hz => Or.inl (h.returned hpc r z hz)
  · rw [hsent, hmoved]
    exact h.sent

/-- Every step keeps the invariant of `writeLoop`. -/
theorem Outgoing.step (h : Outgoing c) (hs : Step c act c') : Outgoing c' := by
  cases hs with
  | reader ha hs => exact h.same h.flow rfl rfl rfl rfl rfl
  | writer ha hs => exact h.writer ha hs
  | skip hpc => exact h
  | message hpc => exact h.same h.flow rfl rfl rfl rfl rfl
  | readFails hpc hframe => exact h.same h.flow rfl rfl rfl rfl rfl
  | piece hpc hne => exact h.same h.flow rfl rfl rfl rfl rfl
  | copyEnds hpc => exact h.same h.flow rfl rfl rfl rfl rfl
  | wrote hpc hx => exact h.same h.flow rfl rfl rfl rfl rfl
  | writeFailed hpc hx => exact h.same h.flow rfl rfl rfl rfl rfl
  | endRead hpc => exact h.same h.flow rfl rfl rfl rfl rfl
  | take hpc =>
    have hlost := h.kept (by rw [hpc]; rfl)
    have hsent := h.sent
    simp only [Conn.hand, hpc, hlost, List.append_nil] at hsent
    refine ⟨h.flow.step (.read messageSize), ?_, ?_, Or.inl hlost, ?_⟩
    · intro i y hy
      rcases pool_snoc_some hy with hi | ⟨-, rfl⟩
      · exact h.size i y hi
      · rfl
    · intro i y hy
      rcases pool_snoc_some hy with hi | ⟨rfl, -⟩
      · exact Or.inl (h.returned (by simp [hpc]) i y hi)
      · exact Or.inr rfl
    · simp [Conn.hand, got, hlost, hsent]
  | took hpc hz | readFailed hpc hz =>
    refine h.moves ?_ h.flow rfl rfl (Or.inl (h.kept (by rw [hpc]; rfl))) ?_
    · intro i hi
      rw [hpc] at hi
      cases hi
      exact ⟨_, _, _, hz, rfl⟩
    · simp [Conn.hand, hpc, hz, got]
  | send hpc hcan =>
    refine h.moves (by simp [hpc]) h.flow rfl rfl (Or.inl (h.kept (by rw [hpc]; rfl))) ?_
    simp [Conn.hand, hpc]
  | sendFails hpc =>
    refine h.moves (by simp [hpc]) h.flow rfl rfl (Or.inr ⟨rfl, rfl⟩) ?_
    simp [Conn.hand, hpc, h.kept (by rw [hpc]; rfl)]
  | endWrite hpc =>
    refine h.moves (by simp [hpc]) (h.flow.step (.closeRead _)) rfl rfl ?_ ?_
    · exact h.lost.imp_right fun hover => ⟨rfl, hover.2⟩
    · simp [Conn.hand, hpc]
  | close => exact h.same h.flow rfl rfl rfl rfl rfl
  | closeReader hi => exact h.same h.flow rfl rfl rfl rfl rfl
  | closeWriter hi => exact h.same (h.flow.step (.closeWrite none)) rfl rfl rfl rfl rfl
  | control hi hframe => exact h.same h.flow rfl rfl rfl rfl rfl
  | closeWs hi => exact h.same h.flow rfl rfl rfl rfl rfl

theorem outgoing_run {acts : List Act} (hrun : exec step .new acts = some c) : Outgoing c :=
  exec_invariant_all (fun _ _ _ h hstep => h.step (step_cases hstep)) acts .new c outgoing_new hrun

/-- The messages of `writeLoop` for the data of the calls of `Write`; an empty call is read, and sent
as an empty message. -/
def writeMessages (writes : List Bytes) : List Bytes :=
  writes.flatMap fun b => if b = [] then [[]] else splitWrite b

/-- Reads into the buffer of `writeLoop` cut the data on offer into messages. -/
theorem messages_readSeq {log : List Handover} {r r' : Reader} (h : ReadSeq log r r')
    (hsize : ∀ x ∈ log, x.size = messageSize) (hr : ∀ d ∈ r, d.err = none) :
    log.map Handover.data ++ writeMessages (r'.map Delivery.data) =
      writeMessages (r.map Delivery.data) := by
  induction log generalizing r with
  | nil =>
    cases h
    rfl
  | cons x log ih =>
    obtain ⟨r₁, hread, hrest⟩ := h
    rw [hsize x List.mem_cons_self] at hread
    have htail := fun hr₁ => ih hrest (fun y hy => hsize y (List.mem_cons_of_mem _ hy)) hr₁
    cases r with
    | nil => simp [Stream.read] at hread
    | cons d ds =>
      have herr := hr d List.mem_cons_self
      have hds : ∀ e ∈ ds, e.err = none := fun e he => hr e (List.mem_cons_of_mem _ he)
      by_cases hlong : messageSize < d.data.length
      · -- the write goes on in the next message
        simp only [Stream.read, hlong, ↓reduceIte, Prod.mk.injEq, true_and] at hread
        obtain ⟨hx, rfl⟩ := hread
        have hdrop : d.data.drop messageSize ≠ [] := by
          intro hnil
          exact absurd (List.drop_eq_nil_iff.mp hnil) (Nat.not_le_of_lt hlong)
        have hne : d.data ≠ [] := by
          rintro hnil
          rw [hnil, List.drop_nil] at hdrop
          exact hdrop rfl
        have hsplit : splitWrite d.data =
            d.data.take messageSize :: splitWrite (d.data.drop messageSize) := by
          rw [splitWrite, if_neg hne, if_neg (Nat.not_le_of_lt hlong)]
        have hmore := htail (by simpa [herr] using hds)
        simp only [writeMessages, List.map_cons, List.flatMap_cons, if_neg hdrop] at hmore
        simp only [writeMessages, List.map_cons, List.flatMap_cons, if_neg hne, hsplit]
        rw [List.cons_append, hmore, ← hx, List.cons_append]
      · -- the message ends with the write
        simp only [Stream.read, hlong, ↓reduceIte, herr, Prod.mk.injEq, true_and] at hread
        obtain ⟨hx, rfl⟩ := hread
        have hsplit : (if d.data = [] then [[]] else splitWrite d.data) = [d.data] := by
          split
          · rename_i hnil
            rw [hnil]
          · rename_i hne
            rw [splitWrite, if_neg hne, if_pos (Nat.le_of_not_lt hlong)]
        simp only [writeMessages, List.map_cons, List.flatMap_cons, hsplit] at htail ⊢
        rw [List.cons_append, htail hds, hx]
        rfl

theorem Outgoing.moved_size (h : Outgoing c) : ∀ x ∈ c.writer.moved, x.size = messageSize := by
  intro x hx
  exact h.size x.reader _ ((h.flow.answered.bytes x.reader x.size x.data).mpr hx)

/-- Nothing that `writeLoop` has read is longer than its buffer. -/
theorem Outgoing.fits (h : Outgoing c) :
    ∀ b ∈ c.sent ++ c.hand ++ c.lost, b.length ≤ messageSize := by
  intro b hb
  rw [h.sent] at hb
  obtain ⟨x, hx, rfl⟩ := List.mem_map.mp hb
  rw [← h.moved_size x hx]
  exact h.flow.answered.fits x hx

/-- At most one message is between the pipe and the WebSocket. -/
theorem Outgoing.held_length (h : Outgoing c) : (c.hand ++ c.lost).length ≤ 1 := by
  have hhand : c.hand.length ≤ 1 := by
    unfold Conn.hand
    split
    · exact Nat.le_refl 1
    · rename_i r hpc
      cases c.writer.reads[r]? with
      | none => exact Nat.zero_le 1
      | some z =>
        simp only [Option.map_some, Option.getD_some, got]
        split
        · exact Nat.le_refl 1
        · exact Nat.zero_le 1
    · exact Nat.zero_le 1
  rcases h.lost with hnil | ⟨hover, hone⟩
  · rw [hnil, List.append_nil]
    exact hhand
  · -- `writeLoop` has returned, with nothing in its hands
    have hnone : c.hand = [] := by
      unfold Conn.hand
      split
      · rename_i hpc
        rw [hpc] at hover
        cases hover
      · rename_i hpc
        rw [hpc] at hover
        cases hover
      · rfl
    rw [hnone, List.nil_append, hone]

/-- With any number of concurrent callers of `Write`, and as long as the pipe is open, `writeLoop`
sends the messages of the writes in the order in which these got the pipe: those that were sent, the
one that it holds or could not send, and those of what it has not read yet are all of them. -/
theorem writes_sent {acts : List Act} (hrun : exec step .new acts = some c)
    (hopen : c.writer.done = false) :
    c.sent ++ c.hand ++ c.lost ++ writeMessages ((unread c.writer.calls).map Delivery.data) =
        writeMessages (c.writer.calls.map PipeWrite.data) ∧
      (c.hand ++ c.lost).length ≤ 1 ∧
      ∀ b ∈ c.sent ++ c.hand ++ c.lost, b.length ≤ messageSize := by
  have h := outgoing_run hrun
  refine ⟨?_, h.held_length, h.fits⟩
  have hoffered : ∀ d ∈ offered c.writer.calls, d.err = none := by
    intro d hd
    obtain ⟨x, hx, rfl⟩ := List.mem_map.mp hd
    rfl
  have hseq := h.flow.flow (h.flow.contiguous hopen)
  rw [h.sent, messages_readSeq hseq h.moved_size hoffered]
  simp [offered, Function.comp_def]

/-- Three writers: the second gets the pipe before the first, and the write of the third one is
empty. -/
theorem writes_sent_overtaken :
    ∃ c, exec step .new
        [.writer (.write [1]), .writer (.write [2]), .writer (.enter 0), .writer (.enter 1),
          .writer (.lock 1), .take, .writer (.begin 0), .writer (.transfer 0), .took, .send,
          .writer (.write []), .writer (.enter 2), .writer (.lock 2), .take, .writer (.begin 1),
          .writer (.transfer 1), .took, .sendFails (.other 1), .writer (.lock 0)] = some c ∧
      c.sent = [[2]] ∧ c.lost = [[]] ∧
      c.sent ++ c.hand ++ c.lost ++ writeMessages ((unread c.writer.calls).map Delivery.data) =
        writeMessages (c.writer.calls.map PipeWrite.data) := by
  refine exec_reaches (P := fun c => c.writer.done = false ∧ c.sent = [[2]] ∧ c.lost = [[]])
    (by decide +kernel) ?_
  rintro c hrun ⟨hopen, hsent, hlost⟩
  exact ⟨hsent, hlost, (writes_sent hrun hopen).1⟩

/-! ## `readLoop` -/

/-- What `readLoop` has read from the WebSocket. -/
def Conn.pieces (c : Conn) : List Bytes := c.reader.writes.map PipeWrite.data

/-- `readLoop` has no call of `Write` that waits, and none has failed. -/
def ReadPc.settled : ReadPc → Bool
  | .writing _ | .closing .closedPipe | .ended .closedPipe => false
  | _ => true

/-- The error `readLoop` has returned. -/
def ReadPc.result : ReadPc → Option Err
  | .closing err | .ended err => some err
  | _ => none

/-- Every call of `Write` has returned without an error. -/
def Served (p : Pipe WsError) : Prop :=
  ∀ (w : Nat) (x : PipeWrite WsError), p.writes[w]? = some x → x.stage = .returned none

/-- The invariant of `readLoop`: it is the only writer of its pipe and the only one to close that
side, and stops at the first error. -/
structure Incoming (c : Conn) : Prop where
  flow : c.reader.Flow
  seq : c.reader.Sequential
  errors : c.reader.Errors
  rerr : ∀ e, c.reader.rerr = some e → e = .closedPipe
  werr : ∀ e, c.reader.werr = some e → ∃ err, c.readPc = .ended err ∧ e = closeErrorToEOF err
  nonempty : ∀ b ∈ c.pieces, b ≠ []
  writing : ∀ w, c.readPc = .writing w → w + 1 = c.reader.writes.length
  served : c.readPc.settled = true → Served c.reader
  result : ∀ err, c.readPc.result = some err → err = .closedPipe ∨ ∃ e : WsError, err = e.toErr

theorem incoming_new : Incoming .new where
  flow := Pipe.flow_new
  seq := Pipe.sequential_new
  errors := Pipe.errors_new
  rerr := by simp [Conn.new, Pipe.new]
  werr := by simp [Conn.new, Pipe.new]
  nonempty := by simp [Conn.new, Pipe.new, Conn.pieces]
  writing := by simp [Conn.new]
  served _ := by simp [Served, Conn.new, Pipe.new]
  result := by simp [Conn.new, ReadPc.result]

/-- What the callers of `Read` and the running `Write` leave alone. -/
theorem reader_frame {a : Pipe.Act WsError} {p p' : Pipe WsError} (ha : onReader a = true)
    (hs : Pipe.Step p a p') :
    p'.rerr = p.rerr ∧ p'.werr = p.werr ∧
      p'.writes.map PipeWrite.data = p.writes.map PipeWrite.data := by
  -- a call that goes on keeps its data
  have hset : ∀ {w : Nat} {x y : PipeWrite WsError}, p.writes[w]? = some x → y.data = x.data →
      (p.writes.set w y).map PipeWrite.data = p.writes.map PipeWrite.data := by
    intro w x y hx hdata
    rw [List.map_set, hdata]
    exact pool_set_same (by simp [hx])
  cases hs with
  | write b => cases ha
  | refuse hx hdone => exact ⟨rfl, rfl, hset hx rfl⟩
  | enter hx hopen => exact ⟨rfl, rfl, hset hx rfl⟩
  | lock hx hfree => exact ⟨rfl, rfl, hset hx rfl⟩
  | abort hx hdone => exact ⟨rfl, rfl, hset hx rfl⟩
  | read m => exact ⟨rfl, rfl, rfl⟩
  | refuseRead hz hdone => exact ⟨rfl, rfl, rfl⟩
  | begin hz hopen => exact ⟨rfl, rfl, rfl⟩
  | stop hz hdone => exact ⟨rfl, rfl, rfl⟩
  | transfer hheld hx hz => exact ⟨rfl, rfl, hset hx rfl⟩
  | closeRead err => cases ha
  | closeWrite err => cases ha

/-- Nothing moves on the writers' side once every call has returned. -/
theorem Served.step {a : Pipe.Act WsError} {p p' : Pipe WsError} (h : Served p)
    (ha : onReader a = true) (hs : Pipe.Step p a p') : Served p' := by
  cases hs with
  | write b => cases ha
  | refuse hx hdone => cases h _ _ hx
  | enter hx hopen => cases h _ _ hx
  | lock hx hfree => cases h _ _ hx
  | abort hx hdone => cases h _ _ hx
  | read m => exact h
  | refuseRead hz hdone => exact h
  | begin hz hopen => exact h
  | stop hz hdone => exact h
  | transfer hheld hx hz => cases h _ _ hx
  | closeRead err => cases ha
  | closeWrite err => cases ha

theorem Incoming.reader {a : Pipe.Act WsError} {p : Pipe WsError} (h : Incoming c)
    (ha : onReader a = true) (hs : Pipe.Step c.reader a p) : Incoming { c with reader := p } := by
  obtain ⟨hrerr, hwerr, hdata⟩ := reader_frame ha hs
  have hlength : p.writes.length = c.reader.writes.length := by
    simpa using congrArg List.length hdata
  refine ⟨h.flow.step hs, h.seq.step h.flow hs ?_, h.errors.step hs, ?_, ?_, ?_, ?_, ?_, h.result⟩
  · rintro b rfl
    cases ha
  · exact fun e he => h.rerr e (hrerr ▸ he)
  · exact fun e he => h.werr e (hwerr ▸ he)
  · exact fun b hb => h.nonempty b (by rw [Conn.pieces, ← hdata]; exact hb)
  · intro w hw
    rw [hlength]
    exact h.writing w hw
  · exact fun hsettled => (h.served hsettled).step ha hs

/-- A step that touches neither the pipe nor the place of `readLoop`. -/
theorem Incoming.same (h : Incoming c) (hreader : c'.reader = c.reader)
    (hpc : c'.readPc = c.readPc) : Incoming c' := by
  obtain ⟨hflow, hseq, herrors, hrerr, hwerr, hne, hwriting, hserved, hresult⟩ := h
  constructor <;> simp only [Conn.pieces, hreader, hpc] at * <;> assumption

/-- `readLoop` goes on without touching the pipe, which is open on its side. -/
theorem Incoming.moves (h : Incoming c) (hopen : ∀ err, c.readPc ≠ .ended err)
    (hreader : c'.reader = c.reader) (hwriting : ∀ w, c'.readPc ≠ .writing w)
    (hserved : c'.readPc.settled = true → Served c.reader)
    (hresult : ∀ err, c'.readPc.result = some err →
      err = .closedPipe ∨ ∃ e : WsError, err = e.toErr) : Incoming c' := by
  have hwerr : ∀ e, c.reader.werr ≠ some e := by
    intro e he
    obtain ⟨err, hended, -⟩ := h.werr e he
    exact hopen err hended
  refine ⟨?_, ?_, ?_, ?_, ?_, ?_, fun w hw => absurd hw (hwriting w), ?_, hresult⟩
  · rw [hreader]
    exact h.flow
  · rw [hreader]
    exact h.seq
  · rw [hreader]
    exact h.errors
  · rw [hreader]
    exact h.rerr
  · intro e he
    rw [hreader] at he
    exact absurd he (hwerr e)
  · rw [Conn.pieces, hreader]
    exact h.nonempty
  · rw [hreader]
    exact hserved

theorem Incoming.piece {b : Bytes} (h : Incoming c) (hpc : c.readPc = .copying) (hne : b ≠ []) :
    Incoming { c with
      reader := { c.reader with writes := c.reader.writes ++ [⟨b, 0, .entering⟩] }
      readPc := .writing c.reader.writes.length } := by
  have hserved := h.served (by rw [hpc]; rfl)
  have hs : Pipe.Step c.reader (.write b) _ := .write b
  refine ⟨h.flow.step hs, h.seq.step h.flow hs ?_, h.errors.step hs, h.rerr, ?_, ?_, ?_, nofun,
    nofun⟩
  · exact fun _ _ w x hx => ⟨none, hserved w x hx⟩
  · intro e he
    obtain ⟨err, hended, -⟩ := h.werr e he
    rw [hpc] at hended
    cases hended
  · intro d hd
    simp only [Conn.pieces, List.map_append, List.map_cons, List.map_nil, List.mem_append,
      List.mem_singleton] at hd
    rcases hd with hold | rfl
    · exact h.nonempty d hold
    · exact hne
  · intro w hw
    cases hw
    simp

/-- The last call has returned, and with it all have. -/
theorem Incoming.wrote {w n : Nat} {b : Bytes} (h : Incoming c) (hpc : c.readPc = .writing w)
    (hx : c.reader.writes[w]? = some ⟨b, n, .returned none⟩) : Served c.reader := by
  intro v y hy
  have hlast := h.writing w hpc
  have hlt := (List.getElem?_eq_some_iff.mp hy).1
  rcases Nat.lt_or_ge v w with hless | hge
  · exact h.seq.served hx (Or.inl (h.flow.mutex.served w _ hx rfl)) hy hless
  · have hv : v = w := by omega
    rw [hv, hx] at hy
    cases hy
    rfl

/-- A call of `Write` fails only because `Close` was called. -/
theorem Incoming.writeError {w n : Nat} {b : Bytes} {e : Err} (h : Incoming c)
    (hx : c.reader.writes[w]? = some ⟨b, n, .returned (some e)⟩) : e = .closedPipe := by
  rcases h.errors.write w n b e hx with hclosed | hrerr
  · exact hclosed
  · exact h.rerr e hrerr

theorem Incoming.endRead {err : Err} (h : Incoming c) (hpc : c.readPc = .closing err) :
    Incoming { c with
      reader := c.reader.closeWrite (some (closeErrorToEOF err)), readPc := .ended err } := by
  have hwerr : c.reader.werr = none := by
    rw [Option.eq_none_iff_forall_ne_some]
    intro e he
    obtain ⟨err', hended, -⟩ := h.werr e he
    rw [hpc] at hended
    cases hended
  have hs : Pipe.Step c.reader (.closeWrite (some (closeErrorToEOF err))) _ := .closeWrite _
  refine ⟨h.flow.step hs, h.seq.step h.flow hs nofun, h.errors.step hs, h.rerr, ?_, h.nonempty,
    nofun, ?_, ?_⟩
  · intro e he
    exact ⟨err, rfl, by simpa [Pipe.closeWrite, hwerr] using he.symm⟩
  · intro hsettled
    refine h.served ?_
    rw [hpc]
    cases err with
    | given e => rfl
    | eof => rfl
    | closedPipe => cases hsettled
  · intro e he
    refine h.result e ?_
    rw [hpc]
    exact he

theorem Incoming.closeReader {closers : List CloseStage} (h : Incoming c) :
    Incoming { c with reader := c.reader.closeRead none, closers := closers } := by
  have hs : Pipe.Step c.reader (.closeRead none) _ := .closeRead none
  refine ⟨h.flow.step hs, h.seq.step h.flow hs nofun, h.errors.step hs, ?_, h.werr,
    h.nonempty, h.writing, h.served, h.result⟩
  intro e he
  cases hold : c.reader.rerr with
  | none => simpa [Pipe.closeRead, hold] using he.symm
  | some e' =>
    have heq : e' = e := by simpa [Pipe.closeRead, hold] using he
    exact h.rerr e (heq ▸ hold)

/-- Every step keeps the invariant of `readLoop`. -/
theorem Incoming.step (h : Incoming c) (hs : Step c act c') : Incoming c' := by
  cases hs with
  | reader ha hs => exact h.reader ha hs
  | writer ha hs => exact h.same rfl rfl
  | skip hpc => exact h
  | message hpc =>
    exact h.moves (by simp [hpc]) rfl nofun (fun _ => h.served (by rw [hpc]; rfl)) nofun
  | readFails hpc hframe =>
    have hsettled : c.readPc.settled = true := by
      rcases hpc with hpc | ⟨hpc, -⟩ <;> rw [hpc] <;> rfl
    have hopen : ∀ err, c.readPc ≠ .ended err := by
      rcases hpc with hpc | ⟨hpc, -⟩ <;> simp [hpc]
    refine h.moves hopen rfl nofun (fun _ => h.served hsettled) ?_
    intro err herr
    cases herr
    exact Or.inr ⟨_, rfl⟩
  | piece hpc hne => exact h.piece hpc hne
  | copyEnds hpc =>
    exact h.moves (by simp [hpc]) rfl nofun (fun _ => h.served (by rw [hpc]; rfl)) nofun
  | wrote hpc hx => exact h.moves (by simp [hpc]) rfl nofun (fun _ => h.wrote hpc hx) nofun
  | writeFailed hpc hx =>
    cases h.writeError hx
    refine h.moves (by simp [hpc]) rfl nofun nofun ?_
    intro err herr
    cases herr
    exact Or.inl rfl
  | endRead hpc => exact h.endRead hpc
  | take hpc => exact h.same rfl rfl
  | took hpc hz => exact h.same rfl rfl
  | readFailed hpc hz => exact h.same rfl rfl
  | send hpc hcan => exact h.same rfl rfl
  | sendFails hpc => exact h.same rfl rfl
  | endWrite hpc => exact h.same rfl rfl
  | close => exact h.same rfl rfl
  | closeReader hi => exact h.closeReader
  | closeWriter hi => exact h.same rfl rfl
  | control hi hframe => exact h.same rfl rfl
  | closeWs hi => exact h.same rfl rfl

theorem incoming_run {acts : List Act} (hrun : exec step .new acts = some c) : Incoming c :=
  exec_invariant_all (fun _ _ _ h hstep => h.step (step_cases hstep)) acts .new c incoming_new hrun

/-- `closeErrorToEOF` makes an `io.EOF` of a known code only, and leaves one that it is given. -/
theorem closeErrorToEOF_eof {err : Err} (h : closeErrorToEOF err = .eof) :
    err = .eof ∨ ∃ code, (code = 1000 ∨ code = 1005) ∧ err = .given (.close code) := by
  unfold closeErrorToEOF at h
  split at h
  · rename_i code
    split at h
    · rename_i hcode
      exact Or.inr ⟨code, hcode, rfl⟩
    · cases h
  · exact Or.inl h

/-- `readLoop` has ended with a Close frame with a known code, or with an `io.EOF` from below. -/
def Conn.AtEnd (c : Conn) : Prop :=
  c.readPc = .ended .eof ∨
    ∃ code, (code = 1000 ∨ code = 1005) ∧ c.readPc = .ended (.given (.close code))

/-- A call of `Read` returns `io.EOF` only after everything `readLoop` has read was returned. -/
theorem Incoming.eof {r m : Nat} {b : Bytes} (h : Incoming c)
    (hz : c.reader.reads[r]? = some ⟨m, .returned b (some .eof)⟩) :
    c.AtEnd ∧ unread c.reader.writes = [] := by
  have hwerr : c.reader.werr = some .eof := (h.errors.read r m b .eof hz).resolve_left nofun
  obtain ⟨err, hended, heof⟩ := h.werr .eof hwerr
  have hend : c.AtEnd := by
    rcases closeErrorToEOF_eof heof.symm with rfl | ⟨code, hcode, rfl⟩
    · exact Or.inl hended
    · exact Or.inr ⟨code, hcode, hended⟩
  have hserved : Served c.reader := by
    apply h.served
    rcases hend with hpc | ⟨code, -, hpc⟩ <;> rw [hpc] <;> rfl
  refine ⟨hend, Pipe.unread_served fun x hx => ?_⟩
  obtain ⟨w, hw⟩ := List.mem_iff_getElem?.mp hx
  exact hserved w x hw

theorem offered_bytes {ε : Type} (xs : List (PipeWrite ε)) :
    (offered xs).bytes = (xs.map PipeWrite.data).flatten := by
  induction xs with
  | nil => rfl
  | cons x xs ih => simpa [offered, Reader.bytes] using ih

/-- What the calls of `Read` have returned, in order. -/
def Conn.received (c : Conn) : Bytes := (c.reader.moved.map Handover.data).flatten

/-- Whatever the calls of `Read`, `Write` and `Close` and however they interleave, what the calls of
`Read` return is read from `pipeReader` of what has arrived; one that returns `io.EOF` means that the
WebSocket is `AtEnd` and that everything that arrived before has been returned. -/
theorem reads_complete {acts : List Act} (hrun : exec step .new acts = some c) :
    c.reader.Answered ∧
      (∀ err, ∃ rest,
        ReadSeq c.reader.moved (pipeReader c.pieces err) (rest ++ [⟨[], some err⟩])) ∧
      ∀ (r m : Nat) (b : Bytes), c.reader.reads[r]? = some ⟨m, .returned b (some .eof)⟩ →
        c.AtEnd ∧ c.received = c.pieces.flatten := by
  have h := incoming_run hrun
  have hseq := h.seq.readSeq h.flow
  refine ⟨h.flow.answered, fun err => ⟨unread c.reader.writes, ?_⟩, fun r m b hz => ?_⟩
  · -- no piece is empty
    have hpieces : c.pieces.filter (· ≠ []) = c.pieces :=
      List.filter_eq_self.mpr fun b hb => decide_eq_true (h.nonempty b hb)
    have hreader : pipeReader c.pieces err = offered c.reader.writes ++ [⟨[], some err⟩] := by
      rw [pipeReader, hpieces]
      simp [Conn.pieces, offered, Function.comp_def]
    rw [hreader]
    exact hseq.append _
  · obtain ⟨hclose, hnil⟩ := h.eof hz
    have hbytes := hseq.bytes
    rw [hnil, offered_bytes] at hbytes
    refine ⟨hclose, ?_⟩
    simpa [Conn.received, Conn.pieces] using hbytes.symm

/-- One message in two reads, and then a Close frame without a code. -/
theorem reads_complete_two_reads :
    ∃ c, exec step .new
        [.nextReader .binary, .piece [1, 2, 3], .reader (.enter 0), .reader (.lock 0),
          .reader (.read 2), .reader (.begin 0), .reader (.transfer 0), .reader (.read 2),
          .reader (.begin 1), .reader (.transfer 1), .wrote, .copyEnds, .readFails (.close 1005) true,
          .endRead, .reader (.read 4), .reader (.begin 2)] = some c ∧
      c.reader.moved = [⟨0, 2, [1, 2]⟩, ⟨1, 2, [3]⟩] ∧ c.received = c.pieces.flatten := by
  refine exec_reaches (P := fun c => c.reader.moved = [⟨0, 2, [1, 2]⟩, ⟨1, 2, [3]⟩] ∧
    c.reader.reads[2]? = some ⟨4, .returned [] (some .eof)⟩) (by decide +kernel) ?_
  rintro c hrun ⟨hmoved, hz⟩
  exact ⟨hmoved, ((reads_complete hrun).2.2 2 4 [] hz).2⟩

end PTBridge.Snowflake.WebSocketConn
