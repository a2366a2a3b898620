import PTBridge.Snowflake.WebSocketConn

/-!
# One WebSocket, end to end

Two `websocketconn.Conn`s on one WebSocket, and the direction from `a` to `b`. The frames that `a`
sends arrive at `b` in order, in pieces of any size, and the connection may break at any time; what
goes the other way is left to the environment.

- `Link.step` lets both sides run; `b` reads the frames of `a`.
- `Carried` is the invariant, and `link_stream` the result: what `b` reads begins what is written to
  `a`, and an `io.EOF` at `b` means that at most one message of what was written is missing. One can
  be missing although every `Write` succeeded: `Close` does not wait for `writeLoop`. A connection
  that breaks is never an `io.EOF` at `b`, because the messages of `a` fit into its read buffer.
-/

namespace PTBridge.Snowflake.WebSocketConn

open PTBridge.Stream PTBridge.Transition

inductive Frame where
  | message (data : Bytes)
  | close (code : Nat)
  deriving DecidableEq, Repr

/-- What was sent on the WebSocket. -/
def Conn.frames (c : Conn) : List Frame :=
  c.sent.map Frame.message ++ c.closeFrame.toList.map Frame.close

structure Link where
  a : Conn
  b : Conn
  /-- The number of messages that `b` has begun to read. -/
  taken : Nat
  /-- What is left of the message that `b` reads. -/
  current : Bytes
  deriving DecidableEq, Repr

namespace Link

def new : Link := ⟨.new, .new, 0, []⟩

inductive Act where
  | a (act : WebSocketConn.Act)
  | b (act : WebSocketConn.Act)
  deriving DecidableEq

/-- The read buffer of a `websocket.Conn`. -/
def readBuffer : Nat := 4096

/-- The message that `b` has begun last does not fit into the read buffer. Only then an `io.EOF` of
the connection that broke is passed on. -/
def passesEof (s : Link) : Bool :=
  (s.a.sent.take s.taken).getLast?.any fun d => decide (readBuffer ≤ d.length)

/-- The errors that `b` can read: a `CloseError` is for the Close frame of `a`, or for a connection
that broke (`CloseAbnormalClosure`). -/
def fails (s : Link) : WsError → Bool
  | .close code =>
      code = 1006 ∨ (s.b.readPc = .next ∧ s.a.frames[s.taken]? = some (.close code))
  | .eof => s.passesEof
  | .other _ => true

def stepB (s : Link) : WebSocketConn.Act → Option Link
  | .nextReader t =>
      match s.a.frames[s.taken]? with
      | some (.message d) =>
          if t = .binary then
            (WebSocketConn.step s.b (.nextReader t)).map fun c =>
              { s with b := c, taken := s.taken + 1, current := d }
          else none
      | _ => none
  | .piece p =>
      if p <+: s.current then
        (WebSocketConn.step s.b (.piece p)).map fun c =>
          { s with b := c, current := s.current.drop p.length }
      else none
  | .copyEnds =>
      if s.current = [] ∨ s.passesEof = true then
        (WebSocketConn.step s.b .copyEnds).map fun c => { s with b := c }
      else none
  | .readFails e echoed =>
      if s.fails e then
        (WebSocketConn.step s.b (.readFails e echoed)).map fun c => { s with b := c }
      else none
  | act => (WebSocketConn.step s.b act).map fun c => { s with b := c }

def step (s : Link) : Act → Option Link
  | .a act => (WebSocketConn.step s.a act).map fun c => { s with a := c }
  | .b act => stepB s act

/-- The moves of `readLoop` on the WebSocket. -/
def network : WebSocketConn.Act → Bool
  | .nextReader _ | .piece _ | .copyEnds | .readFails _ _ => true
  | _ => false

/-- What a step can do. -/
inductive Step (s : Link) : Act → Link → Prop where
  | a {act : WebSocketConn.Act} {c : Conn} (hs : WebSocketConn.Step s.a act c) :
      Step s (.a act) { s with a := c }
  | nextReader {d : Bytes} (hframe : s.a.frames[s.taken]? = some (.message d))
      (hpc : s.b.readPc = .next) :
      Step s (.b (.nextReader .binary))
        { s with b := { s.b with readPc := .copying }, taken := s.taken + 1, current := d }
  | piece {p : Bytes} {c : Conn} (hp : p <+: s.current)
      (hs : WebSocketConn.Step s.b (.piece p) c) :
      Step s (.b (.piece p)) { s with b := c, current := s.current.drop p.length }
  | copyEnds {c : Conn} (hend : s.current = [] ∨ s.passesEof = true)
      (hs : WebSocketConn.Step s.b .copyEnds c) : Step s (.b .copyEnds) { s with b := c }
  | readFails {e : WsError} {echoed : Bool} {c : Conn} (hfails : s.fails e = true)
      (hs : WebSocketConn.Step s.b (.readFails e echoed) c) :
      Step s (.b (.readFails e echoed)) { s with b := c }
  | b {act : WebSocketConn.Act} {c : Conn} (hact : network act = false)
      (hs : WebSocketConn.Step s.b act c) : Step s (.b act) { s with b := c }

theorem stepB_cases {s s' : Link} {act : WebSocketConn.Act} (h : stepB s act = some s') :
    Step s (.b act) s' := by
  have hother : ∀ act, network act = false →
      ((WebSocketConn.step s.b act).map fun c => { s with b := c }) = some s' →
      Step s (.b act) s' := by
    intro act hact h
    obtain ⟨c, hc, rfl⟩ := Option.map_eq_some_iff.mp h
    exact .b hact (step_cases hc)
  cases act with
  | nextReader t =>
    simp only [stepB] at h
    split at h
    · rename_i d hframe
      split at h
      · rename_i ht
        subst ht
        obtain ⟨c, hc, rfl⟩ := Option.map_eq_some_iff.mp h
        simp only [WebSocketConn.step, reduceCtorEq, ↓reduceIte] at hc
        split at hc <;> cases hc
        rename_i hpc
        exact .nextReader hframe hpc
      · cases h
    · cases h
  | piece p =>
    simp only [stepB] at h
    split at h
    · rename_i hp
      obtain ⟨c, hc, rfl⟩ := Option.map_eq_some_iff.mp h
      exact .piece hp (step_cases hc)
    · cases h
  | copyEnds =>
    simp only [stepB] at h
    split at h
    · rename_i hend
      obtain ⟨c, hc, rfl⟩ := Option.map_eq_some_iff.mp h
      exact .copyEnds hend (step_cases hc)
    · cases h
  | readFails e echoed =>
    simp only [stepB] at h
    split at h
    · rename_i hfails
      obtain ⟨c, hc, rfl⟩ := Option.map_eq_some_iff.mp h
      exact .readFails hfails (step_cases hc)
    · cases h
  | reader a => exact hother _ rfl h
  | writer a => exact hother _ rfl h
  | wrote => exact hother _ rfl h
  | endRead => exact hother _ rfl h
  | take => exact hother _ rfl h
  | took => exact hother _ rfl h
  | send => exact hother _ rfl h
  | sendFails e => exact hother _ rfl h
  | endWrite => exact hother _ rfl h
  | close => exact hother _ rfl h
  | closeStep i ok => exact hother _ rfl h

theorem step_cases {s s' : Link} {act : Act} (h : step s act = some s') : Step s act s' := by
  cases act with
  | a act =>
    obtain ⟨c, hc, rfl⟩ := Option.map_eq_some_iff.mp h
    exact .a (WebSocketConn.step_cases hc)
  | b act => exact stepB_cases h

end Link

/-! ## What is on the wire -/

section Frames

variable {c c' : Conn} {act : Act}

/-- A change of the Close frame is its first. -/
theorem frames_close {frame : Option Nat} (hframe : frame = c.closeFrame ∨ c.canSend = true)
    (hsent : c'.sent = c.sent) (hclose : c'.closeFrame = frame) : c.frames <+: c'.frames := by
  rw [Conn.frames, Conn.frames, hsent, hclose]
  rcases hframe with rfl | hcan
  · exact List.prefix_refl _
  · have hnone : c.closeFrame = none := by
      simp only [Conn.canSend, Bool.and_eq_true, Option.isNone_iff_eq_none] at hcan
      exact hcan.1
    simp [hnone]

/-- Frames are only added, and nothing follows a Close frame. -/
theorem frames_grow (hs : Step c act c') : c.frames <+: c'.frames := by
  cases hs with
  | readFails hpc hframe => exact frames_close hframe rfl rfl
  | control hi hframe => exact frames_close hframe rfl rfl
  | send hpc hcan =>
    have hnone : c.closeFrame = none := by
      simp only [Conn.canSend, Bool.and_eq_true, Option.isNone_iff_eq_none] at hcan
      exact hcan.1
    simp [Conn.frames, hnone]
  | _ => exact List.prefix_refl _

theorem sent_grows (hs : Step c act c') : c.sent <+: c'.sent := by
  cases hs with
  | send hpc hcan => exact List.prefix_append _ _
  | _ => exact List.prefix_refl _

end Frames

/-! ## The invariant -/

/-- What `b` has read and what is left of its message are the messages it has begun; and what its
callers see as `io.EOF` comes after all of them. -/
structure Carried (s : Link) : Prop where
  outgoing : Outgoing s.a
  incoming : Incoming s.b
  taken_le : s.taken ≤ s.a.sent.length
  bytes : s.b.pieces.flatten ++ s.current = (s.a.sent.take s.taken).flatten
  between : s.b.readPc = .next → s.current = []
  clean : ∀ err, s.b.readPc.result = some err → closeErrorToEOF err = .eof →
    s.current = [] ∧ ∃ code, s.a.frames[s.taken]? = some (.close code)

theorem carried_new : Carried .new where
  outgoing := outgoing_new
  incoming := incoming_new
  taken_le := Nat.le_refl 0
  bytes := rfl
  between _ := rfl
  clean := nofun

section Carried

variable {s s' : Link} {act : Link.Act}

theorem Carried.stepA {a : Act} {c : Conn} (h : Carried s) (hs : Step s.a a c) :
    Carried { s with a := c } := by
  obtain ⟨more, hmore⟩ := sent_grows hs
  refine ⟨h.outgoing.step hs, h.incoming, ?_, ?_, h.between, ?_⟩
  · have := h.taken_le
    dsimp only
    rw [← hmore, List.length_append]
    omega
  · dsimp only
    rw [← hmore, List.take_append_of_le_length h.taken_le]
    exact h.bytes
  · intro err herr heof
    obtain ⟨hcur, code, hframe⟩ := h.clean err herr heof
    exact ⟨hcur, code, pool_grown (frames_grow hs) hframe⟩

/-- The messages of `writeLoop` fit into the read buffer. -/
theorem Carried.not_passesEof (h : Carried s) : s.passesEof = false := by
  rw [Link.passesEof, Option.any_eq_false]
  intro d hd
  have hsent : d ∈ s.a.sent := List.mem_of_mem_take (List.mem_of_getLast? hd)
  have hfits : d.length ≤ messageSize :=
    h.outgoing.fits d (List.mem_append_left _ (List.mem_append_left _ hsent))
  rw [decide_eq_false_iff_not, Nat.not_le]
  exact Nat.lt_of_le_of_lt hfits (by decide)

/-- A message that `b` begins to read is the next one of `a`. -/
theorem frames_message {c : Conn} {n : Nat} {d : Bytes} (h : c.frames[n]? = some (.message d)) :
    c.sent[n]? = some d := by
  rw [Conn.frames, List.getElem?_append] at h
  split at h
  · rw [List.getElem?_map] at h
    obtain ⟨d', hd', heq⟩ := Option.map_eq_some_iff.mp h
    cases heq
    exact hd'
  · obtain ⟨code, -, heq⟩ := List.mem_map.mp (List.mem_of_getElem? h)
    cases heq

/-- A Close frame comes after all messages. -/
theorem frames_closed {c : Conn} {n code : Nat} (h : c.frames[n]? = some (.close code)) :
    c.sent.length ≤ n := by
  by_contra hlt
  rw [Conn.frames, List.getElem?_append_left (by simpa using hlt), List.getElem?_map] at h
  obtain ⟨d, -, heq⟩ := Option.map_eq_some_iff.mp h
  cases heq

theorem Carried.nextReader {d : Bytes} (h : Carried s)
    (hframe : s.a.frames[s.taken]? = some (.message d)) (hpc : s.b.readPc = .next) :
    Carried { s with
      b := { s.b with readPc := .copying }, taken := s.taken + 1, current := d } := by
  have hd := frames_message hframe
  have hlt := (List.getElem?_eq_some_iff.mp hd).1
  have hbytes := h.bytes
  rw [h.between hpc, List.append_nil] at hbytes
  refine ⟨h.outgoing, h.incoming.step (.message (t := .binary) hpc), hlt, ?_, nofun, nofun⟩
  dsimp only [Conn.pieces] at hbytes ⊢
  rw [hbytes, List.take_add_one, hd]
  simp

theorem Carried.piece {p : Bytes} {c : Conn} (h : Carried s) (hp : p <+: s.current)
    (hs : Step s.b (.piece p) c) :
    Carried { s with b := c, current := s.current.drop p.length } := by
  have hinc := h.incoming.step hs
  cases hs with
  | piece hpc hne =>
    refine ⟨h.outgoing, hinc, h.taken_le, ?_, nofun, nofun⟩
    obtain ⟨rest, hrest⟩ := hp
    have hbytes := h.bytes
    rw [← hrest, ← List.append_assoc] at hbytes
    simpa [Conn.pieces, ← hrest] using hbytes

theorem Carried.readFails {e : WsError} {echoed : Bool} {c : Conn} (h : Carried s)
    (hfails : s.fails e = true) (hs : Step s.b (.readFails e echoed) c) :
    Carried { s with b := c } := by
  have hinc := h.incoming.step hs
  cases hs with
  | readFails hpc hframe =>
    refine ⟨h.outgoing, hinc, h.taken_le, h.bytes, nofun, ?_⟩
    intro err herr heof
    cases herr
    cases e with
    | other n => cases heof
    | eof =>
      have hpasses : s.passesEof = true := hfails
      rw [h.not_passesEof] at hpasses
      cases hpasses
    | close code =>
      -- a broken connection has another code
      have hknown : code = 1000 ∨ code = 1005 := by
        rcases closeErrorToEOF_eof heof with heq | ⟨code', hcode', heq⟩ <;> cases heq
        exact hcode'
      have hclose : s.b.readPc = .next ∧ s.a.frames[s.taken]? = some (.close code) := by
        refine (of_decide_eq_true hfails).resolve_left ?_
        omega
      exact ⟨h.between hclose.1, code, hclose.2⟩

/-- What `b` does apart from reading from the WebSocket. -/
theorem reading_frame {a : Act} {c c' : Conn} (hact : Link.network a = false) (hinc : Incoming c)
    (hs : Step c a c') :
    c'.pieces = c.pieces ∧ (c'.readPc = .next → c.readPc = .next) ∧
      ∀ err, c'.readPc.result = some err → err = .closedPipe ∨ c.readPc.result = some err := by
  cases hs with
  | skip hpc => cases hact
  | message hpc => cases hact
  | readFails hpc hframe => cases hact
  | piece hpc hne => cases hact
  | copyEnds hpc => cases hact
  | reader ha hs => exact ⟨(reader_frame ha hs).2.2, id, fun _ herr => Or.inr herr⟩
  | wrote hpc hx => exact ⟨rfl, nofun, nofun⟩
  | writeFailed hpc hx =>
    refine ⟨rfl, nofun, fun err herr => ?_⟩
    cases herr
    exact Or.inl (hinc.writeError hx)
  | endRead hpc =>
    refine ⟨rfl, nofun, fun err herr => ?_⟩
    rw [hpc]
    exact Or.inr herr
  | _ => exact ⟨rfl, id, fun _ herr => Or.inr herr⟩

/-- Every step keeps the invariant. -/
theorem Carried.step (h : Carried s) (hs : Link.Step s act s') : Carried s' := by
  cases hs with
  | a hs => exact h.stepA hs
  | nextReader hframe hpc => exact h.nextReader hframe hpc
  | piece hp hs => exact h.piece hp hs
  | copyEnds hend hs =>
    have hinc := h.incoming.step hs
    have hcur : s.current = [] := hend.resolve_right (by rw [h.not_passesEof]; nofun)
    cases hs with
    | copyEnds hpc => exact ⟨h.outgoing, hinc, h.taken_le, h.bytes, fun _ => hcur, nofun⟩
  | readFails hfails hs => exact h.readFails hfails hs
  | b hact hs =>
    obtain ⟨hpieces, hnext, hresult⟩ := reading_frame hact h.incoming hs
    refine ⟨h.outgoing, h.incoming.step hs, h.taken_le, ?_, ?_, ?_⟩
    · dsimp only
      rw [hpieces]
      exact h.bytes
    · exact fun hpc => h.between (hnext hpc)
    · intro err herr heof
      rcases hresult err herr with rfl | hold
      · cases heof
      · exact h.clean err hold heof

end Carried

/-! ## The stream -/

/-- What was given to `Write`, in the order of the calls. -/
def Conn.written (c : Conn) : Bytes := (c.writer.writes.map PipeWrite.data).flatten

/-- A caller of `Write` on `a` starts. -/
def startsWrite : Link.Act → Bool
  | .a (.writer (.write _)) => true
  | _ => false

/-- The callers of `Write` on `a` take turns: when one starts, the others have returned. -/
def OneWriter (s : Link) (act : Link.Act) : Prop :=
  startsWrite act = true → ∀ x ∈ s.a.writer.writes, x.returned = true

instance (s : Link) (act : Link.Act) : Decidable (OneWriter s act) :=
  inferInstanceAs (Decidable (_ → _))

/-- Apart from the calls of `Write`, nothing starts a write on the second pipe. -/
theorem sequential_step {c c' : Conn} {a : Act} (hflow : c.writer.Flow)
    (h : c.writer.Sequential) (hs : Step c a c')
    (hturn : startsWrite (.a a) = true → ∀ x ∈ c.writer.writes, x.returned = true) :
    c'.writer.Sequential := by
  cases hs with
  | writer ha hs =>
    refine h.step hflow hs ?_
    rintro b rfl w x hx
    exact PipeWrite.returned_iff.mp (hturn rfl x (List.mem_of_getElem? hx))
  | take hpc => exact h.step hflow (.read messageSize) nofun
  | endWrite hpc => exact h.step hflow (.closeRead _) nofun
  | closeWriter hi => exact h.step hflow (.closeWrite none) nofun
  | _ => exact h

theorem sequential_run {s : Link} {acts : List Link.Act}
    (hrun : exec Link.step .new acts = some s) (hone : Meets Link.step OneWriter .new acts) :
    Carried s ∧ s.a.writer.Sequential := by
  refine exec_invariant (I := fun t : Link => Carried t ∧ t.a.writer.Sequential) ?_ acts .new s
    ⟨carried_new, Pipe.sequential_new⟩ hone hrun
  rintro t act t' ⟨hcarried, hseq⟩ hok hstep
  have hs := Link.step_cases hstep
  refine ⟨hcarried.step hs, ?_⟩
  cases hs with
  | a hs => exact sequential_step hcarried.outgoing.flow hseq hs hok
  | _ => exact hseq

/-- What is between the pipe and the WebSocket fits into one buffer. -/
theorem Outgoing.held_bytes {c : Conn} (h : Outgoing c) :
    (c.hand ++ c.lost).flatten.length ≤ messageSize := by
  have hfits : ∀ b ∈ c.hand ++ c.lost, b.length ≤ messageSize := by
    intro b hb
    refine h.fits b ?_
    rw [List.append_assoc]
    exact List.mem_append_right _ hb
  have hone := h.held_length
  generalize c.hand ++ c.lost = held at hfits hone
  match held with
  | [] => exact Nat.zero_le _
  | [b] => simpa using hfits b List.mem_cons_self

/-- What was written is what was sent, what is held, and what is unread. -/
theorem Outgoing.written {c : Conn} (h : Outgoing c) (hseq : c.writer.Sequential) :
    c.written =
      c.sent.flatten ++ ((c.hand ++ c.lost).flatten ++ (unread c.writer.writes).bytes) := by
  have hbytes := (hseq.readSeq h.flow).bytes
  rw [offered_bytes, ← h.sent] at hbytes
  rw [Conn.written, hbytes]
  simp

theorem Incoming.pieces {c : Conn} (h : Incoming c) :
    c.pieces.flatten = c.received ++ (unread c.reader.writes).bytes := by
  have hbytes := (h.seq.readSeq h.flow).bytes
  rwa [offered_bytes] at hbytes

/-- In every run in which the callers of `Write` on `a` take turns, what the calls of `Read` at `b`
return begins what was written to `a`. If one of them returns `io.EOF` and every `Write` at `a` has
returned without an error, at most one message is missing at the end. -/
theorem link_stream {s : Link} {acts : List Link.Act} (hrun : exec Link.step .new acts = some s)
    (hone : Meets Link.step OneWriter .new acts) :
    s.b.reader.Answered ∧ s.b.received <+: s.a.written ∧
      ∀ (r m : Nat) (b : Bytes), s.b.reader.reads[r]? = some ⟨m, .returned b (some .eof)⟩ →
        (∀ x ∈ s.a.writer.writes, x.stage = .returned none) →
        ∃ missing, s.a.written = s.b.received ++ missing ∧ missing.length ≤ messageSize := by
  obtain ⟨h, hseq⟩ := sequential_run hrun hone
  have hwritten := h.outgoing.written hseq
  refine ⟨h.incoming.flow.answered, ?_, ?_⟩
  · calc s.b.received
        <+: s.b.pieces.flatten := by
          rw [h.incoming.pieces]
          exact List.prefix_append _ _
      _ <+: (s.a.sent.take s.taken).flatten := by
          rw [← h.bytes]
          exact List.prefix_append _ _
      _ <+: s.a.sent.flatten := (List.take_prefix _ _).flatten
      _ <+: s.a.written := by
          rw [hwritten]
          exact List.prefix_append _ _
  · intro r m b hz hserved
    obtain ⟨hend, hnil⟩ := h.incoming.eof hz
    obtain ⟨hcur, code, hframe⟩ :
        s.current = [] ∧ ∃ code, s.a.frames[s.taken]? = some (.close code) := by
      rcases hend with hended | ⟨code, hcode, hended⟩
      · exact h.clean .eof (by rw [hended]; rfl) rfl
      · exact h.clean (.given (.close code)) (by rw [hended]; rfl) (if_pos hcode)
    -- the Close frame was read, so all messages were
    have hall : s.a.sent.take s.taken = s.a.sent := List.take_of_length_le (frames_closed hframe)
    have hbytes := h.bytes
    rw [hcur, hall, h.incoming.pieces, hnil, Reader.bytes_nil, List.append_nil,
      List.append_nil] at hbytes
    refine ⟨(s.a.hand ++ s.a.lost).flatten, ?_, h.outgoing.held_bytes⟩
    rw [hwritten, ← hbytes, Pipe.unread_served hserved, Reader.bytes_nil, List.append_nil]

/-- `Close` overtakes `writeLoop`: the only `Write` succeeds, `b` reads `io.EOF`, and the byte is
lost. -/
theorem link_stream_overtaken :
    ∃ s, exec Link.step .new
        [.a (.writer (.write [7])), .a (.writer (.enter 0)), .a (.writer (.lock 0)), .a .take,
          .a (.writer (.begin 0)), .a (.writer (.transfer 0)), .a .took, .a .close,
          .a (.closeStep 0 true), .a (.closeStep 0 true), .a (.closeStep 0 true),
          .b (.readFails (.close 1005) false), .b .endRead, .b (.reader (.read 1)),
          .b (.reader (.begin 0))] = some s ∧
      s.a.writer.writes = [⟨[7], 1, .returned none⟩] ∧
      s.b.reader.reads = [⟨1, .returned [] (some .eof)⟩] ∧ s.b.received = [] ∧
      ∃ missing, s.a.written = s.b.received ++ missing ∧ missing.length ≤ messageSize := by
  refine exec_reaches (P := fun s => s.a.writer.writes = [⟨[7], 1, .returned none⟩] ∧
    s.b.reader.reads = [⟨1, .returned [] (some .eof)⟩] ∧ s.b.received = []) (by decide +kernel) ?_
  rintro s hrun ⟨hwrites, hreads, hreceived⟩
  refine ⟨hwrites, hreads, hreceived, ?_⟩
  refine (link_stream hrun (by decide +kernel)).2.2 0 1 [] ?_ ?_
  · rw [hreads]
    rfl
  · rw [hwrites]
    simp

end PTBridge.Snowflake.WebSocketConn
