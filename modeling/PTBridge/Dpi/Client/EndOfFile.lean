import PTBridge.Dpi.Client.TunnelConn

/-!
# What an end of file from `tunnelConn.Read` says

`streamReader.Read` tells its errors apart: the end of the body, a body cut short, a frame that is
too long, a frame that does not decrypt. `pumpRead` logs the error and closes `readCh`, and `Read`
reports a closed channel as `io.EOF`, so for its callers all of them are one.

- `CleanEnd` says that a body consists of whole frames that decrypt, and then ends. `Defect` lists
  what can be wrong with any other body.
- `streamEnd` is the error with which `streamReader` ends, whatever the sizes of the reads.
- `eof_reached`: unless that error is a panic, some calls of `Read` lead to `io.EOF`.
- `eof_means_clean_iff` follows: an end of file says something only if the body was clean to begin
  with.
-/

namespace PTBridge.Dpi

open PTBridge.Stream PTBridge.Container PTBridge.Transition

/-! ## Clean bodies -/

/-- Whole frames, each within the limit and with a message that decrypts. -/
inductive Frames (decrypt : Bytes → Except CryptoError Bytes) : Bytes → Prop where
  | nil : Frames decrypt []
  | cons {lenBuf enc dec rest : Bytes} (hlen : lenBuf.length = 4)
      (henc : enc.length = (uint32 lenBuf).toNat) (hmax : enc.length ≤ maxEncLen)
      (hdec : decrypt enc = .ok dec) (hrest : Frames decrypt rest) :
      Frames decrypt (lenBuf ++ enc ++ rest)

/-- The body ends at a frame boundary: it consists of whole frames, and its end is a regular one. -/
def CleanEnd (decrypt : Bytes → Except CryptoError Bytes) (body : Reader) : Prop :=
  Frames decrypt body.bytes ∧ body.final = .eof

/-! ## What can be wrong with a body -/

/-- A frame that `streamReader` cannot read, and what follows it. -/
inductive Broken (decrypt : Bytes → Except CryptoError Bytes) : Bytes → Prop where
  | cutLength {b : Bytes} (hsome : b ≠ []) (hshort : b.length < 4) : Broken decrypt b
  | cutFrame {lenBuf enc : Bytes} (hlen : lenBuf.length = 4)
      (hshort : enc.length < (uint32 lenBuf).toNat) : Broken decrypt (lenBuf ++ enc)
  | tooLong {lenBuf rest : Bytes} (hlen : lenBuf.length = 4)
      (hmax : maxEncLen < (uint32 lenBuf).toNat) : Broken decrypt (lenBuf ++ rest)
  | undecryptable {lenBuf enc rest : Bytes} {err : CryptoError} (hlen : lenBuf.length = 4)
      (henc : enc.length = (uint32 lenBuf).toNat) (hdec : decrypt enc = .error err) :
      Broken decrypt (lenBuf ++ (enc ++ rest))

/-- A broken frame behind whole ones, or an error of the body itself. -/
inductive Defect (decrypt : Bytes → Except CryptoError Bytes) (body : Reader) : Prop where
  | broken {frames bad : Bytes} (hframes : Frames decrypt frames) (hbad : Broken decrypt bad)
      (hbytes : body.bytes = frames ++ bad)
  | failed (hfinal : body.final ≠ .eof)

section Defects

variable {decrypt : Bytes → Except CryptoError Bytes}

/-- Frames that begin with a given length. -/
theorem Frames.inv {lenBuf x : Bytes} (hlen : lenBuf.length = 4)
    (h : Frames decrypt (lenBuf ++ x)) :
    ∃ enc dec rest, x = enc ++ rest ∧ enc.length = (uint32 lenBuf).toNat ∧
      enc.length ≤ maxEncLen ∧ decrypt enc = .ok dec ∧ Frames decrypt rest := by
  generalize hb : lenBuf ++ x = b at h
  cases h with
  | nil =>
    have hzero := congrArg List.length hb
    rw [List.length_append, hlen, List.length_nil] at hzero
    omega
  | @cons lenBuf' enc dec rest hlen' henc hmax hdec hrest =>
    rw [List.append_assoc] at hb
    obtain ⟨rfl, rfl⟩ := List.append_inj hb (hlen.trans hlen'.symm)
    exact ⟨enc, dec, rest, rfl, henc, hmax, hdec, hrest⟩

theorem Frames.not_broken {b : Bytes} (h : Frames decrypt b) : ¬ Broken decrypt b := by
  intro hbroken
  cases hbroken with
  | cutLength hsome hshort =>
    cases h with
    | nil => exact hsome rfl
    | cons hlen _ _ _ _ =>
      simp only [List.length_append] at hshort
      omega
  | cutFrame hlen hshort =>
    obtain ⟨enc, dec, rest, rfl, henc, -, -, -⟩ := h.inv hlen
    rw [List.length_append] at hshort
    omega
  | tooLong hlen hmax =>
    obtain ⟨enc, dec, rest, rfl, henc, hle, -, -⟩ := h.inv hlen
    omega
  | undecryptable hlen henc herr =>
    obtain ⟨enc', dec, rest', heq, henc', -, hdec, -⟩ := h.inv hlen
    obtain ⟨rfl, -⟩ := List.append_inj heq (henc.trans henc'.symm)
    rw [herr] at hdec
    cases hdec

/-- What stands behind whole frames in a sequence of frames is one itself. -/
theorem Frames.rest {frames b : Bytes} (h : Frames decrypt frames)
    (hall : Frames decrypt (frames ++ b)) : Frames decrypt b := by
  induction h with
  | nil => exact hall
  | cons hlen henc _ _ _ ih =>
    rw [List.append_assoc, List.append_assoc] at hall
    obtain ⟨enc', dec', rest', heq, henc', -, -, hrest⟩ := hall.inv hlen
    obtain ⟨rfl, rfl⟩ := List.append_inj heq (henc.trans henc'.symm)
    exact ih hrest

/-- Every sequence of bytes is a sequence of frames, up to a broken one. -/
theorem frames_or_broken (b : Bytes) :
    Frames decrypt b ∨ ∃ frames bad, Frames decrypt frames ∧ Broken decrypt bad ∧
      b = frames ++ bad := by
  induction hn : b.length using Nat.strong_induction_on generalizing b with
  | _ n ih =>
    by_cases hnil : b = []
    · exact Or.inl (hnil ▸ .nil)
    by_cases hshort : b.length < 4
    · exact Or.inr ⟨[], b, .nil, .cutLength hnil hshort, rfl⟩
    -- the length is there: what follows is too long, too short or a frame
    obtain ⟨lenBuf, x, rfl, hlen⟩ : ∃ lenBuf x, b = lenBuf ++ x ∧ lenBuf.length = 4 :=
      ⟨b.take 4, b.drop 4, (List.take_append_drop 4 b).symm, List.length_take_of_le (by omega)⟩
    by_cases hmax : maxEncLen < (uint32 lenBuf).toNat
    · exact Or.inr ⟨[], _, .nil, .tooLong hlen hmax, rfl⟩
    by_cases hcut : x.length < (uint32 lenBuf).toNat
    · exact Or.inr ⟨[], _, .nil, .cutFrame hlen hcut, rfl⟩
    obtain ⟨enc, rest, rfl, henc⟩ : ∃ enc rest, x = enc ++ rest ∧
        enc.length = (uint32 lenBuf).toNat :=
      ⟨x.take _, x.drop _, (List.take_append_drop _ x).symm, List.length_take_of_le (by omega)⟩
    cases hdec : decrypt enc with
    | error err => exact Or.inr ⟨[], _, .nil, .undecryptable hlen henc hdec, rfl⟩
    | ok dec =>
      have hframe : ∀ r, Frames decrypt r → Frames decrypt (lenBuf ++ (enc ++ r)) := by
        intro r hr
        rw [← List.append_assoc]
        exact .cons hlen henc (by omega) hdec hr
      have hless : rest.length < n := by
        simp only [List.length_append] at hn
        omega
      rcases ih _ hless rest rfl with hrest | ⟨frames, bad, hframes, hbad, rfl⟩
      · exact Or.inl (hframe rest hrest)
      · refine Or.inr ⟨lenBuf ++ (enc ++ frames), bad, hframe frames hframes, hbad, ?_⟩
        simp only [List.append_assoc]

theorem cleanEnd_iff {body : Reader} : CleanEnd decrypt body ↔ ¬ Defect decrypt body := by
  constructor
  · rintro ⟨hclean, hfinal⟩ hdefect
    cases hdefect with
    | broken hframes hbad hbytes =>
      rw [hbytes] at hclean
      exact (hframes.rest hclean).not_broken hbad
    | failed hfailed => exact hfailed hfinal
  · intro hno
    refine ⟨?_, ?_⟩
    · rcases @frames_or_broken decrypt body.bytes with hframes | ⟨frames, bad, hframes, hbad, hbytes⟩
      · exact hframes
      · exact absurd (.broken hframes hbad hbytes) hno
    · by_contra hfinal
      exact hno (.failed hfinal)

end Defects

/-! ## How the stream ends -/

section StreamEnd

variable {decrypt : Bytes → Except CryptoError Bytes} {body body' : Reader} {payload : Bytes}
  {err : StreamError} {sr : StreamReader} {m : Nat}

/-- The error of the first frame that cannot be read. -/
def streamEnd (decrypt : Bytes → Except CryptoError Bytes) (body : Reader) : StreamError :=
  match _h : nextFrame decrypt body with
  | (.error err, _) => err
  | (.ok _, body') => streamEnd decrypt body'
termination_by body.bytes.length
decreasing_by exact nextFrame_lt ‹_›

theorem streamEnd_error (h : nextFrame decrypt body = (.error err, body')) :
    streamEnd decrypt body = err := by
  rw [streamEnd]
  split
  · rename_i h'
    rw [h] at h'
    cases h'
    rfl
  · rename_i h'
    rw [h] at h'
    cases h'

theorem streamEnd_ok (h : nextFrame decrypt body = (.ok payload, body')) :
    streamEnd decrypt body = streamEnd decrypt body' := by
  rw [streamEnd]
  split
  · rename_i h'
    rw [h] at h'
    cases h'
  · rename_i h'
    rw [h] at h'
    cases h'
    rfl

/-- Less is left to read: of the body, or of the frame that was read last. -/
def Less (sr' sr : StreamReader) : Prop :=
  sr'.body.bytes.length < sr.body.bytes.length ∨
    sr'.body.bytes.length = sr.body.bytes.length ∧
      sr'.decrypted.length - sr'.off < sr.decrypted.length - sr.off

/-- What a call of `streamReader.Read` does to the rest of the stream. -/
inductive Fetch (decrypt : Bytes → Except CryptoError Bytes) (sr : StreamReader) :
    Bytes × Option StreamError × StreamReader → Prop where
  | data {got sr'} (hne : got ≠ []) (hless : Less sr' sr)
      (hend : streamEnd decrypt sr'.body = streamEnd decrypt sr.body) :
      Fetch decrypt sr (got, none, sr')
  | failed {sr'} : Fetch decrypt sr ([], some (streamEnd decrypt sr.body), sr')

theorem read_fetch (hm : 0 < m) (sr : StreamReader) : Fetch decrypt sr (sr.read decrypt m) := by
  -- along the frames that the call skips because they have no payload
  induction hn : sr.body.bytes.length using Nat.strong_induction_on generalizing sr with
  | _ n ih =>
    by_cases hleft : sr.off < sr.decrypted.length
    · rw [StreamReader.read_left hleft]
      refine .data ?_ (Or.inr ⟨rfl, ?_⟩) rfl
      · intro hnil
        have hlen := congrArg List.length hnil
        simp only [List.length_take, List.length_drop, List.length_nil] at hlen
        omega
      · simp only [List.length_take, List.length_drop]
        omega
    · have hdone := Nat.le_of_not_lt hleft
      obtain ⟨⟨res, body⟩, hnext⟩ : ∃ p, nextFrame decrypt sr.body = p := ⟨_, rfl⟩
      cases res with
      | error err =>
        rw [StreamReader.read_failed hdone hnext, ← streamEnd_error hnext]
        exact .failed
      | ok payload =>
        have hlt := nextFrame_lt hnext
        rw [StreamReader.read_next hdone hnext]
        have hrest := ih _ (hn ▸ hlt) ⟨body, payload, 0⟩ rfl
        have hend := streamEnd_ok hnext
        generalize StreamReader.read decrypt m ⟨body, payload, 0⟩ = out at hrest
        cases hrest with
        | data hne hless hend' =>
          refine .data hne (Or.inl ?_) (hend'.trans hend.symm)
          rcases hless with hless | ⟨heq, -⟩
          · exact Nat.lt_trans hless hlt
          · exact heq ▸ hlt
        | failed =>
          change Fetch decrypt sr ([], some (streamEnd decrypt body), _)
          rw [← hend]
          exact .failed

end StreamEnd

namespace TunnelConn

variable {decrypt : Bytes → Except CryptoError Bytes} {tc tc' : TunnelConn} {a : Act}
  {e : StreamError}

/-! ## An end of file is never the end of a panic -/

/-- Runs without `Close`, of a stream that ends with `e`. -/
structure EndsWith (decrypt : Bytes → Except CryptoError Bytes) (e : StreamError)
    (tc : TunnelConn) : Prop where
  opened : tc.closeCh = false
  idle : tc.closer = .idle
  /-- `pumpRead` gets to the end of the stream. -/
  ahead : tc.pump = .top ∨ tc.pump = .reading ∨ (∃ dup, tc.pump = .sending dup none) →
    streamEnd decrypt tc.reader.body = e
  noError : ∀ dup err, tc.pump = .sending dup err → err = none
  failed : tc.pump = .failing ∨ tc.pump = .done → e ≠ .panic
  closed : tc.readCh.closed = true → tc.pump = .done
  eof : .eof ∈ tc.reads → tc.readCh.closed = true

theorem endsWith_new (body : Reader) : EndsWith decrypt (streamEnd decrypt body) (.new body) where
  opened := rfl
  idle := rfl
  ahead _ := rfl
  noError := nofun
  failed := by simp [new]
  closed := nofun
  eof := nofun

/-- What `pumpRead` does with what it reads. -/
theorem EndsWith.fetched {got : Bytes} {err : Option StreamError} {reader : StreamReader}
    (hI : EndsWith decrypt e tc) (hpc : tc.pump = .reading)
    (hread : tc.reader.read decrypt pumpBufSize = (got, err, reader)) :
    EndsWith decrypt e { tc with reader, pump := afterFetch got err } := by
  have hend := hI.ahead (Or.inr (Or.inl hpc))
  have hclosed : ∀ p : PumpPc, tc.readCh.closed = true → p = .done := by
    intro p hclosed
    rw [hI.closed hclosed] at hpc
    cases hpc
  have hfetch := @read_fetch decrypt pumpBufSize (by decide) tc.reader
  rw [hread] at hfetch
  cases hfetch with
  | data hne _ hend' =>
    rw [afterFetch_data hne]
    exact
      { opened := hI.opened
        idle := hI.idle
        ahead := fun _ => hend'.trans hend
        noError := fun dup err h => by cases h; rfl
        failed := by simp
        closed := hclosed _
        eof := hI.eof }
  | failed =>
    rw [hend]
    -- a panic ends `pumpRead` where it stands, any other error makes it fail
    by_cases hpanic : e = .panic
    · have hpump : afterFetch [] (some e) = .crashed := by
        rw [afterFetch, if_pos (congrArg some hpanic)]
      rw [hpump]
      exact
        { opened := hI.opened
          idle := hI.idle
          ahead := by simp
          noError := by simp
          failed := by simp
          closed := hclosed _
          eof := hI.eof }
    · rw [afterFetch_failing hpanic]
      exact
        { opened := hI.opened
          idle := hI.idle
          ahead := by simp
          noError := by simp
          failed := fun _ => hpanic
          closed := hclosed _
          eof := hI.eof }

theorem EndsWith.preserved (hI : EndsWith decrypt e tc) (hquiet : a ≠ .close)
    (hs : Step decrypt tc a tc') : EndsWith decrypt e tc' := by
  -- `Close` was not called, so its cases are out
  have hno : tc.closeCh ≠ true := by
    rw [hI.opened]
    exact Bool.false_ne_true
  have hopen : ∀ p, tc.pump = p → p ≠ .done → tc.readCh.closed ≠ true :=
    fun p hpc hp hclosed => hp (hpc.symm.trans (hI.closed hclosed))
  cases hs with
  | stopped _ hclosed => exact absurd hclosed hno
  | quit _ hclosed => exact absurd hclosed hno
  | left _ hclosed => exact absurd hclosed hno
  | closed _ => exact absurd rfl hquiet
  | closedReader hpc =>
    rw [hI.idle] at hpc
    cases hpc
  | checked hpc _ =>
    exact
      { opened := hI.opened
        idle := hI.idle
        ahead := fun _ => hI.ahead (Or.inl hpc)
        noError := by simp
        failed := by simp
        closed := fun h => absurd h (hopen _ hpc (by simp))
        eof := hI.eof }
  | fetched hpc hread => exact hI.fetched hpc hread
  | @sent dup err ch hpc hsend =>
    obtain ⟨-, -, -, hclosed⟩ := Chan.send_eq_some.mp hsend
    obtain rfl := hI.noError dup err hpc
    exact
      { opened := hI.opened
        idle := hI.idle
        ahead := fun _ => hI.ahead (Or.inr (Or.inr ⟨dup, hpc⟩))
        noError := by simp [afterRead]
        failed := by simp [afterRead]
        closed := fun h => absurd (hclosed ▸ h) (hopen _ hpc (by simp))
        eof := fun h => hclosed.trans (hI.eof h) }
  | finished hpc _ =>
    exact
      { opened := hI.opened
        idle := hI.idle
        ahead := by simp
        noError := by simp
        failed := fun _ => hI.failed (Or.inl hpc)
        closed := fun _ => rfl
        eof := fun _ => rfl }
  | readBuffered _ =>
    exact { hI with eof := fun h => hI.eof (by simpa using h) }
  | readEnd _ _ hclosed => exact { hI with eof := fun _ => hclosed }
  | readChunk _ _ hclosed =>
    exact
      { hI with
        closed := fun h => hI.closed (hclosed ▸ h)
        eof := fun h => hclosed.trans (hI.eof (by simpa using h)) }

/-! ## Every other error ends in an end of file -/

/-- `pumpRead` is at the top of its loop, and everything it sent was read. -/
structure Idle (tc : TunnelConn) : Prop where
  opened : tc.closeCh = false
  pump : tc.pump = .top
  readBuf : tc.readBuf = []
  queue : tc.readCh.buf = []
  unclosed : tc.readCh.closed = false

theorem idle_new (body : Reader) : Idle (.new body) := ⟨rfl, rfl, rfl, rfl, rfl⟩

/-- The steps by which `pumpRead` fetches. -/
theorem Idle.fetches (hI : Idle tc) {got : Bytes} {err : Option StreamError} {sr : StreamReader}
    (hread : tc.reader.read decrypt pumpBufSize = (got, err, sr)) :
    exec (step decrypt) tc [.pump .check, .pump .fetch] =
      some { tc with reader := sr, pump := afterFetch got err } := by
  have hcheck : step decrypt tc (.pump .check) = some { tc with pump := .reading } := by
    simp [step, pumpStep, hI.pump, hI.opened]
  refine exec_cons_some.mpr ⟨_, hcheck, ?_⟩
  simp only [exec, step, pumpStep, hread]

/-- A chunk that is sent and read leaves the connection idle again. -/
theorem Idle.passes (hI : Idle tc) {got : Bytes} {sr : StreamReader} :
    ∃ tc', exec (step decrypt) { tc with reader := sr, pump := .sending got none }
        [.pump .send, .read got.length] = some tc' ∧ Idle tc' ∧ tc'.reader = sr := by
  obtain ⟨ch, hbuf, hclosed⟩ := Chan.exists_send (c := tc.readCh) (by rw [hI.queue]; decide) got
  have hsend : tc.readCh.send got = some ch :=
    Chan.send_eq_some.mpr ⟨hI.unclosed, by rw [hI.queue]; decide, hbuf, hclosed⟩
  rw [hI.queue, List.nil_append] at hbuf
  have hstep : step decrypt { tc with reader := sr, pump := .sending got none } (.pump .send) =
      some { tc with reader := sr, readCh := ch, pump := .top } := by
    simp only [step, pumpStep, hsend, afterRead]
  have hunblocked : (readStep { tc with reader := sr, readCh := ch, pump := .top }
      got.length).isSome = true := by
    refine readStep_isSome (Or.inr (Or.inl ?_))
    rw [hbuf]
    exact List.cons_ne_nil _ _
  obtain ⟨tc', hread⟩ := Option.isSome_iff_exists.mp hunblocked
  refine ⟨tc', exec_cons_some.mpr ⟨_, hstep, exec_cons_some.mpr ⟨tc', hread, rfl⟩⟩, ?_⟩
  cases (readStep_cases hread : Step decrypt _ _ _) with
  | readBuffered h => exact absurd hI.readBuf h
  | readEnd _ h _ =>
    rw [hbuf] at h
    cases h
  | @readChunk _ data ch' _ h hsame =>
    rw [hbuf] at h
    obtain ⟨rfl, hnil⟩ := List.cons.inj h
    exact ⟨⟨hI.opened, rfl, List.drop_length, hnil.symm,
      hsame.trans (hclosed.trans hI.unclosed)⟩, rfl⟩

/-- After an error `pumpRead` closes `readCh`, and the next call of `Read` returns `io.EOF`. -/
theorem Idle.ends (hI : Idle tc) {sr : StreamReader} :
    ∃ tc', exec (step decrypt) { tc with reader := sr, pump := .failing }
        [.pump .finish, .read 0] = some tc' ∧ .eof ∈ tc'.reads := by
  have hrecv : tc.readCh.close.recv = some (none, tc.readCh.close) :=
    Chan.recv_eq_closed.mpr ⟨hI.queue, rfl, rfl⟩
  refine ⟨{ tc with
    reader := sr, readCh := tc.readCh.close, pump := .done, reads := tc.reads ++ [.eof] }, ?_, ?_⟩
  · simp [exec, step, pumpStep, readStep, hI.opened, hI.readBuf, hrecv]
  · exact List.mem_append_right _ List.mem_cons_self

/-- From an idle connection, some calls of `Read` lead to `io.EOF`, whatever error ends the
stream. -/
theorem eof_reached (tc : TunnelConn) (hI : Idle tc)
    (hend : streamEnd decrypt tc.reader.body ≠ .panic) :
    ∃ (acts : List Act) (tc' : TunnelConn), (∀ a ∈ acts, a ≠ .close) ∧
      exec (step decrypt) tc acts = some tc' ∧ .eof ∈ tc'.reads := by
  have hfetch := @read_fetch decrypt pumpBufSize (by decide) tc.reader
  obtain ⟨⟨got, err, sr⟩, hread⟩ : ∃ p, tc.reader.read decrypt pumpBufSize = p := ⟨_, rfl⟩
  have hfirst := hI.fetches hread
  rw [hread] at hfetch
  cases hfetch with
  | data hne hless hsame =>
    obtain ⟨mid, hmid, hidle, hreader⟩ := @Idle.passes decrypt tc hI got sr
    -- one chunk further, with less of the stream left
    have hdecr : Less mid.reader tc.reader := hreader ▸ hless
    obtain ⟨acts, tc', hquiet, hrun, heof⟩ :=
      eof_reached mid hidle (by rw [hreader, hsame]; exact hend)
    refine ⟨(([.pump .check, .pump .fetch] : List Act) ++
      ([.pump .send, .read got.length] : List Act)) ++ acts, tc', ?_, ?_, heof⟩
    · intro a ha
      rcases List.mem_append.mp ha with ha | ha
      · rintro rfl
        simp at ha
      · exact hquiet a ha
    · rw [afterFetch_data hne] at hfirst
      exact exec_append_some.mpr ⟨mid, exec_append_some.mpr ⟨_, hfirst, hmid⟩, hrun⟩
  | failed =>
    rw [afterFetch_failing hend] at hfirst
    obtain ⟨tc', hlast, heof⟩ := @Idle.ends decrypt tc hI sr
    refine ⟨([.pump .check, .pump .fetch] : List Act) ++ ([.pump .finish, .read 0] : List Act),
      tc', ?_, ?_, heof⟩
    · rintro a ha rfl
      simp at ha
    · exact exec_append_some.mpr ⟨_, hfirst, hlast⟩
termination_by (tc.reader.body.bytes.length, tc.reader.decrypted.length - tc.reader.off)
decreasing_by
  rcases hdecr with hlt | ⟨heq, hlt⟩
  · exact Prod.Lex.left _ _ hlt
  · rw [heq]
    exact Prod.Lex.right _ hlt

/-! ## The end of file -/

/-- An end of file without a `Close` means that the body ended cleanly. -/
def EofMeansClean (decrypt : Bytes → Except CryptoError Bytes) (body : Reader) : Prop :=
  ∀ (acts : List Act) (tc : TunnelConn), (∀ a ∈ acts, a ≠ .close) →
    exec (step decrypt) (.new body) acts = some tc → .eof ∈ tc.reads → CleanEnd decrypt body

/-- A defect of the body surfaces: without a `Close`, some calls of `Read` lead to an error other
than `io.EOF`. -/
def DefectSurfaces (decrypt : Bytes → Except CryptoError Bytes) (body : Reader) : Prop :=
  Defect decrypt body → ∃ (acts : List Act) (tc : TunnelConn), (∀ a ∈ acts, a ≠ .close) ∧
    exec (step decrypt) (.new body) acts = some tc ∧
    ∃ r ∈ tc.reads, ∃ err, r.err = some err ∧ err ≠ .read .eof

/-- The first half alone: it also holds for a body with a frame that makes `streamReader` panic,
since the process does not get to report an end then. -/
theorem eofMeansClean_iff (decrypt : Bytes → Except CryptoError Bytes) (body : Reader) :
    EofMeansClean decrypt body ↔ CleanEnd decrypt body ∨ streamEnd decrypt body = .panic := by
  constructor
  · intro h
    by_cases hpanic : streamEnd decrypt body = .panic
    · exact Or.inr hpanic
    · obtain ⟨acts, tc, hquiet, hrun, heof⟩ := eof_reached (.new body) (idle_new body) hpanic
      exact Or.inl (h acts tc hquiet hrun heof)
  · rintro (hclean | hpanic) acts tc hquiet hrun heof
    · exact hclean
    · have hI : EndsWith decrypt (streamEnd decrypt body) tc :=
        exec_invariant (fun _ _ _ hi ha hs => EndsWith.preserved hi ha (step_cases hs)) acts _ tc
          (endsWith_new body) (meets_of_forall hquiet _) hrun
      exact absurd hpanic (hI.failed (Or.inr (hI.closed (hI.eof heof))))

/-- For every body and every outcome of `Decrypt`: an end of file without a `Close` means a clean
end, and every defect surfaces as another error, exactly if the body ends cleanly. -/
theorem eof_means_clean_iff (decrypt : Bytes → Except CryptoError Bytes) (body : Reader) :
    (EofMeansClean decrypt body ∧ DefectSurfaces decrypt body ↔ CleanEnd decrypt body) ∧
      (EofMeansClean decrypt body ↔ CleanEnd decrypt body ∨ streamEnd decrypt body = .panic) := by
  refine ⟨⟨?_, ?_⟩, eofMeansClean_iff decrypt body⟩
  · rintro ⟨-, hsurfaces⟩
    rw [cleanEnd_iff]
    intro hdefect
    obtain ⟨acts, tc, -, -, r, -, err, herr, hother⟩ := hsurfaces hdefect
    -- `Read` returns no error but `io.EOF`
    cases r with
    | data b => cases herr
    | eof =>
      cases herr
      exact hother rfl
  · intro hclean
    refine ⟨fun _ _ _ _ _ => hclean, fun hdefect => ?_⟩
    exact absurd hdefect (cleanEnd_iff.mp hclean)

/-- A body cut inside its first length prefix. -/
def cutBody : Reader := [⟨[0], some .eof⟩]

/-- `streamReader` reports that body as cut short, and `Read` as an end of file. -/
theorem cut_body_reads_as_eof :
    streamEnd Encryptor.plain.decrypt cutBody = .read .unexpectedEOF ∧
      (∃ tc, exec (step Encryptor.plain.decrypt) (.new cutBody)
          [.pump .check, .pump .fetch, .pump .finish, .read 1] = some tc ∧ tc.reads = [.eof]) ∧
      ¬ CleanEnd Encryptor.plain.decrypt cutBody := by
  refine ⟨?_, ?_, ?_⟩
  · have hnext : nextFrame Encryptor.plain.decrypt cutBody =
        (.error (.read .unexpectedEOF), [⟨[], some .eof⟩]) := by
      decide +kernel
    exact streamEnd_error hnext
  · apply exec_reaches (P := fun tc : TunnelConn => tc.reads = [.eof])
    · decide +kernel
    · exact fun _ _ h => h
  · intro hclean
    exact hclean.1.not_broken (.cutLength (by decide) (by decide))

end TunnelConn

end PTBridge.Dpi
