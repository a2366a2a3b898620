import PTBridge.Container.Channel
import PTBridge.Dpi.Client.StreamReader
import PTBridge.Transition.Run

/-!
# `dpi/client/proxy.go`: the read side of `tunnelConn`

`pumpRead` moves what `streamReader.Read` returns into `readCh`; `tunnelConn.Read` hands it out in
the sizes its callers ask for and keeps the rest of a chunk in `readBuf`; `Close` closes `closeCh`
and then the response body. The three run side by side, so a connection is a step function: the
label says who moves.

- `step` is the code; `Step` and `step_cases` list what a step can do.
- `reads` remembers what the calls of `Read` returned; `beforeEOF` is the data among it.
- `Intact` accounts for every byte on its way from the body to the caller. It holds along every
  run without a `Close`, and `tunnelConn_reads_chunks` follows from it.
-/

namespace PTBridge.Dpi

open PTBridge.Stream PTBridge.Container PTBridge.Transition

/-! ## State -/

/-- Where `pumpRead` stands. -/
inductive PumpPc where
  /-- at the check of `closeCh` -/
  | top
  /-- in `tc.reader.Read(buf)` -/
  | reading
  /-- at the select that sends `dup`; `err` came with it -/
  | sending (dup : Bytes) (err : Option StreamError)
  /-- at the select after an error -/
  | failing
  | done
  /-- `tc.reader.Read` panicked -/
  | crashed
  deriving DecidableEq, Repr

/-- Where the one effective call of `Close` stands. -/
inductive ClosePc where
  | idle
  /-- `closeCh` is closed, the body not yet -/
  | closing
  | done
  deriving DecidableEq, Repr

/-- What a call of `tunnelConn.Read` returned. -/
inductive ReadResult where
  | data (b : Bytes)
  | eof
  deriving DecidableEq, Repr

/-- The error value that it returned: nil or `io.EOF`. -/
def ReadResult.err : ReadResult → Option StreamError
  | .data _ => none
  | .eof => some (.read .eof)

/-- `tunnelConn`, its read side. -/
structure TunnelConn where
  reader : StreamReader
  readBuf : Bytes
  readCh : Chan 16 Bytes
  /-- `closeCh` is closed. -/
  closeCh : Bool
  pump : PumpPc
  closer : ClosePc
  /-- What the calls of `Read` returned so far. -/
  reads : List ReadResult
  deriving DecidableEq

/-- `newTunnelConn` once `DownloadStream` has returned. -/
def TunnelConn.new (body : Reader) : TunnelConn :=
  ⟨.new body, [], .make, false, .top, .idle, []⟩

/-! ## Steps -/

inductive PumpMove where
  /-- the first select -/
  | check
  /-- `tc.reader.Read(buf)` -/
  | fetch
  /-- `tc.readCh <- dup` -/
  | send
  /-- `<-tc.closeCh` while it sends -/
  | quit
  /-- the select after an error -/
  | finish
  deriving DecidableEq, Repr

namespace TunnelConn

/-- A step of the connection. -/
inductive Act where
  | pump (m : PumpMove)
  /-- `Read(b)` with `len(b) = m` returns -/
  | read (m : Nat)
  /-- `close(tc.closeCh)` in `Close` -/
  | close
  /-- `tc.reader.Close()` in `Close` -/
  | closeReader
  deriving DecidableEq, Repr

/-- `make([]byte, 32*1024)` in `pumpRead`. -/
def pumpBufSize : Nat := 32 * 1024

/-- A body that was closed: every read fails. -/
def closedBody : Reader := [⟨[], some (.other 0)⟩]

/-- `pumpRead` after it has dealt with the data of a read. -/
def afterRead : Option StreamError → PumpPc
  | none => .top
  | some _ => .failing

/-- Where `pumpRead` goes with what a read returned. -/
def afterFetch (got : Bytes) (err : Option StreamError) : PumpPc :=
  if err = some .panic then .crashed
  else if got = [] then afterRead err
  else .sending got err

theorem afterRead_ne_done (err : Option StreamError) : afterRead err ≠ .done := by
  cases err <;> exact nofun

theorem afterFetch_data {got : Bytes} (hne : got ≠ []) :
    afterFetch got none = .sending got none := by
  simp [afterFetch, hne]

theorem afterFetch_failing {err : StreamError} (hno : err ≠ .panic) :
    afterFetch [] (some err) = .failing := by
  simp [afterFetch, hno, afterRead]

theorem afterFetch_ne_done (got : Bytes) (err : Option StreamError) :
    afterFetch got err ≠ .done := by
  unfold afterFetch
  split
  · exact nofun
  · split
    · exact afterRead_ne_done err
    · exact nofun

def pumpStep (decrypt : Bytes → Except CryptoError Bytes) (tc : TunnelConn) (m : PumpMove) :
    Option TunnelConn :=
  match tc.pump, m with
  | .top, .check =>
      if tc.closeCh then some { tc with pump := .done } else some { tc with pump := .reading }
  | .reading, .fetch =>
      match tc.reader.read decrypt pumpBufSize with
      | (got, err, reader) => some { tc with reader, pump := afterFetch got err }
  | .sending dup err, .send =>
      match tc.readCh.send dup with
      | none => none
      | some ch => some { tc with readCh := ch, pump := afterRead err }
  | .sending _ _, .quit => if tc.closeCh then some { tc with pump := .done } else none
  | .failing, .finish =>
      -- after a Close the channel stays open
      if tc.closeCh then some { tc with pump := .done }
      else some { tc with readCh := tc.readCh.close, pump := .done }
  | _, _ => none

/-- `tunnelConn.Read` with a buffer of `m` bytes, when it does not wait. -/
def readStep (tc : TunnelConn) (m : Nat) : Option TunnelConn :=
  -- what an earlier call left over comes first
  if tc.readBuf ≠ [] then
    some { tc with
      readBuf := tc.readBuf.drop m
      reads := tc.reads ++ [.data (tc.readBuf.take m)] }
  else
    match tc.readCh.recv with
    | none => none
    | some (none, _) => some { tc with reads := tc.reads ++ [.eof] }
    -- what does not fit is kept for the next call
    | some (some data, ch) =>
        some { tc with
          readCh := ch
          readBuf := if m < data.length then data.drop m else tc.readBuf
          reads := tc.reads ++ [.data (data.take m)] }

def step (decrypt : Bytes → Except CryptoError Bytes) (tc : TunnelConn) : Act → Option TunnelConn
  | .pump m => pumpStep decrypt tc m
  | .read m => readStep tc m
  | .close =>
      -- `closeOnce` lets one call through
      if tc.closer = .idle then some { tc with closeCh := true, closer := .closing } else none
  | .closeReader =>
      if tc.closer = .closing then
        some { tc with reader := { tc.reader with body := closedBody }, closer := .done }
      else none

/-! ## What a step can do -/

/-- The steps, one case for each branch of the code. -/
inductive Step (decrypt : Bytes → Except CryptoError Bytes) (tc : TunnelConn) :
    Act → TunnelConn → Prop where
  | checked (hpc : tc.pump = .top) (hopen : tc.closeCh = false) :
      Step decrypt tc (.pump .check) { tc with pump := .reading }
  | stopped (hpc : tc.pump = .top) (hclosed : tc.closeCh = true) :
      Step decrypt tc (.pump .check) { tc with pump := .done }
  | fetched {got err reader} (hpc : tc.pump = .reading)
      (hread : tc.reader.read decrypt pumpBufSize = (got, err, reader)) :
      Step decrypt tc (.pump .fetch) { tc with reader, pump := afterFetch got err }
  | sent {dup err ch} (hpc : tc.pump = .sending dup err) (hsend : tc.readCh.send dup = some ch) :
      Step decrypt tc (.pump .send) { tc with readCh := ch, pump := afterRead err }
  | quit {dup err} (hpc : tc.pump = .sending dup err) (hclosed : tc.closeCh = true) :
      Step decrypt tc (.pump .quit) { tc with pump := .done }
  | left (hpc : tc.pump = .failing) (hclosed : tc.closeCh = true) :
      Step decrypt tc (.pump .finish) { tc with pump := .done }
  | finished (hpc : tc.pump = .failing) (hopen : tc.closeCh = false) :
      Step decrypt tc (.pump .finish) { tc with readCh := tc.readCh.close, pump := .done }
  | readBuffered {m} (hbuf : tc.readBuf ≠ []) :
      Step decrypt tc (.read m)
        { tc with
          readBuf := tc.readBuf.drop m
          reads := tc.reads ++ [.data (tc.readBuf.take m)] }
  | readEnd {m} (hbuf : tc.readBuf = []) (hempty : tc.readCh.buf = [])
      (hclosed : tc.readCh.closed = true) :
      Step decrypt tc (.read m) { tc with reads := tc.reads ++ [.eof] }
  | readChunk {m data ch} (hbuf : tc.readBuf = []) (hch : tc.readCh.buf = data :: ch.buf)
      (hclosed : ch.closed = tc.readCh.closed) :
      Step decrypt tc (.read m)
        { tc with
          readCh := ch
          readBuf := data.drop m
          reads := tc.reads ++ [.data (data.take m)] }
  | closed (hpc : tc.closer = .idle) :
      Step decrypt tc .close { tc with closeCh := true, closer := .closing }
  | closedReader (hpc : tc.closer = .closing) :
      Step decrypt tc .closeReader
        { tc with reader := { tc.reader with body := closedBody }, closer := .done }

variable {decrypt : Bytes → Except CryptoError Bytes} {tc tc' : TunnelConn} {a : Act}

theorem pumpStep_cases {m : PumpMove} (h : pumpStep decrypt tc m = some tc') :
    Step decrypt tc (.pump m) tc' := by
  -- one constructor for each branch that has a successor
  unfold pumpStep at h
  split at h
  · rename_i hpc
    split at h
    · rename_i hclosed
      cases h
      exact .stopped hpc hclosed
    · rename_i hopen
      cases h
      exact .checked hpc (eq_false_of_ne_true hopen)
  · rename_i hpc
    split at h
    rename_i got err reader hread
    cases h
    exact .fetched hpc hread
  · rename_i dup err hpc
    split at h
    · cases h
    · rename_i ch hsend
      cases h
      exact .sent hpc hsend
  · rename_i dup err hpc
    split at h
    · rename_i hclosed
      cases h
      exact .quit hpc hclosed
    · cases h
  · rename_i hpc
    split at h
    · rename_i hclosed
      cases h
      exact .left hpc hclosed
    · rename_i hopen
      cases h
      exact .finished hpc (eq_false_of_ne_true hopen)
  · cases h

theorem readStep_cases {m : Nat} (h : readStep tc m = some tc') :
    Step decrypt tc (.read m) tc' := by
  unfold readStep at h
  split at h
  · rename_i hbuf
    cases h
    exact .readBuffered hbuf
  · rename_i hbuf
    have hbuf' : tc.readBuf = [] := not_not.mp hbuf
    split at h
    · cases h
    · rename_i hrecv
      cases h
      obtain ⟨hempty, hclosed, -⟩ := Chan.recv_eq_closed.mp hrecv
      exact .readEnd hbuf' hempty hclosed
    · rename_i data ch hrecv
      cases h
      obtain ⟨hch, hclosed⟩ := Chan.recv_eq_value.mp hrecv
      -- without a rest, `readBuf` stays empty
      have hrest : (if m < data.length then data.drop m else tc.readBuf) = data.drop m := by
        split
        · rfl
        · rename_i hlen
          rw [hbuf', List.drop_eq_nil_of_le (Nat.le_of_not_lt hlen)]
      rw [hrest]
      exact .readChunk hbuf' hch hclosed

/-- Everything a step can do. -/
theorem step_cases (h : step decrypt tc a = some tc') : Step decrypt tc a tc' := by
  cases a with
  | pump m => exact pumpStep_cases h
  | read m => exact readStep_cases h
  | close =>
    simp only [step] at h
    split at h
    · rename_i hpc
      cases h
      exact .closed hpc
    · cases h
  | closeReader =>
    simp only [step] at h
    split at h
    · rename_i hpc
      cases h
      exact .closedReader hpc
    · cases h

end TunnelConn

/-! ## What the calls of `Read` returned -/

/-- The data that came before the first end of file. -/
def beforeEOF : List ReadResult → Bytes
  | [] => []
  | .data b :: rs => b ++ beforeEOF rs
  | .eof :: _ => []

theorem beforeEOF_snoc_data {rs : List ReadResult} (h : .eof ∉ rs) (b : Bytes) :
    beforeEOF (rs ++ [.data b]) = beforeEOF rs ++ b := by
  -- no result so far ends the data
  induction rs with
  | nil => simp [beforeEOF]
  | cons r rs ih =>
    cases r with
    | data c =>
      rw [List.cons_append, beforeEOF, beforeEOF, List.append_assoc,
        ih (fun hr => h (List.mem_cons_of_mem _ hr))]
    | eof => exact absurd List.mem_cons_self h

@[simp] theorem beforeEOF_snoc_eof (rs : List ReadResult) :
    beforeEOF (rs ++ [.eof]) = beforeEOF rs := by
  induction rs with
  | nil => rfl
  | cons r rs ih =>
    cases r with
    | data c => rw [List.cons_append, beforeEOF, beforeEOF, ih]
    | eof => rfl

/-- Calls that each returned something returned at least one byte each. -/
theorem length_le_beforeEOF {rs : List ReadResult} (hfull : .data [] ∉ rs) (heof : .eof ∉ rs) :
    rs.length ≤ (beforeEOF rs).length := by
  induction rs with
  | nil => exact Nat.le_refl 0
  | cons r rs ih =>
    have hrest := ih (fun hr => hfull (List.mem_cons_of_mem _ hr))
      (fun hr => heof (List.mem_cons_of_mem _ hr))
    cases r with
    | eof => exact absurd List.mem_cons_self heof
    | data b =>
      cases b with
      | nil => exact absurd List.mem_cons_self hfull
      | cons x b =>
        rw [beforeEOF, List.length_append, List.length_cons, List.length_cons]
        omega

namespace TunnelConn

/-! ## Every byte is accounted for -/

/-- What `pumpRead` holds between its read and its send. -/
def hand : PumpPc → Bytes
  | .sending dup _ => dup
  | _ => []

@[simp] theorem hand_sending (dup : Bytes) (err : Option StreamError) :
    hand (.sending dup err) = dup := rfl

@[simp] theorem hand_afterRead (err : Option StreamError) : hand (afterRead err) = [] := by
  cases err <;> rfl

/-- A connection on which nobody calls `Close`, on its way through a body that carries `total`. -/
structure Intact (e : Encryptor) (connID : UInt32) (total : Bytes) (tc : TunnelConn) : Prop where
  opened : tc.closeCh = false
  idle : tc.closer = .idle
  /-- Returned, kept by `Read`, queued, held by `pumpRead` and still in the body, in this order. -/
  account : ∃ rest, Carries e connID tc.reader rest ∧
    beforeEOF tc.reads ++ tc.readBuf ++ tc.readCh.buf.flatten ++ hand tc.pump ++ rest = total ∧
    (tc.pump = .failing ∨ tc.pump = .done → rest = [])
  sound : tc.pump ≠ .crashed
  /-- `pumpRead` sends only data, and no error comes with data. -/
  sending : ∀ dup err, tc.pump = .sending dup err → dup ≠ [] ∧ err = none
  queued : [] ∉ tc.readCh.buf
  /-- The channel is closed when `pumpRead` returns. -/
  ended : tc.readCh.closed = true ↔ tc.pump = .done
  returned : .data [] ∉ tc.reads
  /-- Once `Read` has reported the end of file there is nothing left. -/
  drained : .eof ∈ tc.reads → tc.pump = .done ∧ tc.readCh.buf = [] ∧ tc.readBuf = []

variable {e : Encryptor} {connID : UInt32} {total : Bytes}

theorem intact_new {body : Reader} {sent : List (Nonce × Bytes)} (hsize : ChunkSizes sent)
    (hbytes : body.bytes = downloadBody e connID sent) (hfinal : body.final = .eof) :
    Intact e connID (sent.map Prod.snd).flatten (.new body) where
  opened := rfl
  idle := rfl
  account := ⟨_, carries_new hsize hbytes hfinal, rfl, nofun⟩
  sound := nofun
  sending := nofun
  queued := nofun
  ended := by simp [new]
  returned := nofun
  drained := nofun

/-- The steps of a run without `Close` whose reads all have room for a byte. -/
def Act.quiet : Act → Bool
  | .pump _ => true
  | .read m => decide (0 < m)
  | .close => false
  | .closeReader => false

/-- What `pumpRead` does with what it reads. -/
theorem Intact.fetched {got : Bytes} {err : Option StreamError} {reader : StreamReader}
    (hI : Intact e connID total tc) (hpc : tc.pump = .reading)
    (hread : tc.reader.read e.decrypt pumpBufSize = (got, err, reader)) :
    Intact e connID total { tc with reader, pump := afterFetch got err } := by
  obtain ⟨rest, hcarries, htotal, -⟩ := hI.account
  have hopen : ¬ tc.readCh.closed = true := by
    intro hclosed
    have hdone := hI.ended.mp hclosed
    rw [hpc] at hdone
    cases hdone
  have hnoeof : .eof ∉ tc.reads := by
    intro heof
    have hdone := (hI.drained heof).1
    rw [hpc] at hdone
    cases hdone
  rw [hpc] at htotal
  -- the read took the next piece of what was left, or there was nothing left
  rcases read_carries hcarries (show 0 < pumpBufSize by decide) with
    ⟨got', rest', sr', hne, rfl, hread', hcarries'⟩ | ⟨rfl, sr', hread', hcarries'⟩
  · rw [hread] at hread'
    cases hread'
    rw [afterFetch_data hne]
    exact
      { opened := hI.opened
        idle := hI.idle
        account := ⟨rest', hcarries', by simpa [hand] using htotal, nofun⟩
        sound := nofun
        sending := fun dup err h => by cases h; exact ⟨hne, rfl⟩
        queued := hI.queued
        ended := ⟨fun h => absurd h hopen, nofun⟩
        returned := hI.returned
        drained := fun h => absurd h hnoeof }
  · rw [hread] at hread'
    cases hread'
    rw [afterFetch_failing (show StreamError.read .eof ≠ .panic from nofun)]
    exact
      { opened := hI.opened
        idle := hI.idle
        account := ⟨[], hcarries', by simpa [hand] using htotal, fun _ => rfl⟩
        sound := nofun
        sending := nofun
        queued := hI.queued
        ended := ⟨fun h => absurd h hopen, nofun⟩
        returned := hI.returned
        drained := fun h => absurd h hnoeof }

/-- A read that hands out the first bytes of `src`, the oldest data it can have. -/
theorem Intact.handedOut {src : Bytes} {ch : Chan 16 Bytes} {m : Nat}
    (hI : Intact e connID total tc) (hm : 0 < m) (hsrc : src ≠ []) (hnoeof : .eof ∉ tc.reads)
    (hflat : tc.readBuf ++ tc.readCh.buf.flatten = src ++ ch.buf.flatten)
    (hqueued : [] ∉ ch.buf) (hclosed : ch.closed = tc.readCh.closed) :
    Intact e connID total
      { tc with
        readCh := ch
        readBuf := src.drop m
        reads := tc.reads ++ [.data (src.take m)] } where
  opened := hI.opened
  idle := hI.idle
  account := by
    obtain ⟨rest, hcarries, htotal, hend⟩ := hI.account
    refine ⟨rest, hcarries, ?_, hend⟩
    -- the bytes only move one place to the left
    calc beforeEOF (tc.reads ++ [.data (src.take m)]) ++ src.drop m ++ ch.buf.flatten ++
          hand tc.pump ++ rest
        = beforeEOF tc.reads ++ (src.take m ++ src.drop m ++ ch.buf.flatten) ++ hand tc.pump ++
            rest := by simp only [beforeEOF_snoc_data hnoeof, List.append_assoc]
      _ = beforeEOF tc.reads ++ (tc.readBuf ++ tc.readCh.buf.flatten) ++ hand tc.pump ++ rest := by
          rw [List.take_append_drop, hflat]
      _ = total := by rw [← htotal]; simp only [List.append_assoc]
  sound := hI.sound
  sending := hI.sending
  queued := hqueued
  ended := by
    dsimp only
    rw [hclosed]
    exact hI.ended
  returned := by
    intro hmem
    rcases List.mem_append.mp hmem with hmem | hmem
    · exact hI.returned hmem
    · have htake : [] = src.take m := by simpa using hmem
      have hlen := congrArg List.length htake
      have hpos := List.length_pos_of_ne_nil hsrc
      rw [List.length_take, List.length_nil] at hlen
      omega
  drained := by
    intro hmem
    rcases List.mem_append.mp hmem with hmem | hmem
    · exact absurd hmem hnoeof
    · simp at hmem

/-- Every step without `Close` keeps the account. -/
theorem Intact.preserved (hI : Intact e connID total tc) (hquiet : a.quiet = true)
    (hs : Step e.decrypt tc a tc') : Intact e connID total tc' := by
  have hopen : ∀ p, tc.pump = p → p ≠ .done → tc.readCh.closed = false := by
    intro p hpc hp
    refine eq_false_of_ne_true fun hclosed => hp ?_
    rw [← hpc]
    exact hI.ended.mp hclosed
  have hnoeof : ∀ p, tc.pump = p → p ≠ .done → .eof ∉ tc.reads := by
    intro p hpc hp heof
    rw [← hpc] at hp
    exact hp (hI.drained heof).1
  cases hs with
  | stopped _ hclosed =>
    rw [hI.opened] at hclosed
    cases hclosed
  | quit _ hclosed =>
    rw [hI.opened] at hclosed
    cases hclosed
  | left _ hclosed =>
    rw [hI.opened] at hclosed
    cases hclosed
  | closed _ => cases hquiet
  | closedReader _ => cases hquiet
  | fetched hpc hread => exact hI.fetched hpc hread
  -- `pumpRead` goes round: it holds nothing
  | checked hpc _ =>
    obtain ⟨rest, hcarries, htotal, -⟩ := hI.account
    rw [hpc] at htotal
    exact
      { opened := hI.opened
        idle := hI.idle
        account := ⟨rest, hcarries, htotal, nofun⟩
        sound := nofun
        sending := nofun
        queued := hI.queued
        ended := ⟨fun h => absurd h (by rw [hopen _ hpc nofun]; nofun), nofun⟩
        returned := hI.returned
        drained := fun h => absurd h (hnoeof _ hpc nofun) }
  -- the chunk goes from its hand to the end of the queue
  | @sent dup err ch hpc hsend =>
    obtain ⟨-, -, hbuf, hclosed⟩ := Chan.send_eq_some.mp hsend
    obtain ⟨hdup, rfl⟩ := hI.sending dup err hpc
    obtain ⟨rest, hcarries, htotal, -⟩ := hI.account
    exact
      { opened := hI.opened
        idle := hI.idle
        account := ⟨rest, hcarries, by
          rw [hpc] at htotal
          simpa [hbuf] using htotal, nofun⟩
        sound := nofun
        sending := nofun
        queued := by
          intro hmem
          rw [hbuf, List.mem_append, List.mem_singleton] at hmem
          exact hmem.elim hI.queued fun hnil => hdup hnil.symm
        ended := ⟨fun h => absurd h (by
          dsimp only
          rw [hclosed, hopen _ hpc nofun]
          nofun), nofun⟩
        returned := hI.returned
        drained := fun h => absurd h (hnoeof _ hpc nofun) }
  -- the body is used up, so what is queued is all that will come
  | finished hpc _ =>
    obtain ⟨rest, hcarries, htotal, hend⟩ := hI.account
    rw [hpc] at htotal
    exact
      { opened := hI.opened
        idle := hI.idle
        account := ⟨rest, hcarries, htotal, fun _ => hend (Or.inl hpc)⟩
        sound := nofun
        sending := nofun
        queued := hI.queued
        ended := ⟨fun _ => rfl, fun _ => rfl⟩
        returned := hI.returned
        drained := fun h => absurd h (hnoeof _ hpc nofun) }
  -- a call of `Read`: from what is kept, from the queue, or the end of file
  | readBuffered hbuf =>
    have hnone : .eof ∉ tc.reads := fun heof => hbuf (hI.drained heof).2.2
    exact hI.handedOut (of_decide_eq_true hquiet) hbuf hnone rfl hI.queued rfl
  | @readChunk m data ch hbuf hch hclosed =>
    have hqueued := hI.queued
    rw [hch, List.mem_cons, not_or] at hqueued
    have hnone : .eof ∉ tc.reads := by
      intro heof
      have hempty := (hI.drained heof).2.1
      rw [hch] at hempty
      cases hempty
    refine hI.handedOut (of_decide_eq_true hquiet) (Ne.symm hqueued.1) hnone ?_ hqueued.2 hclosed
    rw [hbuf, hch, List.flatten_cons, List.nil_append]
  | readEnd hbuf hempty hclosed =>
    have hdone := hI.ended.mp hclosed
    exact
      { opened := hI.opened
        idle := hI.idle
        account := by simpa using hI.account
        sound := hI.sound
        sending := hI.sending
        queued := hI.queued
        ended := hI.ended
        returned := by simpa using hI.returned
        drained := fun _ => ⟨hdone, hempty, hbuf⟩ }

/-! ## A call of `Read` does not wait for ever -/

/-- `pumpRead` alone can make a call of `Read` return. -/
def Answers (decrypt : Bytes → Except CryptoError Bytes) (tc : TunnelConn) (m : Nat) : Prop :=
  ∃ (moves : List PumpMove) (u v : TunnelConn),
    exec (step decrypt) tc (moves.map .pump) = some u ∧ step decrypt u (.read m) = some v

theorem Answers.before {m : Nat} (mv : PumpMove) (hs : step decrypt tc (.pump mv) = some tc')
    (h : Answers decrypt tc' m) : Answers decrypt tc m := by
  obtain ⟨moves, u, v, hu, hv⟩ := h
  exact ⟨mv :: moves, u, v, exec_cons_some.mpr ⟨tc', hs, hu⟩, hv⟩

/-- With data kept or queued, or with the channel closed, `Read` does not wait. -/
theorem readStep_isSome {m : Nat}
    (h : tc.readBuf ≠ [] ∨ tc.readCh.buf ≠ [] ∨ tc.readCh.closed = true) :
    (readStep tc m).isSome = true := by
  unfold readStep
  -- `Read` waits only on an empty open channel
  split
  · rfl
  · rename_i hbuf
    split
    · rename_i hrecv
      obtain ⟨hempty, hopen⟩ := Chan.recv_eq_none.mp hrecv
      rcases h with h | h | h
      · exact absurd h hbuf
      · exact absurd hempty h
      · rw [hopen] at h
        cases h
    · rfl
    · rfl

theorem answers_now {m : Nat}
    (h : tc.readBuf ≠ [] ∨ tc.readCh.buf ≠ [] ∨ tc.readCh.closed = true) :
    Answers decrypt tc m := by
  obtain ⟨v, hv⟩ := Option.isSome_iff_exists.mp (readStep_isSome (m := m) h)
  exact ⟨[], tc, v, rfl, hv⟩

/-- In every state of a run without `Close`, a call of `Read` returns after some steps of
`pumpRead`. -/
theorem Intact.answers (hI : Intact e connID total tc) (m : Nat) : Answers e.decrypt tc m := by
  by_cases hnow : tc.readBuf ≠ [] ∨ tc.readCh.buf ≠ [] ∨ tc.readCh.closed = true
  · exact answers_now hnow
  simp only [not_or, not_not] at hnow
  obtain ⟨hbuf, hempty, hopen⟩ := hnow
  -- the cases follow `pumpRead` from its end backwards
  have hfailing : ∀ t : TunnelConn, Intact e connID total t → t.pump = .failing →
      Answers e.decrypt t m := by
    intro t ht hpc
    have hs : step e.decrypt t (.pump .finish) =
        some { t with readCh := t.readCh.close, pump := .done } := by
      simp [step, pumpStep, hpc, ht.opened]
    exact .before .finish hs (answers_now (Or.inr (Or.inr rfl)))
  have hsending : ∀ (t : TunnelConn) (dup : Bytes) (err : Option StreamError),
      Intact e connID total t → t.readCh.buf = [] → t.pump = .sending dup err →
      Answers e.decrypt t m := by
    intro t dup err ht hbuf hpc
    have hclosed : t.readCh.closed = false :=
      eq_false_of_ne_true fun h => by
        have hdone := ht.ended.mp h
        rw [hpc] at hdone
        cases hdone
    obtain ⟨ch, hch, hch'⟩ := Chan.exists_send (c := t.readCh) (by rw [hbuf]; decide) dup
    have hsend : t.readCh.send dup = some ch :=
      Chan.send_eq_some.mpr ⟨hclosed, by rw [hbuf]; decide, hch, hch'⟩
    have hs : step e.decrypt t (.pump .send) =
        some { t with readCh := ch, pump := afterRead err } := by
      simp [step, pumpStep, hpc, hsend]
    exact .before .send hs (answers_now (Or.inr (Or.inl (by simp [hch]))))
  have hreading : ∀ t : TunnelConn, Intact e connID total t → t.readCh.buf = [] →
      t.pump = .reading → Answers e.decrypt t m := by
    intro t ht hbuf hpc
    obtain ⟨rest, hcarries, -, -⟩ := ht.account
    rcases read_carries hcarries (show 0 < pumpBufSize by decide) with
      ⟨got, -, sr, hne, -, hread, -⟩ | ⟨-, sr, hread, -⟩
    · have hnext := ht.fetched hpc hread
      exact .before .fetch (by simp only [step, pumpStep, hpc, hread])
        (hsending _ got none hnext hbuf (afterFetch_data hne))
    · exact .before .fetch (by simp only [step, pumpStep, hpc, hread])
        (hfailing _ (ht.fetched hpc hread) rfl)
  cases hpc : tc.pump with
  | top =>
    have hs : step e.decrypt tc (.pump .check) = some { tc with pump := .reading } := by
      simp [step, pumpStep, hpc, hI.opened]
    exact .before .check hs (hreading _ (hI.preserved rfl (step_cases hs)) hempty rfl)
  | reading => exact hreading tc hI hempty hpc
  | sending dup err => exact hsending tc dup err hI hempty hpc
  | failing => exact hfailing tc hI hpc
  | done => exact absurd (hI.ended.mpr hpc) hopen
  | crashed => exact absurd hpc hI.sound

/-! ## Every run -/

/-- The calls of `Read` on a connection return `chunks` as one byte stream. -/
structure Faithful (decrypt : Bytes → Except CryptoError Bytes) (chunks : List Bytes)
    (tc : TunnelConn) : Prop where
  /-- What was returned so far is how the chunks begin. -/
  inOrder : beforeEOF tc.reads <+: chunks.flatten
  /-- Before an end of file all of it was returned. -/
  complete : .eof ∈ tc.reads → beforeEOF tc.reads = chunks.flatten
  /-- After more calls than there are bytes, one has returned the end of file. -/
  ends : chunks.flatten.length < tc.reads.length → .eof ∈ tc.reads
  /-- A call of any size returns. -/
  answers : ∀ m, Answers decrypt tc m

theorem intact_run {sent : List (Nonce × Bytes)} {body : Reader} {acts : List Act}
    (hsize : ChunkSizes sent) (hbytes : body.bytes = downloadBody e connID sent)
    (hfinal : body.final = .eof) (hquiet : ∀ a ∈ acts, a.quiet = true)
    (hrun : exec (step e.decrypt) (.new body) acts = some tc) :
    Intact e connID (sent.map Prod.snd).flatten tc :=
  exec_invariant (fun _ _ _ hi ha hs => Intact.preserved hi ha (step_cases hs)) acts _ tc
    (intact_new hsize hbytes hfinal) (meets_of_forall hquiet _) hrun

theorem Intact.faithful {chunks : List Bytes} (hI : Intact e connID chunks.flatten tc) :
    Faithful e.decrypt chunks tc := by
  obtain ⟨rest, -, htotal, hend⟩ := hI.account
  have hbegin : beforeEOF tc.reads <+: chunks.flatten := by
    refine ⟨tc.readBuf ++ tc.readCh.buf.flatten ++ hand tc.pump ++ rest, ?_⟩
    rw [← htotal]
    simp only [List.append_assoc]
  refine ⟨hbegin, ?_, ?_, hI.answers⟩
  · intro heof
    obtain ⟨hdone, hempty, hbuf⟩ := hI.drained heof
    simpa [hdone, hempty, hbuf, hand, hend (Or.inr hdone)] using htotal
  · -- without an end of file, every call has returned a byte
    intro hmany
    by_contra hnone
    have hlen := length_le_beforeEOF hI.returned hnone
    have hle := hbegin.length_le
    omega

/-- For every list of chunks, every delivery of the body that `handleDownload` writes for them and
every run of `pumpRead` and `Read`, the calls of `Read` return the chunks as one byte stream. -/
theorem tunnelConn_reads_chunks (e : Encryptor) (connID : UInt32) (sent : List (Nonce × Bytes))
    (hsize : ChunkSizes sent) (body : Reader) (hbytes : body.bytes = downloadBody e connID sent)
    (hfinal : body.final = .eof) (acts : List Act) (tc : TunnelConn)
    (hquiet : ∀ a ∈ acts, a.quiet = true)
    (hrun : exec (step e.decrypt) (.new body) acts = some tc) :
    Faithful e.decrypt (sent.map Prod.snd) tc := by
  have hI : Intact e connID (sent.map Prod.snd).flatten tc :=
    intact_run hsize hbytes hfinal hquiet hrun
  exact hI.faithful

/-- The body of two chunks, cut inside its first length prefix. -/
def twoChunks : Reader :=
  let body := downloadBody .plain 1 [(.zero, [5, 6]), (.zero, [7])]
  [⟨body.take 3, none⟩, ⟨body.drop 3, some .eof⟩]

/-- `pumpRead` queues what one read returns. -/
def pumpChunk : List Act := [.pump .check, .pump .fetch, .pump .send]

/-- Two chunks, read byte by byte until the end of file. -/
theorem tunnelConn_reads_two_chunks :
    ∃ tc, exec (step Encryptor.plain.decrypt) (.new twoChunks)
        (pumpChunk ++ [.read 1, .read 1] ++ pumpChunk ++
          [.pump .check, .pump .fetch, .pump .finish, .read 1, .read 1]) = some tc ∧
      tc.reads = [.data [5], .data [6], .data [7], .eof] ∧
      Faithful Encryptor.plain.decrypt [[5, 6], [7]] tc := by
  apply exec_reaches (P := fun tc : TunnelConn => tc.reads = [.data [5], .data [6], .data [7], .eof])
  · decide +kernel
  · intro tc htc hreads
    refine ⟨hreads, ?_⟩
    exact tunnelConn_reads_chunks .plain 1 [(.zero, [5, 6]), (.zero, [7])]
      (by decide) twoChunks (by decide +kernel) rfl _ tc (by decide) htc

end TunnelConn

end PTBridge.Dpi
