import PTBridge.Dpi.Common
import PTBridge.Stream.Reader

/-!
# The download stream: frames and `streamReader`

`handleDownload` writes each chunk as a frame: the length of the sealed message in four bytes, then
the message, whose plaintext is the ten-byte header and the chunk. `streamReader.Read` takes the
response body apart again, however the body is delivered.

- `downloadFrame` and `downloadBody` are what the server writes.
- `framePayload` and `nextFrame` are one round of the loop in `streamReader.Read`; `read` is the
  whole call. What `Decrypt` returns is a parameter.
- `Carries` says what a reader still has to hand out, and `read_carries` that a call hands out the
  next piece of it, or reports the end of file when nothing is left.
-/

namespace PTBridge.Dpi

open PTBridge.Stream

/-! ## What the server writes -/

/-- The frame `handleDownload` writes for one chunk. -/
def downloadFrame (e : Encryptor) (connID : UInt32) (nonce : Nonce) (data : Bytes) : Bytes :=
  let payload := streamHeader msgData connID (UInt32.ofNat data.length) ++ data
  let encrypted := e.sealed nonce payload
  putUint32 (UInt32.ofNat encrypted.length) ++ encrypted

/-- The body of a download that took these chunks from `dataCh`, each sealed with its nonce, until
the channel was closed. -/
def downloadBody (e : Encryptor) (connID : UInt32) : List (Nonce × Bytes) → Bytes
  | [] => []
  | (nonce, data) :: sent => downloadFrame e connID nonce data ++ downloadBody e connID sent

/-- The chunks a reader goroutine puts on `dataCh`: not empty, and within its 32 KiB buffer. -/
def ChunkSizes (sent : List (Nonce × Bytes)) : Prop :=
  ∀ f ∈ sent, 1 ≤ f.2.length ∧ f.2.length ≤ 32 * 1024

instance (sent : List (Nonce × Bytes)) : Decidable (ChunkSizes sent) :=
  inferInstanceAs (Decidable (∀ f ∈ sent, 1 ≤ f.2.length ∧ f.2.length ≤ 32 * 1024))

/-! ## `streamReader` -/

/-- The errors of `streamReader.Read`; `panic` is a slice out of range. -/
inductive StreamError where
  | read (err : ReadError)
  | closedPipe
  | decrypt (err : CryptoError)
  | panic
  deriving DecidableEq, Repr

/-- `streamReader`. The buffer for a sealed message is scratch space: `Open` copies out of it. -/
structure StreamReader where
  body : Reader
  decrypted : Bytes
  off : Nat
  deriving DecidableEq, Repr

/-- The largest message `streamReader.Read` accepts. -/
def maxEncLen : Nat := 256 * 1024

/-- What `streamReader.Read` keeps of a decrypted message. The sum `10 + payloadLen` is a `uint32`
and wraps; `none` is the panic of the slice. -/
def framePayload (dec : Bytes) : Option Bytes :=
  if 10 < dec.length then
    match slice dec 6 10 with
    | none => none
    | some lenBytes =>
        let payloadLen := uint32 lenBytes
        if (10 + payloadLen).toNat ≤ dec.length then slice dec 10 (10 + payloadLen).toNat
        -- a message shorter than it announces is skipped
        else some []
  else some []

/-- One round of the loop: read a frame off the body. -/
def nextFrame (decrypt : Bytes → Except CryptoError Bytes) (body : Reader) :
    Except StreamError Bytes × Reader :=
  match readFull 4 body with
  | (_, some err, body) => (.error (.read err), body)
  | (lenBuf, none, body) =>
      -- the length comes from the other side, so it is bounded before the read
      let encLen := (uint32 lenBuf).toNat
      if maxEncLen < encLen then (.error .closedPipe, body)
      else
        match readFull encLen body with
        | (_, some err, body) => (.error (.read err), body)
        | (buf, none, body) =>
            match decrypt buf with
            | .error err => (.error (.decrypt err), body)
            | .ok dec =>
                match framePayload dec with
                | none => (.error .panic, body)
                | some payload => (.ok payload, body)

/-- Each frame takes bytes off the body. -/
theorem nextFrame_lt {decrypt : Bytes → Except CryptoError Bytes} {body body' : Reader}
    {payload : Bytes} (h : nextFrame decrypt body = (.ok payload, body')) :
    body'.bytes.length < body.bytes.length := by
  unfold nextFrame at h
  -- a payload comes out of one branch only, behind the four bytes of the length
  split at h
  · cases h
  · rename_i lenBuf body₁ hlen
    obtain ⟨h4, -, hrest, -⟩ := readFull_ok hlen
    have hshort : body₁.bytes.length < body.bytes.length := by
      rw [hrest, List.length_drop]
      omega
    dsimp only at h
    split at h
    · cases h
    · split at h
      · cases h
      · rename_i buf body₂ henc
        obtain ⟨-, -, hrest₂, -⟩ := readFull_ok henc
        split at h
        · cases h
        · split at h
          · cases h
          · cases h
            rw [hrest₂, List.length_drop]
            omega

namespace StreamReader

/-- `DownloadStream` returns a reader that has decrypted nothing yet. -/
def new (body : Reader) : StreamReader := ⟨body, [], 0⟩

/-- `sr.Read(p)` with `len(p) = m`: the bytes, the error, and the reader afterwards. -/
def read (decrypt : Bytes → Except CryptoError Bytes) (m : Nat) (sr : StreamReader) :
    Bytes × Option StreamError × StreamReader :=
  if sr.off < sr.decrypted.length then
    let got := (sr.decrypted.drop sr.off).take m
    (got, none, { sr with off := sr.off + got.length })
  else
    -- a frame without payload makes the loop go round again
    match _h : nextFrame decrypt sr.body with
    | (.error err, body) => ([], some err, ⟨body, [], 0⟩)
    | (.ok payload, body) => read decrypt m ⟨body, payload, 0⟩
termination_by sr.body.bytes.length
decreasing_by exact nextFrame_lt ‹_›

variable {decrypt : Bytes → Except CryptoError Bytes} {m : Nat} {sr : StreamReader}

/-- A call with decrypted bytes left hands out some of them. -/
theorem read_left (h : sr.off < sr.decrypted.length) :
    sr.read decrypt m = ((sr.decrypted.drop sr.off).take m, none,
      { sr with off := sr.off + ((sr.decrypted.drop sr.off).take m).length }) := by
  rw [read, if_pos h]

/-- A call with nothing left ends with the error of the next frame. -/
theorem read_failed (h : sr.decrypted.length ≤ sr.off) {err : StreamError} {body : Reader}
    (hnext : nextFrame decrypt sr.body = (.error err, body)) :
    sr.read decrypt m = ([], some err, ⟨body, [], 0⟩) := by
  rw [read, if_neg (Nat.not_lt.mpr h)]
  split
  · rename_i err' body' hnext'
    rw [hnext] at hnext'
    cases hnext'
    rfl
  · rename_i payload body' hnext'
    rw [hnext] at hnext'
    cases hnext'

/-- A call with nothing left goes on with the next frame. -/
theorem read_next (h : sr.decrypted.length ≤ sr.off) {payload : Bytes} {body : Reader}
    (hnext : nextFrame decrypt sr.body = (.ok payload, body)) :
    sr.read decrypt m = read decrypt m ⟨body, payload, 0⟩ := by
  rw [read, if_neg (Nat.not_lt.mpr h)]
  split
  · rename_i err' body' hnext'
    rw [hnext] at hnext'
    cases hnext'
  · rename_i payload' body' hnext'
    rw [hnext] at hnext'
    cases hnext'
    rfl

end StreamReader

/-! ## Reading what the server wrote -/

section Carries

variable {e : Encryptor} {connID : UInt32} {nonce : Nonce} {data : Bytes}

/-- The reader gets the chunk back out of the plaintext of its frame. -/
theorem framePayload_header (hpos : 1 ≤ data.length) (hmax : data.length ≤ 32 * 1024) :
    framePayload (streamHeader msgData connID (UInt32.ofNat data.length) ++ data) = some data := by
  have hlen : (streamHeader msgData connID (UInt32.ofNat data.length) ++ data).length =
      10 + data.length := by
    rw [List.length_append, streamHeader_length]
    rfl
  have hslice : slice (streamHeader msgData connID (UInt32.ofNat data.length) ++ data) 6 10 =
      some (putUint32 (UInt32.ofNat data.length)) := by
    rw [slice, if_pos ⟨by decide, by omega⟩]
    rfl
  -- a chunk is far too short for the sum to wrap
  have hsum : (10 + UInt32.ofNat data.length).toNat = 10 + data.length := by
    rw [UInt32.toNat_add, UInt32.toNat_ofNat']
    change (10 + data.length % 2 ^ 32) % 2 ^ 32 = _
    omega
  have hrest : slice (streamHeader msgData connID (UInt32.ofNat data.length) ++ data) 10
      (10 + data.length) = some data := by
    rw [slice, if_pos ⟨by omega, by omega⟩, List.take_of_length_le (by omega)]
    rfl
  rw [framePayload, if_pos (by omega), hslice]
  simp only [uint32_putUint32, hsum, hlen, Nat.le_refl, ↓reduceIte, hrest]

/-- The next frame of a body that begins with one, for any delivery of the body. -/
theorem nextFrame_frame {body : Reader} {rest : Bytes}
    (hbytes : body.bytes = downloadFrame e connID nonce data ++ rest)
    (hpos : 1 ≤ data.length) (hmax : data.length ≤ 32 * 1024) :
    ∃ body', nextFrame e.decrypt body = (.ok data, body') ∧ body'.bytes = rest ∧
      body'.final = body.final := by
  have hsealed : (e.sealed nonce
      (streamHeader msgData connID (UInt32.ofNat data.length) ++ data)).length =
        data.length + 38 := by
    rw [Encryptor.sealed_length, List.length_append, streamHeader_length]
    simp only [streamHeaderSize, nonceSize, tagSize]
    omega
  have hpay := @framePayload_header connID data hpos hmax
  generalize hplain : streamHeader msgData connID (UInt32.ofNat data.length) ++ data = plain
    at hsealed hpay
  have hframe : downloadFrame e connID nonce data =
      putUint32 (UInt32.ofNat (data.length + 38)) ++ e.sealed nonce plain := by
    rw [downloadFrame, hplain, hsealed]
  rw [hframe, List.append_assoc] at hbytes
  -- the length prefix
  have hfour : 4 ≤ body.bytes.length := by
    rw [hbytes, List.length_append, putUint32_length]
    omega
  obtain ⟨body₁, hread₁, hbytes₁, hfinal₁⟩ := readFull_enough hfour
  rw [hbytes, List.take_left' (putUint32_length _)] at hread₁
  rw [hbytes, List.drop_left' (putUint32_length _)] at hbytes₁
  have hencLen : (UInt32.ofNat (data.length + 38)).toNat = data.length + 38 := by
    rw [UInt32.toNat_ofNat']
    omega
  -- the sealed message
  have henough : data.length + 38 ≤ body₁.bytes.length := by
    rw [hbytes₁, List.length_append, hsealed]
    omega
  obtain ⟨body₂, hread₂, hbytes₂, hfinal₂⟩ := readFull_enough henough
  rw [hbytes₁, List.take_left' hsealed] at hread₂
  rw [hbytes₁, List.drop_left' hsealed] at hbytes₂
  refine ⟨body₂, ?_, hbytes₂, hfinal₂.trans hfinal₁⟩
  have hmaxLen : ¬ maxEncLen < data.length + 38 := by
    rw [maxEncLen]
    omega
  simp only [nextFrame, hread₁, uint32_putUint32, hencLen, hmaxLen, ↓reduceIte, hread₂,
    Encryptor.decrypt_sealed, hpay]

/-- At the end of the body there is no frame, and the error is the body's own. -/
theorem nextFrame_end {decrypt : Bytes → Except CryptoError Bytes} {body : Reader}
    (hbytes : body.bytes = []) :
    ∃ body', nextFrame decrypt body = (.error (.read body.final), body') ∧ body'.bytes = [] ∧
      body'.final = body.final := by
  obtain ⟨body', hread, hbytes', hfinal⟩ := @readFull_short body 4 (by rw [hbytes]; decide)
  refine ⟨body', ?_, hbytes', hfinal⟩
  simp [nextFrame, hread, hbytes]

/-- The reader still has exactly `rest` to hand out, and then the end of file. -/
def Carries (e : Encryptor) (connID : UInt32) (sr : StreamReader) (rest : Bytes) : Prop :=
  ∃ sent, ChunkSizes sent ∧ sr.body.bytes = downloadBody e connID sent ∧ sr.body.final = .eof ∧
    rest = sr.decrypted.drop sr.off ++ (sent.map Prod.snd).flatten

/-- A fresh reader carries the chunks of the body. -/
theorem carries_new {body : Reader} {sent : List (Nonce × Bytes)} (hsize : ChunkSizes sent)
    (hbytes : body.bytes = downloadBody e connID sent) (hfinal : body.final = .eof) :
    Carries e connID (.new body) (sent.map Prod.snd).flatten :=
  ⟨sent, hsize, hbytes, hfinal, rfl⟩

variable {sr : StreamReader} {rest : Bytes} {m : Nat}

/-- A call with decrypted bytes left hands out a piece that is not empty. -/
theorem read_carries_left (h : Carries e connID sr rest) (hm : 0 < m)
    (hleft : sr.off < sr.decrypted.length) :
    ∃ got rest' sr', got ≠ [] ∧ rest = got ++ rest' ∧ sr.read e.decrypt m = (got, none, sr') ∧
      Carries e connID sr' rest' := by
  obtain ⟨sent, hsize, hbytes, hfinal, hrest⟩ := h
  -- the piece is the first `m` bytes of what is left, or all of it
  refine ⟨_, (sr.decrypted.drop sr.off).drop m ++ (sent.map Prod.snd).flatten, _, ?_, ?_,
    StreamReader.read_left hleft, sent, hsize, hbytes, hfinal, ?_⟩
  · intro hnil
    have hlen := congrArg List.length hnil
    rw [List.length_take, List.length_drop, List.length_nil] at hlen
    omega
  · rw [hrest, ← List.append_assoc, List.take_append_drop]
  · rw [← List.drop_drop, List.length_take]
    congr 1
    by_cases hfit : m ≤ (sr.decrypted.drop sr.off).length
    · rw [Nat.min_eq_left hfit]
    · have hle : (sr.decrypted.drop sr.off).length ≤ m := Nat.le_of_not_le hfit
      rw [Nat.min_eq_right hle, List.drop_length, List.drop_eq_nil_of_le hle]

/-- A call hands out the next piece of what is left, or the end of file when nothing is. -/
theorem read_carries (h : Carries e connID sr rest) (hm : 0 < m) :
    (∃ got rest' sr', got ≠ [] ∧ rest = got ++ rest' ∧ sr.read e.decrypt m = (got, none, sr') ∧
        Carries e connID sr' rest') ∨
      (rest = [] ∧ ∃ sr', sr.read e.decrypt m = ([], some (.read .eof), sr') ∧
        Carries e connID sr' []) := by
  by_cases hleft : sr.off < sr.decrypted.length
  · exact Or.inl (read_carries_left h hm hleft)
  · have hdone : sr.decrypted.length ≤ sr.off := Nat.le_of_not_lt hleft
    obtain ⟨sent, hsize, hbytes, hfinal, hrest⟩ := h
    rw [List.drop_eq_nil_of_le hdone, List.nil_append] at hrest
    -- the body has ended, or it goes on with a frame
    cases sent with
    | nil =>
      obtain ⟨body', hnext, hbytes', hfinal'⟩ := @nextFrame_end e.decrypt _ hbytes
      rw [hfinal] at hnext
      exact Or.inr ⟨hrest, _, StreamReader.read_failed hdone hnext, [], hsize, hbytes',
        hfinal'.trans hfinal, rfl⟩
    | cons f sent =>
      obtain ⟨nonce, data⟩ := f
      obtain ⟨hpos, hmax⟩ := hsize (nonce, data) List.mem_cons_self
      obtain ⟨body', hnext, hbytes', hfinal'⟩ := nextFrame_frame hbytes hpos hmax
      -- the chunk is not empty, so the next round hands out its first bytes
      have hnew : Carries e connID ⟨body', data, 0⟩ rest :=
        ⟨sent, fun g hg => hsize g (List.mem_cons_of_mem _ hg), hbytes', hfinal'.trans hfinal, hrest⟩
      rw [StreamReader.read_next hdone hnext]
      exact Or.inl (read_carries_left hnew hm hpos)

end Carries

end PTBridge.Dpi
