import PTBridge.Snowflake.Encapsulation

/-!
# Whole streams of chunks

`WriteData` and `WritePadding` on any writer, and what `ReadData` makes of a sequence of their
outputs. Padding is cut into chunks of at most 1024 bytes, prefix included, and each chunk picks the
prefix that fits what is left after it.

- `encodePadding` are the bytes of `WritePadding`; `encodePadding_length` says that there are
  exactly `n` of them.
- `readData_padding`: padding in front changes nothing for `ReadData`.
- `readAll` calls `ReadData` until it fails, and `readAll_ops` says what it returns for the output
  of a sequence of writing operations.
-/

namespace PTBridge.Snowflake

open PTBridge.Stream

/-! ## The writing side -/

inductive EncodeError where
  | write
  /-- `ErrTooLong` -/
  | tooLong
  deriving DecidableEq, Repr

/-- `WriteData`: the number of bytes written, the error, and the writer afterwards. -/
def writeDataTo (data : Bytes) (k : Sink) : Nat × Option EncodeError × Sink :=
  match dataPrefixForLength data.length with
  | none => (0, some .tooLong, k)
  | some pre =>
      match k.write pre with
      | (n, false, k') => (n, some .write, k')
      | (n, true, k') =>
          match k'.write data with
          | (n', ok, k'') => (n + n', if ok then none else some .write, k'')

def paddingBuffer : Bytes := List.replicate 1024 0

/-- The prefix of a padding chunk of `p` bytes in all, and the number of bytes behind it. -/
def paddingPrefix (p : Nat) : Bytes × Nat :=
  if ((p - 1) >>> 0) &&& 0x3f = (p - 1) >>> 0 then
    ([UInt8.ofNat (((p - 1) >>> 0) &&& 0x3f)], p - 1)
  else if ((p - 2) >>> 7) &&& 0x3f = (p - 2) >>> 7 then
    ([(0x40 : UInt8) ||| UInt8.ofNat (((p - 2) >>> 7) &&& 0x3f),
      UInt8.ofNat (((p - 2) >>> 0) &&& 0x7f)], p - 2)
  else if ((p - 3) >>> 14) &&& 0x3f = (p - 3) >>> 14 then
    ([(0x40 : UInt8) ||| UInt8.ofNat (((p - 3) >>> 14) &&& 0x3f),
      (0x80 : UInt8) ||| UInt8.ofNat (((p - 3) >>> 7) &&& 0x3f),
      UInt8.ofNat (((p - 3) >>> 0) &&& 0x7f)], p - 3)
  else ([], p)

/-- The size of the next chunk, with `n` bytes still to write. -/
def chunkSize (n : Nat) : Nat := if n < paddingBuffer.length then n else paddingBuffer.length

theorem chunkSize_spec {n : Nat} (h : 0 < n) :
    0 < chunkSize n ∧ chunkSize n ≤ n ∧ chunkSize n ≤ 1024 := by
  unfold chunkSize paddingBuffer
  rw [List.length_replicate]
  split <;> omega

/-- The loop of `WritePadding`. -/
def writePaddingLoop (total n : Nat) (k : Sink) : Nat × Option EncodeError × Sink :=
  if _h : 0 < n then
    let c := paddingPrefix (chunkSize n)
    match k.write c.1 with
    | (nn, false, k') => (total + nn, some .write, k')
    | (nn, true, k') =>
        match k'.write (paddingBuffer.take c.2) with
        | (nn', false, k'') => (total + nn + nn', some .write, k'')
        | (nn', true, k'') => writePaddingLoop (total + nn + nn') (n - chunkSize n) k''
  else (total, none, k)
termination_by n
decreasing_by
  have hsize := chunkSize_spec _h
  omega

/-- `WritePadding`; `none` is the panic on a negative length. -/
def writePadding (n : Int) (k : Sink) : Option (Nat × Option EncodeError × Sink) :=
  if n < 0 then none else some (writePaddingLoop 0 n.toNat k)

/-! ## What is written -/

/-- The bytes of one padding chunk. -/
def paddingChunk (p : Nat) : Bytes :=
  (paddingPrefix p).1 ++ paddingBuffer.take (paddingPrefix p).2

/-- The bytes of `WritePadding`. -/
def encodePadding (n : Nat) : Bytes :=
  if _h : 0 < n then paddingChunk (chunkSize n) ++ encodePadding (n - chunkSize n) else []
termination_by n
decreasing_by
  have hsize := chunkSize_spec _h
  omega

/-- The two prefixes that occur; a chunk of 1024 bytes never needs the third. -/
inductive PaddingForm (p : Nat) : Bytes × Nat → Prop where
  | one {n : Nat} (hp : p = n + 1) (h : n < 64) : PaddingForm p ([UInt8.ofNat n], n)
  | two {n : Nat} (hp : p = n + 2) (h : n / 128 < 64) :
      PaddingForm p ([(0x40 : UInt8) ||| UInt8.ofNat (n / 128), UInt8.ofNat (n % 128)], n)

theorem paddingPrefix_form {p : Nat} (hpos : 0 < p) (hle : p ≤ 1024) :
    PaddingForm p (paddingPrefix p) := by
  simp only [paddingPrefix, Nat.shiftRight_eq_div_pow, and_3f, and_7f, Nat.reducePow, Nat.div_one]
  split
  · rename_i hmod
    rw [hmod]
    exact .one (by omega) (by omega)
  · rename_i hlong
    have hmod : (p - 2) / 128 % 64 = (p - 2) / 128 := by omega
    rw [if_pos hmod, hmod]
    exact .two (by omega) (by omega)

theorem paddingChunk_length {p : Nat} (hpos : 0 < p) (hle : p ≤ 1024) :
    (paddingChunk p).length = p := by
  have hform := paddingPrefix_form hpos hle
  unfold paddingChunk
  generalize paddingPrefix p = c at hform
  cases hform with
  | one hp h =>
    simp only [paddingBuffer, List.length_append, List.length_take, List.length_replicate,
      List.length_cons, List.length_nil]
    omega
  | two hp h =>
    simp only [paddingBuffer, List.length_append, List.length_take, List.length_replicate,
      List.length_cons, List.length_nil]
    omega

theorem encodePadding_length (n : Nat) : (encodePadding n).length = n := by
  fun_induction encodePadding n with
  | case1 n hpos ih =>
    obtain ⟨hsize, hle, hmax⟩ := chunkSize_spec hpos
    rw [List.length_append, ih, paddingChunk_length hsize hmax]
    omega
  | case2 n hzero => simp only [List.length_nil]; omega

theorem write_room {k : Sink} (h : k.room = none) (b : Bytes) :
    k.write b = (b.length, true, { k with writes := k.writes ++ [b] }) := by
  simp [Sink.write, h]

/-- `WritePadding` into a writer that takes everything. -/
theorem writePaddingLoop_spec (total n : Nat) (k : Sink) (hk : k.room = none) :
    ∃ k', writePaddingLoop total n k = (total + n, none, k') ∧
      k'.bytes = k.bytes ++ encodePadding n ∧ k'.room = none := by
  induction n using Nat.strongRecOn generalizing total k with
  | ind n ih =>
    rw [writePaddingLoop, encodePadding]
    by_cases hpos : 0 < n
    · obtain ⟨hsize, hle, hmax⟩ := chunkSize_spec hpos
      have hlen := paddingChunk_length hsize hmax
      have hroom : ∀ b, ({ k with writes := k.writes ++ [b] } : Sink).room = none := fun _ => hk
      obtain ⟨k', hloop, hbytes, hk'⟩ := ih (n - chunkSize n) (by omega)
        (total + (paddingPrefix (chunkSize n)).1.length +
          (paddingBuffer.take (paddingPrefix (chunkSize n)).2).length)
        { k with writes := k.writes ++ [(paddingPrefix (chunkSize n)).1] ++
          [paddingBuffer.take (paddingPrefix (chunkSize n)).2] } hk
      refine ⟨k', ?_, ?_, hk'⟩
      · rw [paddingChunk, List.length_append] at hlen
        simp only [dif_pos hpos, write_room hk, write_room (hroom _)]
        rw [hloop, Nat.add_assoc total, hlen, Nat.add_assoc, Nat.add_sub_cancel' hle]
      · rw [hbytes, dif_pos hpos]
        simp [Sink.bytes, paddingChunk]
    · have hzero : n = 0 := Nat.eq_zero_of_not_pos hpos
      refine ⟨k, ?_, ?_, hk⟩
      · rw [dif_neg hpos, hzero, Nat.add_zero]
      · rw [dif_neg hpos, List.append_nil]

/-- `WriteData` into a writer that takes everything. -/
theorem writeDataTo_spec {data enc : Bytes} {k : Sink} (henc : encodeData data = some enc)
    (hk : k.room = none) :
    ∃ k', writeDataTo data k = (enc.length, none, k') ∧ k'.bytes = k.bytes ++ enc ∧
      k'.room = none := by
  obtain ⟨pre, hpre, rfl⟩ := Option.map_eq_some_iff.mp henc
  have hk₁ : ({ k with writes := k.writes ++ [pre] } : Sink).room = none := hk
  refine ⟨{ k with writes := k.writes ++ [pre] ++ [data] }, ?_, ?_, hk⟩
  · simp only [writeDataTo, hpre, write_room hk, write_room hk₁, ↓reduceIte, List.length_append]
  · simp [Sink.bytes]

theorem dataPrefixForLength_none {n : Nat} : dataPrefixForLength n = none ↔ 0xfffff < n := by
  simp only [dataPrefixForLength, Nat.shiftRight_eq_div_pow, and_3f, Nat.reducePow, Nat.div_one]
  split
  · simp only [reduceCtorEq, false_iff]
    omega
  · split
    · simp only [reduceCtorEq, false_iff]
      omega
    · split
      · simp only [reduceCtorEq, false_iff]
        omega
      · simp only [true_iff]
        omega

/-- Data that is too long is refused, and only then. -/
theorem writeDataTo_tooLong (data : Bytes) (k : Sink) :
    (0xfffff < data.length → writeDataTo data k = (0, some .tooLong, k)) ∧
      ((writeDataTo data k).2.1 = some .tooLong → 0xfffff < data.length) := by
  constructor
  · intro hlong
    simp only [writeDataTo, dataPrefixForLength_none.mpr hlong]
  · intro herr
    unfold writeDataTo at herr
    split at herr
    · rename_i hnone
      exact dataPrefixForLength_none.mp hnone
    · split at herr
      · cases herr
      · dsimp only at herr
        split at herr <;> cases herr

/-! ## Reading past padding -/

variable {r : Reader} {rest : Bytes}

/-- The data bit of the first byte only says that it is data. -/
theorem decodePrefix_clear {b : UInt8} {bs : Bytes} {n : Nat} (hb : b &&& 0x80 = 0)
    (h : decodePrefix (((0x80 : UInt8) ||| b) :: bs) = some (true, n, rest)) :
    decodePrefix (b :: bs) = some (false, n, rest) := by
  have hbits : ∀ b : UInt8, (((0x80 : UInt8) ||| b) &&& 0x40) = b &&& 0x40 ∧
      (((0x80 : UInt8) ||| b) &&& 0x3f) = b &&& 0x3f := by decide +kernel
  obtain ⟨h40, h3f⟩ := hbits b
  simp only [decodePrefix, h40, h3f] at h ⊢
  split at h
  · rename_i hmore
    rw [if_pos hmore]
    obtain ⟨⟨m, rest'⟩, hm, heq⟩ := Option.map_eq_some_iff.mp h
    simp only [Prod.mk.injEq] at heq
    obtain ⟨-, rfl, rfl⟩ := heq
    rw [hm]
    simp [hb]
  · rename_i hmore
    rw [if_neg hmore]
    simp only [Option.some.injEq, Prod.mk.injEq] at h
    simp [hb, h]

theorem decodePrefix_padding {p : Nat} {c : Bytes × Nat} (h : PaddingForm p c) (rest : Bytes) :
    decodePrefix (c.1 ++ rest) = some (false, c.2, rest) := by
  cases h with
  | @one n hp hn =>
    apply decodePrefix_clear
    · have hlow : ∀ n < 64, UInt8.ofNat n &&& 0x80 = 0 := by decide +kernel
      exact hlow n hn
    · exact decodePrefix_form (.one hn) rest
  | @two n hp hn =>
    apply decodePrefix_clear
    · have hlow : ∀ n < 64, ((0x40 : UInt8) ||| UInt8.ofNat n) &&& 0x80 = 0 := by decide +kernel
      exact hlow _ hn
    · have hbits : (0x80 : UInt8) ||| ((0x40 : UInt8) ||| UInt8.ofNat (n / 128)) =
          (0xc0 : UInt8) ||| UInt8.ofNat (n / 128) := by
        rw [← UInt8.or_assoc]
        rfl
      rw [hbits]
      exact decodePrefix_form (.two hn) rest

/-- `ReadData` skips padding, once its prefix is read. -/
theorem readData_skip {n : Nat} {r₁ r₂ : Reader} (h : readPrefix r = (.ok (false, n), r₁))
    (hcopy : copyN n r₁ = (none, r₂)) : readData r = readData r₂ := by
  rw [readData]
  split
  · rename_i herr
    rw [h] at herr
    cases herr
  · rename_i hok
    rw [h] at hok
    cases hok
  · rename_i m r₁' hok
    rw [h] at hok
    cases hok
    split
    · rename_i hbad
      rw [hcopy] at hbad
      cases hbad
    · rename_i r₂' hgood
      rw [hcopy] at hgood
      cases hgood
      rfl

theorem copyN_enough (hr : r.Plain) {m : Nat} {skipped : Bytes} (hm : skipped.length = m)
    (hbytes : r.bytes = skipped ++ rest) : ∃ r', copyN m r = (none, r') ∧ At r rest r' := by
  have hle : m ≤ r.bytes.length := by
    rw [hbytes, List.length_append]
    omega
  obtain ⟨hread, hrest, hfinal⟩ := readLoop_enough r m hle
  have hlen : m ≤ (readLoop m r).1.length := by
    rw [hread, List.length_take_of_le hle]
  refine ⟨(readLoop m r).2.2, ?_, ?_, hfinal, hr.readLoop m⟩
  · simp only [copyN, hlen, ↓reduceIte]
  · rw [hrest, hbytes, ← hm, List.drop_left]

theorem readData_chunk_padding (hr : r.Plain) {p : Nat} (hpos : 0 < p) (hle : p ≤ 1024)
    (hbytes : r.bytes = paddingChunk p ++ rest) :
    ∃ r', readData r = readData r' ∧ At r rest r' := by
  have hform := paddingPrefix_form hpos hle
  have hpre := readPrefix_plain hr
  rw [hbytes, paddingChunk, List.append_assoc, decodePrefix_padding hform] at hpre
  obtain ⟨r₁, hread, hat₁⟩ := hpre
  have hlen : (paddingBuffer.take (paddingPrefix p).2).length = (paddingPrefix p).2 := by
    have hmax : (paddingPrefix p).2 ≤ 1024 := by
      generalize paddingPrefix p = c at hform
      cases hform <;> dsimp only <;> omega
    rw [paddingBuffer, List.length_take, List.length_replicate]
    omega
  obtain ⟨r₂, hcopy, hat₂⟩ := copyN_enough hat₁.plain hlen hat₁.bytes
  exact ⟨r₂, readData_skip hread hcopy, hat₁.trans hat₂⟩

/-- Padding in front of a stream changes nothing for `ReadData`. -/
theorem readData_padding (n : Nat) (hr : r.Plain) (hbytes : r.bytes = encodePadding n ++ rest) :
    ∃ r', readData r = readData r' ∧ At r rest r' := by
  induction n using Nat.strongRecOn generalizing r with
  | ind n ih =>
    rw [encodePadding] at hbytes
    by_cases hpos : 0 < n
    · obtain ⟨hsize, hle, hmax⟩ := chunkSize_spec hpos
      rw [dif_pos hpos, List.append_assoc] at hbytes
      obtain ⟨r₁, hskip, hat₁⟩ := readData_chunk_padding hr hsize hmax hbytes
      obtain ⟨r₂, hrest, hat₂⟩ := ih (n - chunkSize n) (by omega) hat₁.plain hat₁.bytes
      exact ⟨r₂, hskip.trans hrest, hat₁.trans hat₂⟩
    · rw [dif_neg hpos] at hbytes
      exact ⟨r, rfl, hbytes, rfl, hr⟩

/-- At the end of the stream `ReadData` returns the reader's error. -/
theorem readData_end (hr : r.Plain) (hbytes : r.bytes = []) :
    ∃ r', readData r = (.error (.read r.final), r') := by
  obtain ⟨r', hread⟩ := read_end hr hbytes 1
  exact ⟨r', readData_error (by rw [readPrefix, hread])⟩

/-! ## Sequences of operations -/

/-- `ReadData` until it returns an error. -/
def readAll (r : Reader) : List Bytes × EncapError :=
  match _h : readData r with
  | (.error err, _) => ([], err)
  | (.ok p, r') => (p :: (readAll r').1, (readAll r').2)
termination_by r.size
decreasing_by all_goals exact size_readData_lt _h

theorem readAll_error {err : EncapError} {r' : Reader} (h : readData r = (.error err, r')) :
    readAll r = ([], err) := by
  rw [readAll]
  split
  · rename_i err' r'' h'
    rw [h] at h'
    cases h'
    rfl
  · rename_i h'
    rw [h] at h'
    cases h'

theorem readAll_ok {p : Bytes} {r' : Reader} (h : readData r = (.ok p, r')) :
    readAll r = (p :: (readAll r').1, (readAll r').2) := by
  rw [readAll]
  split
  · rename_i h'
    rw [h] at h'
    cases h'
  · rename_i p' r'' h'
    rw [h] at h'
    cases h'
    rfl

/-- The first `ReadData` decides. -/
theorem readAll_congr {r' : Reader} (h : readData r = readData r') : readAll r = readAll r' := by
  cases hread : readData r' with
  | mk res r'' =>
    rw [hread] at h
    cases res with
    | error err => rw [readAll_error h, readAll_error hread]
    | ok p => rw [readAll_ok h, readAll_ok hread]

/-- The operations of a writing program. -/
inductive Op where
  | data (d : Bytes)
  | padding (n : Int)

/-- The operation with its results; `none` is the panic. -/
def Op.run : Op → Sink → Option (Nat × Option EncodeError × Sink)
  | .data d, k => some (writeDataTo d k)
  | .padding n, k => writePadding n k

/-- The operations one after the other, each returning no error. -/
def runOps : List Op → Sink → Option Sink
  | [], k => some k
  | op :: ops, k =>
      match op.run k with
      | some (_, none, k') => runOps ops k'
      | _ => none

/-- The data among the operations. -/
def dataOf : List Op → List Bytes
  | [] => []
  | .data d :: ops => d :: dataOf ops
  | .padding _ :: ops => dataOf ops

/-- Data of a length that a prefix can say, and no negative padding. -/
def Op.Valid : Op → Prop
  | .data d => d.length ≤ 0xfffff
  | .padding n => 0 ≤ n

/-- The bytes of an operation. -/
def Op.bytes : Op → Bytes
  | .data d => (encodeData d).getD []
  | .padding n => encodePadding n.toNat

theorem encodeData_getD {d : Bytes} (h : d.length ≤ 0xfffff) :
    encodeData d = some ((encodeData d).getD []) := by
  cases henc : encodeData d with
  | none =>
    have hlong := dataPrefixForLength_none.mp (Option.map_eq_none_iff.mp henc)
    omega
  | some enc => rfl

theorem Op.run_spec {op : Op} (hop : op.Valid) {k : Sink} (hk : k.room = none) :
    ∃ k', op.run k = some (op.bytes.length, none, k') ∧ k'.bytes = k.bytes ++ op.bytes ∧
      k'.room = none := by
  cases op with
  | data d =>
    obtain ⟨k', hrun, hrest⟩ := writeDataTo_spec (encodeData_getD hop) hk
    exact ⟨k', congrArg some hrun, hrest⟩
  | padding n =>
    have hn : ¬ n < 0 := Int.not_lt.mpr hop
    obtain ⟨k', hrun, hrest⟩ := writePaddingLoop_spec 0 n.toNat k hk
    refine ⟨k', ?_, hrest⟩
    rw [Op.run, writePadding, if_neg hn, hrun, Op.bytes, encodePadding_length, Nat.zero_add]

theorem runOps_spec {ops : List Op} (hops : ∀ op ∈ ops, op.Valid) {k : Sink} (hk : k.room = none) :
    ∃ k', runOps ops k = some k' ∧ k'.bytes = k.bytes ++ ops.flatMap Op.bytes := by
  induction ops generalizing k with
  | nil => exact ⟨k, rfl, (List.append_nil _).symm⟩
  | cons op ops ih =>
    obtain ⟨k₁, hrun, hbytes₁, hk₁⟩ := Op.run_spec (hops op List.mem_cons_self) hk
    obtain ⟨k₂, hrest, hbytes₂⟩ := ih (fun o ho => hops o (List.mem_cons_of_mem _ ho)) hk₁
    refine ⟨k₂, ?_, ?_⟩
    · rw [runOps, hrun]
      exact hrest
    · rw [hbytes₂, hbytes₁, List.append_assoc, List.flatMap_cons]

/-- The data comes back, in order, and then the error of the reader. -/
theorem readAll_ops {ops : List Op} (hops : ∀ op ∈ ops, op.Valid) (hr : r.Plain)
    (hbytes : r.bytes = ops.flatMap Op.bytes) : readAll r = (dataOf ops, .read r.final) := by
  induction ops generalizing r with
  | nil =>
    obtain ⟨r', hend⟩ := readData_end hr hbytes
    exact readAll_error hend
  | cons op ops ih =>
    have hrest : ∀ o ∈ ops, o.Valid := fun o ho => hops o (List.mem_cons_of_mem _ ho)
    have hop := hops op List.mem_cons_self
    rw [List.flatMap_cons] at hbytes
    cases op with
    | data d =>
      obtain ⟨r', hread, hat⟩ := readData_encode hr (encodeData_getD hop) hbytes
      rw [readAll_ok hread, ih hrest hat.plain hat.bytes, hat.final]
      rfl
    | padding n =>
      obtain ⟨r', hread, hat⟩ := readData_padding n.toNat hr hbytes
      rw [readAll_congr hread, ih hrest hat.plain hat.bytes, hat.final]
      rfl

/-- The codec round-trips: the output of valid operations is read back as the data among them and
then the end of file, padding takes exactly its length, and only data that is too long is refused,
before anything is written. -/
theorem encapsulation_round_trip :
    (∀ (ops : List Op) (k : Sink), (∀ op ∈ ops, op.Valid) → k.room = none →
      ∃ out k', runOps ops k = some k' ∧ k'.bytes = k.bytes ++ out ∧
        ∀ r : Reader, r.Plain → r.final = .eof → r.bytes = out →
          readAll r = (dataOf ops, .read .eof)) ∧
    (∀ (n : Int) (k : Sink), 0 ≤ n → k.room = none →
      ∃ pad k', writePadding n k = some (n.toNat, none, k') ∧ pad.length = n.toNat ∧
        k'.bytes = k.bytes ++ pad) ∧
    ∀ (data : Bytes) (k : Sink),
      (0xfffff < data.length → writeDataTo data k = (0, some .tooLong, k)) ∧
        ((writeDataTo data k).2.1 = some .tooLong → 0xfffff < data.length) := by
  refine ⟨fun ops k hops hk => ?_, fun n k hn hk => ?_, writeDataTo_tooLong⟩
  · obtain ⟨k', hrun, hbytes⟩ := runOps_spec hops hk
    refine ⟨_, k', hrun, hbytes, fun r hr hfinal hout => ?_⟩
    rw [readAll_ops hops hr hout, hfinal]
  · have hlen : (Op.padding n).bytes.length = n.toNat := encodePadding_length n.toNat
    have hvalid : (Op.padding n).Valid := hn
    obtain ⟨k', hrun, hbytes, -⟩ := Op.run_spec hvalid hk
    rw [hlen] at hrun
    exact ⟨(Op.padding n).bytes, k', hrun, hlen, hbytes⟩

/-- One byte of data, a hundred bytes of padding and an empty chunk. -/
theorem encapsulation_round_trip_three :
    ∃ out k', runOps [.data [7], .padding 100, .data []] ⟨[], none⟩ = some k' ∧ k'.bytes = out ∧
      ∀ r : Reader, r.Plain → r.final = .eof → r.bytes = out →
        readAll r = ([[7], []], .read .eof) := by
  have hvalid : ∀ op ∈ [Op.data [7], .padding 100, .data []], op.Valid := by
    simp [Op.Valid]
  exact encapsulation_round_trip.1 _ ⟨[], none⟩ hvalid rfl

end PTBridge.Snowflake
