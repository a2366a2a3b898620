import PTBridge.Stream.Reader
import PTBridge.Stream.Writer

/-!
# `snowflake/common/encapsulation`: chunks in a byte stream

A chunk is a length prefix of one to three bytes and that many bytes of data or padding.

- `readData` is `ReadData` on any reader; `dataPrefixForLength` and `writeData` are the writing
  side, and `writePacket` is `WriteData` followed by `Flush`, as the packet connections use it.
- `decodePrefix` reads a prefix off a byte string. On a reader that returns data or an error,
  `readPrefix` does the same (`readPrefix_plain`), so that round trips are about byte strings.
- `readData_encode` and `readData_cut` say what `ReadData` returns for a written chunk and for a
  first part of one.
-/

namespace PTBridge.Snowflake

open PTBridge.Stream

inductive EncapError where
  | read (err : ReadError)
  /-- `ErrTooLong` -/
  | tooLong
  deriving DecidableEq, Repr

/-! ## `ReadData` -/

/-- An end of file in the middle of a chunk. -/
def unexpected (err : ReadError) : EncapError :=
  .read (if err = .eof then .unexpectedEOF else err)

/-- The loop over the further bytes of a prefix, with `k` of them still allowed. A read that
returns nothing and no error leaves the last byte in `b`. -/
def moreLength : Nat → UInt8 → Nat → Reader → Except EncapError Nat × Reader
  | 0, _, _, r => (.error .tooLong, r)
  | k + 1, b, n, r =>
      -- one byte with seven bits, the high bit set if another one follows
      match read 1 r with
      | (_, some err, r') => (.error (unexpected err), r')
      | (data, none, r') =>
          let c := data.headD b
          let m := (n <<< 7) ||| (c &&& 0x7f).toNat
          if c &&& 0x80 ≠ 0 then moreLength k c m r' else (.ok m, r')

/-- The length prefix of a chunk: whether it is data, and its length. -/
def readPrefix (r : Reader) : Except EncapError (Bool × Nat) × Reader :=
  match read 1 r with
  | (_, some err, r') => (.error (.read err), r')
  | (data, none, r') =>
      -- the two high bits say whether it is data and whether the length goes on
      let b := data.headD 0
      let isData := decide (b &&& 0x80 ≠ 0)
      let n := (b &&& 0x3f).toNat
      if b &&& 0x40 ≠ 0 then
        match moreLength 2 b n r' with
        | (.error err, r'') => (.error err, r'')
        | (.ok m, r'') => (.ok (isData, m), r'')
      else (.ok (isData, n), r')

theorem size_moreLength_le {k : Nat} {b : UInt8} {n m : Nat} {r r' : Reader}
    (h : moreLength k b n r = (.ok m, r')) : r'.size ≤ r.size := by
  -- each byte is a read, and reads make progress
  induction k generalizing b n r with
  | zero => cases h
  | succ k ih =>
    rw [moreLength] at h
    split at h
    · cases h
    · rename_i data r₁ hread
      have hlt := @size_read_lt 1 r (by decide) (by rw [hread])
      rw [hread] at hlt
      dsimp only at h hlt
      split at h
      · have hle := ih h
        omega
      · cases h
        omega

/-- A prefix takes at least one read. -/
theorem size_readPrefix_lt {r r' : Reader} {isData : Bool} {n : Nat}
    (h : readPrefix r = (.ok (isData, n), r')) : r'.size < r.size := by
  rw [readPrefix] at h
  split at h
  · cases h
  · rename_i data r₁ hread
    have hlt := @size_read_lt 1 r (by decide) (by rw [hread])
    rw [hread] at hlt
    dsimp only at h hlt
    split at h
    · split at h
      · cases h
      · rename_i m r₂ hmore
        have hle := size_moreLength_le hmore
        cases h
        omega
    · cases h
      exact hlt

theorem size_copyN_le (m : Nat) (r : Reader) : (copyN m r).2.size ≤ r.size := by
  unfold copyN
  dsimp only
  split <;> exact size_readLoop_le r m

/-- `ReadData`: the next data chunk, past any padding. -/
def readData (r : Reader) : Except EncapError Bytes × Reader :=
  match _hpre : readPrefix r with
  | (.error err, r') => (.error err, r')
  | (.ok (true, n), r') =>
      match readFull n r' with
      | (_, some err, r'') => (.error (unexpected err), r'')
      | (p, none, r'') => (.ok p, r'')
  -- padding is skipped, and the loop starts over
  | (.ok (false, n), r') =>
      match _hcopy : copyN n r' with
      | (some err, r'') => (.error (unexpected err), r'')
      | (none, r'') => readData r''
termination_by r.size
decreasing_by
  have hlt := size_readPrefix_lt _hpre
  have hle := size_copyN_le n r'
  rw [_hcopy] at hle
  exact Nat.lt_of_le_of_lt hle hlt

theorem size_readFull_le (m : Nat) (r : Reader) : (readFull m r).2.2.size ≤ r.size := by
  unfold readFull
  dsimp only
  split
  · exact size_readLoop_le r m
  · split <;> exact size_readLoop_le r m

/-- A chunk takes at least one read. -/
theorem size_readData_lt {r r' : Reader} {p : Bytes} (h : readData r = (.ok p, r')) :
    r'.size < r.size := by
  fun_induction readData r with
  | case1 r err r₁ hpre => cases h
  | case2 r n r₁ hpre err r₂ x hfull => cases h
  | case3 r n r₁ hpre p' r₂ hfull =>
    cases h
    have hlt := size_readPrefix_lt hpre
    have hle := size_readFull_le n r₁
    rw [hfull] at hle
    exact Nat.lt_of_le_of_lt hle hlt
  | case4 r n r₁ hpre err r₂ hcopy => cases h
  | case5 r n r₁ hpre r₂ hcopy ih =>
    have hlt := size_readPrefix_lt hpre
    have hle := size_copyN_le n r₁
    rw [hcopy] at hle
    exact Nat.lt_trans (ih h) (Nat.lt_of_le_of_lt hle hlt)

/-! ## `WriteData` -/

/-- `dataPrefixForLength`; `none` is `ErrTooLong`. -/
def dataPrefixForLength (n : Nat) : Option Bytes :=
  if (n >>> 0) &&& 0x3f = n >>> 0 then some [(0x80 : UInt8) ||| UInt8.ofNat ((n >>> 0) &&& 0x3f)]
  else if (n >>> 7) &&& 0x3f = n >>> 7 then
    some [(0xc0 : UInt8) ||| UInt8.ofNat ((n >>> 7) &&& 0x3f), UInt8.ofNat ((n >>> 0) &&& 0x7f)]
  else if (n >>> 14) &&& 0x3f = n >>> 14 then
    some [(0xc0 : UInt8) ||| UInt8.ofNat ((n >>> 14) &&& 0x3f),
      (0x80 : UInt8) ||| UInt8.ofNat ((n >>> 7) &&& 0x7f),
      UInt8.ofNat ((n >>> 0) &&& 0x7f)]
  else none

/-- `WriteData` into a `bufio.Writer`; the first component says that there was no error. -/
def writeData (data : Bytes) (w : BufWriter) (k : Sink) : Bool × BufWriter × Sink :=
  match dataPrefixForLength data.length with
  | none => (false, w, k)
  | some pre =>
      match w.write pre k with
      | (w', k') =>
          if w'.failed then (false, w', k')
          else
            match w'.write data k' with
            | (w'', k'') => (!w''.failed, w'', k'')

/-- `WriteData`, then `Flush`. -/
def writePacket (data : Bytes) (w : BufWriter) (k : Sink) : Bool × BufWriter × Sink :=
  match writeData data w k with
  | (false, w', k') => (false, w', k')
  | (true, w', k') =>
      match w'.flush k' with
      | (w'', k'') => (!w''.failed, w'', k'')

/-- The bytes of a data chunk. -/
def encodeData (data : Bytes) : Option Bytes := (dataPrefixForLength data.length).map (· ++ data)

/-- `WriteData` adds the chunk to the account of the buffered writer. -/
theorem writeData_accounts {data enc total : Bytes} {w : BufWriter} {k : Sink}
    (henc : encodeData data = some enc) (h : w.Accounts k total) :
    (writeData data w k).2.1.Accounts (writeData data w k).2.2 (total ++ enc) := by
  obtain ⟨pre, hpre, rfl⟩ := Option.map_eq_some_iff.mp henc
  have h₁ := BufWriter.write_accounts h pre
  simp only [writeData, hpre]
  rw [← List.append_assoc]
  cases hfailed : (w.write pre k).1.failed with
  | true => exact Or.inr ⟨hfailed, h₁.le.trans (List.prefix_append _ _)⟩
  | false => exact BufWriter.write_accounts h₁ data

/-- Writing a packet with an empty buffer: on success all its bytes are out, on failure the first
of them may be. -/
theorem writePacket_spec {data enc : Bytes} {k k' : Sink} {w' : BufWriter} {ok : Bool}
    (henc : encodeData data = some enc) (h : writePacket data .new k = (ok, w', k')) :
    k'.bytes <+: k.bytes ++ enc ∧ (ok = true → w' = .new ∧ k'.bytes = k.bytes ++ enc) := by
  have hnew : BufWriter.Accounts .new k k.bytes := Or.inl ⟨rfl, List.append_nil _⟩
  have hdata := writeData_accounts henc hnew
  unfold writePacket at h
  split at h
  · rename_i w₁ k₁ hwrite
    rw [hwrite] at hdata
    cases h
    exact ⟨hdata.le, nofun⟩
  · rename_i w₁ k₁ hwrite
    rw [hwrite] at hdata
    obtain ⟨hflush, hempty⟩ := BufWriter.flush_accounts hdata
    cases h
    refine ⟨hflush.le, fun hok => ?_⟩
    have hgood : (w₁.flush k₁).1.failed = false := (Bool.not_eq_true' _).mp hok
    have hbuf := hempty hgood
    -- a flush without error has written all that was buffered
    rcases hflush with ⟨-, hall⟩ | ⟨hbad, -⟩
    · rw [hbuf, List.append_nil] at hall
      exact ⟨congrArg₂ BufWriter.mk hbuf hgood, hall⟩
    · rw [hgood] at hbad
      cases hbad

/-- A packet that is too long for a prefix is refused and nothing is written. -/
theorem writePacket_tooLong {data : Bytes} {w : BufWriter} {k : Sink}
    (henc : encodeData data = none) : writePacket data w k = (false, w, k) := by
  have hpre : dataPrefixForLength data.length = none := Option.map_eq_none_iff.mp henc
  simp only [writePacket, writeData, hpre]

/-! ## Prefixes as byte strings -/

/-- The further bytes of a prefix: the length and what follows. -/
def moreBytes : Nat → Nat → Bytes → Option (Nat × Bytes)
  | 0, _, _ => none
  | _ + 1, _, [] => none
  | k + 1, n, c :: cs =>
      let m := (n <<< 7) ||| (c &&& 0x7f).toNat
      if c &&& 0x80 ≠ 0 then moreBytes k m cs else some (m, cs)

/-- The prefix a byte string begins with: whether it is data, the length, and what follows. -/
def decodePrefix : Bytes → Option (Bool × Nat × Bytes)
  | [] => none
  | b :: bs =>
      let n := (b &&& 0x3f).toNat
      if b &&& 0x40 ≠ 0 then
        (moreBytes 2 n bs).map fun (m, rest) => (decide (b &&& 0x80 ≠ 0), m, rest)
      else some (decide (b &&& 0x80 ≠ 0), n, bs)

/-- A reader that stands where `rest` begins, with nothing else changed since `r`. -/
structure At (r : Reader) (rest : Bytes) (r' : Reader) : Prop where
  bytes : r'.bytes = rest
  final : r'.final = r.final
  plain : r'.Plain

theorem At.trans {r₁ r₂ r₃ : Reader} {b₂ b₃ : Bytes} (h₁ : At r₁ b₂ r₂) (h₂ : At r₂ b₃ r₃) :
    At r₁ b₃ r₃ :=
  ⟨h₂.bytes, h₂.final.trans h₁.final, h₂.plain⟩

theorem moreLength_plain {k : Nat} {b : UInt8} {n : Nat} {r : Reader} (hr : r.Plain) :
    match moreBytes k n r.bytes with
    | none => ∃ err r', moreLength k b n r = (.error err, r')
    | some (m, rest) => ∃ r', moreLength k b n r = (.ok m, r') ∧ At r rest r' := by
  -- byte for byte, as `moreBytes` recurses
  induction k generalizing b n r with
  | zero => exact ⟨.tooLong, r, rfl⟩
  | succ k ih =>
    cases hbytes : r.bytes with
    | nil =>
      obtain ⟨r', hread⟩ := read_end hr hbytes 1
      exact ⟨unexpected r.final, r', by rw [moreLength, hread]⟩
    | cons c cs =>
      obtain ⟨r', hread, hrest, hfinal, hplain⟩ := read_byte hr hbytes
      have hat : At r cs r' := ⟨hrest, hfinal, hplain⟩
      by_cases hmore : c &&& 0x80 ≠ 0
      · -- the loop goes on with the next byte
        have hloop : moreLength (k + 1) b n r =
            moreLength k c ((n <<< 7) ||| (c &&& 0x7f).toNat) r' := by
          rw [moreLength, hread]
          exact if_pos hmore
        have hnext := @ih c ((n <<< 7) ||| (c &&& 0x7f).toNat) r' hplain
        rw [hrest] at hnext
        rw [moreBytes, if_pos hmore, hloop]
        split
        · rename_i hnone
          rw [hnone] at hnext
          exact hnext
        · rename_i m rest hsome
          rw [hsome] at hnext
          obtain ⟨r'', hok, hat'⟩ := hnext
          exact ⟨r'', hok, hat.trans hat'⟩
      · have hlast : moreLength (k + 1) b n r = (.ok ((n <<< 7) ||| (c &&& 0x7f).toNat), r') := by
          rw [moreLength, hread]
          exact if_neg hmore
        rw [moreBytes, if_neg hmore, hlast]
        exact ⟨r', rfl, hat⟩

/-- On a reader that returns data or an error, the prefix read is that of its bytes. -/
theorem readPrefix_plain {r : Reader} (hr : r.Plain) :
    match decodePrefix r.bytes with
    | none => ∃ err r', readPrefix r = (.error err, r')
    | some (isData, n, rest) => ∃ r', readPrefix r = (.ok (isData, n), r') ∧ At r rest r' := by
  cases hbytes : r.bytes with
  | nil =>
    obtain ⟨r', hread⟩ := read_end hr hbytes 1
    exact ⟨.read r.final, r', by rw [readPrefix, hread]⟩
  | cons b bs =>
    obtain ⟨r', hread, hrest, hfinal, hplain⟩ := read_byte hr hbytes
    have hat : At r bs r' := ⟨hrest, hfinal, hplain⟩
    -- the second high bit: a length of one byte, or more to come
    by_cases hmore : b &&& 0x40 ≠ 0
    · have hnext := @moreLength_plain 2 b (b &&& 0x3f).toNat r' hplain
      rw [hrest] at hnext
      rw [decodePrefix, if_pos hmore]
      cases hbs : moreBytes 2 (b &&& 0x3f).toNat bs with
      | none =>
        rw [hbs] at hnext
        obtain ⟨err, r'', herr⟩ := hnext
        refine ⟨err, r'', ?_⟩
        rw [readPrefix, hread]
        refine (if_pos hmore).trans ?_
        rw [List.headD_cons, herr]
      | some found =>
        obtain ⟨m, rest⟩ := found
        rw [hbs] at hnext
        obtain ⟨r'', hok, hat'⟩ := hnext
        refine ⟨r'', ?_, hat.trans hat'⟩
        rw [readPrefix, hread]
        refine (if_pos hmore).trans ?_
        rw [List.headD_cons, hok]
    · rw [decodePrefix, if_neg hmore]
      refine ⟨r', ?_, hat⟩
      rw [readPrefix, hread]
      exact if_neg hmore

/-! ## Round trips -/

theorem and_3f (n : Nat) : n &&& 0x3f = n % 64 := Nat.and_two_pow_sub_one_eq_mod n 6

theorem and_7f (n : Nat) : n &&& 0x7f = n % 128 := Nat.and_two_pow_sub_one_eq_mod n 7

/-- The first byte of a prefix without continuation. -/
theorem first_byte_last : ∀ n < 64,
    ((0x80 : UInt8) ||| UInt8.ofNat n) &&& 0x40 = 0 ∧
      ((0x80 : UInt8) ||| UInt8.ofNat n) &&& 0x80 ≠ 0 ∧
      (((0x80 : UInt8) ||| UInt8.ofNat n) &&& 0x3f).toNat = n := by
  decide +kernel

/-- The first byte of a longer prefix. -/
theorem first_byte_more : ∀ n < 64,
    ((0xc0 : UInt8) ||| UInt8.ofNat n) &&& 0x40 ≠ 0 ∧
      ((0xc0 : UInt8) ||| UInt8.ofNat n) &&& 0x80 ≠ 0 ∧
      (((0xc0 : UInt8) ||| UInt8.ofNat n) &&& 0x3f).toNat = n := by
  decide +kernel

/-- The last byte of a longer prefix. -/
theorem next_byte_last : ∀ n < 128,
    UInt8.ofNat n &&& 0x80 = 0 ∧ (UInt8.ofNat n &&& 0x7f).toNat = n := by
  decide +kernel

/-- A byte in the middle of a prefix. -/
theorem next_byte_more : ∀ n < 128,
    ((0x80 : UInt8) ||| UInt8.ofNat n) &&& 0x80 ≠ 0 ∧
      (((0x80 : UInt8) ||| UInt8.ofNat n) &&& 0x7f).toNat = n := by
  decide +kernel

/-- Seven more bits of a length. -/
theorem shift_or (n x : Nat) (hx : x < 128) : (n <<< 7) ||| x = n * 128 + x := by
  rw [← Nat.shiftLeft_add_eq_or_of_lt (i := 7) hx, Nat.shiftLeft_eq]

/-- The three forms of a prefix. -/
inductive PrefixForm (n : Nat) : Bytes → Prop where
  | one (h : n < 64) : PrefixForm n [(0x80 : UInt8) ||| UInt8.ofNat n]
  | two (h : n / 128 < 64) :
      PrefixForm n [(0xc0 : UInt8) ||| UInt8.ofNat (n / 128), UInt8.ofNat (n % 128)]
  | three (h : n / 16384 < 64) :
      PrefixForm n [(0xc0 : UInt8) ||| UInt8.ofNat (n / 16384),
        (0x80 : UInt8) ||| UInt8.ofNat (n / 128 % 128), UInt8.ofNat (n % 128)]

theorem dataPrefixForLength_form {n : Nat} {pre : Bytes} (h : dataPrefixForLength n = some pre) :
    PrefixForm n pre := by
  simp only [dataPrefixForLength, Nat.shiftRight_eq_div_pow, and_3f, and_7f, Nat.reducePow,
    Nat.div_one] at h
  -- a shift that loses nothing to the mask is small enough for that many bytes
  split at h
  · rename_i hmod
    cases h
    have hlt : n < 64 := by omega
    rw [hmod]
    exact .one hlt
  · split at h
    · rename_i hmod
      cases h
      have hlt : n / 128 < 64 := by omega
      rw [hmod]
      exact .two hlt
    · split at h
      · rename_i hmod
        cases h
        have hlt : n / 16384 < 64 := by omega
        rw [hmod]
        exact .three hlt
      · cases h

/-- A prefix is read back, whatever follows. -/
theorem decodePrefix_form {n : Nat} {pre : Bytes} (h : PrefixForm n pre) (rest : Bytes) :
    decodePrefix (pre ++ rest) = some (true, n, rest) := by
  cases h with
  | one h =>
    obtain ⟨hmore, hdata, hn⟩ := first_byte_last n h
    simp [decodePrefix, hmore, hdata, hn]
  | two h =>
    obtain ⟨hmore, hdata, hn⟩ := first_byte_more (n / 128) h
    obtain ⟨hlast, hn'⟩ := next_byte_last (n % 128) (Nat.mod_lt _ (by decide))
    have hsum : (n / 128) <<< 7 ||| n % 128 = n := by
      rw [shift_or _ _ (Nat.mod_lt _ (by decide))]
      omega
    simp [decodePrefix, moreBytes, hmore, hdata, hn, hlast, hn', hsum]
  | three h =>
    obtain ⟨hmore, hdata, hn⟩ := first_byte_more (n / 16384) h
    obtain ⟨hmid, hn₁⟩ := next_byte_more (n / 128 % 128) (Nat.mod_lt _ (by decide))
    obtain ⟨hlast, hn₂⟩ := next_byte_last (n % 128) (Nat.mod_lt _ (by decide))
    have hsum : ((n / 16384) <<< 7 ||| n / 128 % 128) <<< 7 ||| n % 128 = n := by
      rw [shift_or _ _ (Nat.mod_lt _ (by decide)), shift_or _ _ (Nat.mod_lt _ (by decide))]
      omega
    simp [decodePrefix, moreBytes, hmore, hdata, hn, hmid, hn₁, hlast, hn₂, hsum]

/-- A prefix that is cut is not read. -/
theorem decodePrefix_cut {n : Nat} {pre b : Bytes} (h : PrefixForm n pre) (hb : b <+: pre)
    (hshort : b.length < pre.length) : decodePrefix b = none := by
  have hb' : b = pre.take b.length := List.prefix_iff_eq_take.mp hb
  -- every byte but the last announces another one
  cases h with
  | one h =>
    have hlen : b.length = 0 := by simpa using hshort
    rw [hb', hlen]
    rfl
  | two h =>
    obtain ⟨hmore, -, -⟩ := first_byte_more (n / 128) h
    have hlen : b.length = 0 ∨ b.length = 1 := by
      simp only [List.length_cons, List.length_nil] at hshort
      omega
    rcases hlen with hlen | hlen <;> rw [hb', hlen] <;> simp [decodePrefix, moreBytes, hmore]
  | three h =>
    obtain ⟨hmore, -, -⟩ := first_byte_more (n / 16384) h
    obtain ⟨hmid, -⟩ := next_byte_more (n / 128 % 128) (Nat.mod_lt _ (by decide))
    have hlen : b.length = 0 ∨ b.length = 1 ∨ b.length = 2 := by
      simp only [List.length_cons, List.length_nil] at hshort
      omega
    rcases hlen with hlen | hlen | hlen <;> rw [hb', hlen] <;>
      simp [decodePrefix, moreBytes, hmore, hmid]

variable {data enc rest : Bytes} {r : Reader}

/-- `ReadData` on a data chunk, once its prefix is read. -/
theorem readData_chunk {n : Nat} {r' : Reader} (h : readPrefix r = (.ok (true, n), r')) :
    readData r =
      match readFull n r' with
      | (_, some err, r'') => (.error (unexpected err), r'')
      | (p, none, r'') => (.ok p, r'') := by
  rw [readData]
  split
  · rename_i herr
    rw [h] at herr
    cases herr
  · rename_i m r₁ hok
    rw [h] at hok
    cases hok
    rfl
  · rename_i m r₁ hok
    rw [h] at hok
    cases hok

/-- `ReadData` without a prefix to read. -/
theorem readData_error {err : EncapError} {r' : Reader} (h : readPrefix r = (.error err, r')) :
    readData r = (.error err, r') := by
  rw [readData]
  split
  · rename_i herr
    rw [h] at herr
    cases herr
    rfl
  · rename_i hok
    rw [h] at hok
    cases hok
  · rename_i hok
    rw [h] at hok
    cases hok

/-- `ReadData` on a written chunk returns its data and stops right behind it. -/
theorem readData_encode (hr : r.Plain) (henc : encodeData data = some enc)
    (hbytes : r.bytes = enc ++ rest) :
    ∃ r', readData r = (.ok data, r') ∧ At r rest r' := by
  obtain ⟨pre, hpre, rfl⟩ := Option.map_eq_some_iff.mp henc
  have hdec := readPrefix_plain hr
  rw [hbytes, List.append_assoc, decodePrefix_form (dataPrefixForLength_form hpre)] at hdec
  obtain ⟨r₁, hread, hat⟩ := hdec
  -- behind the prefix there are the data and `rest`
  have hlen : data.length ≤ r₁.bytes.length := by
    rw [hat.bytes, List.length_append]
    omega
  obtain ⟨r₂, hfull, hbytes₂, hfinal₂⟩ := readFull_enough hlen
  rw [hat.bytes, List.take_left' rfl] at hfull
  rw [hat.bytes, List.drop_left' rfl] at hbytes₂
  have hplain := hat.plain.readFull data.length
  rw [hfull] at hplain
  refine ⟨r₂, ?_, hat.trans ⟨hbytes₂, hfinal₂, hplain⟩⟩
  rw [readData_chunk hread, hfull]

/-- `ReadData` on the first part of a chunk returns an error. -/
theorem readData_cut (hr : r.Plain) (henc : encodeData data = some enc) (hbytes : r.bytes <+: enc)
    (hshort : r.bytes.length < enc.length) : ∃ err r', readData r = (.error err, r') := by
  obtain ⟨pre, hpre, rfl⟩ := Option.map_eq_some_iff.mp henc
  have hform := dataPrefixForLength_form hpre
  have hdec := readPrefix_plain hr
  rcases Nat.lt_or_ge r.bytes.length pre.length with hin | hpast
  · -- the prefix itself is cut
    have hcut : r.bytes <+: pre :=
      List.prefix_of_prefix_length_le hbytes (List.prefix_append _ _) (Nat.le_of_lt hin)
    rw [decodePrefix_cut hform hcut hin] at hdec
    obtain ⟨err, r', herr⟩ := hdec
    exact ⟨err, r', readData_error herr⟩
  · -- the data is cut
    obtain ⟨some_data, hsome⟩ := List.prefix_of_prefix_length_le (List.prefix_append _ _) hbytes hpast
    rw [← hsome, decodePrefix_form hform] at hdec
    obtain ⟨r₁, hread, hat⟩ := hdec
    have hlen : r₁.bytes.length < data.length := by
      rw [← hsome, List.length_append, List.length_append] at hshort
      rw [hat.bytes]
      omega
    obtain ⟨r₂, hfull, -, -⟩ := readFull_short hlen
    exact ⟨_, r₂, by rw [readData_chunk hread, hfull]⟩

end PTBridge.Snowflake
