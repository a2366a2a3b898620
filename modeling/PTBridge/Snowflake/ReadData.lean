import PTBridge.Snowflake.Padding
import PTBridge.Stream.LastByte

/-!
# What `ReadData` accepts

The format of the package comment as relations on byte strings, and what `ReadData` returns for
every byte string.

- `Prefix`, `Paddings`, `Unfinished` and `Overlong` are the pieces a stream is made of.
- `Verdict s res rest` says what a stream `s` amounts to; `verdict_total`: every stream amounts to
  something.
- `readData_verdict`: `ReadData` returns it, unless the reader returns the end of file together with
  the last byte of a prefix.
- `readData_classified_iff`: the classification is right exactly if no such byte decides.
-/

namespace PTBridge.Snowflake

open PTBridge.Stream

/-! ## The format -/

/-- A length prefix: whether it is one of data, the length, and its bytes. -/
inductive Prefix : Bool → Nat → Bytes → Prop where
  /-- `d0xxxxxx` -/
  | one {b : UInt8} (hb : b &&& 0x40 = 0) :
      Prefix (decide (b &&& 0x80 ≠ 0)) (b &&& 0x3f).toNat [b]
  /-- `d1xxxxxx 0yyyyyyy` -/
  | two {b c : UInt8} (hb : b &&& 0x40 ≠ 0) (hc : c &&& 0x80 = 0) :
      Prefix (decide (b &&& 0x80 ≠ 0)) ((b &&& 0x3f).toNat * 128 + (c &&& 0x7f).toNat) [b, c]
  /-- `d1xxxxxx 1yyyyyyy 0zzzzzzz` -/
  | three {b c d : UInt8} (hb : b &&& 0x40 ≠ 0) (hc : c &&& 0x80 ≠ 0) (hd : d &&& 0x80 = 0) :
      Prefix (decide (b &&& 0x80 ≠ 0))
        (((b &&& 0x3f).toNat * 128 + (c &&& 0x7f).toNat) * 128 + (d &&& 0x7f).toNat) [b, c, d]

/-- Complete padding chunks. -/
inductive Paddings : Bytes → Prop where
  | nil : Paddings []
  | chunk {pre body z : Bytes} (hpre : Prefix false body.length pre) (hz : Paddings z) :
      Paddings (pre ++ body ++ z)

/-- The first bytes of a prefix, each of which announces another one. -/
inductive Unfinished : Bytes → Prop where
  | none : Unfinished []
  | one {b : UInt8} (hb : b &&& 0x40 ≠ 0) : Unfinished [b]
  | two {b c : UInt8} (hb : b &&& 0x40 ≠ 0) (hc : c &&& 0x80 ≠ 0) : Unfinished [b, c]

/-- Three bytes that all announce another one. -/
inductive Overlong : Bytes → Prop where
  | three {b c d : UInt8} (hb : b &&& 0x40 ≠ 0) (hc : c &&& 0x80 ≠ 0) (hd : d &&& 0x80 ≠ 0) :
      Overlong [b, c, d]

/-- What a byte string begins with. -/
theorem start_cases (s : Bytes) :
    (∃ isData n pre t, Prefix isData n pre ∧ s = pre ++ t) ∨ Unfinished s ∨
      ∃ pre t, Overlong pre ∧ s = pre ++ t := by
  cases s with
  | nil => exact .inr (.inl .none)
  | cons b s =>
    by_cases hb : b &&& 0x40 = 0
    · exact .inl ⟨_, _, [b], s, .one hb, rfl⟩
    · cases s with
      | nil => exact .inr (.inl (.one hb))
      | cons c s =>
        by_cases hc : c &&& 0x80 = 0
        · exact .inl ⟨_, _, [b, c], s, .two hb hc, rfl⟩
        · cases s with
          | nil => exact .inr (.inl (.two hb hc))
          | cons d s =>
            by_cases hd : d &&& 0x80 = 0
            · exact .inl ⟨_, _, [b, c, d], s, .three hb hc hd, rfl⟩
            · exact .inr (.inr ⟨[b, c, d], s, .three hb hc hd, rfl⟩)

/-- A prefix is unfinished up to its last byte. -/
theorem Prefix.unfinished {isData : Bool} {n : Nat} {pre : Bytes} (h : Prefix isData n pre) :
    ∃ u b, pre = u ++ [b] ∧ Unfinished u := by
  cases h with
  | one hb => exact ⟨[], _, rfl, .none⟩
  | two hb hc => exact ⟨[_], _, rfl, .one hb⟩
  | three hb hc hd => exact ⟨[_, _], _, rfl, .two hb hc⟩

theorem Overlong.unfinished {pre : Bytes} (h : Overlong pre) :
    ∃ u b, pre = u ++ [b] ∧ Unfinished u := by
  cases h with
  | three hb hc hd => exact ⟨[_, _], _, rfl, .two hb hc⟩

theorem Unfinished.unfinished {u : Bytes} (h : Unfinished u) (hne : u ≠ []) :
    ∃ u' b, u = u' ++ [b] ∧ Unfinished u' := by
  cases h with
  | none => exact absurd rfl hne
  | one hb => exact ⟨[], _, rfl, .none⟩
  | two hb hc => exact ⟨[_], _, rfl, .one hb⟩

theorem Prefix.ne_nil {isData : Bool} {n : Nat} {pre : Bytes} (h : Prefix isData n pre) :
    pre ≠ [] := by
  cases h <;> simp

theorem Paddings.append {z z' : Bytes} (h : Paddings z) (h' : Paddings z') : Paddings (z ++ z') := by
  induction h with
  | nil => exact h'
  | chunk hpre hz ih =>
    rw [List.append_assoc]
    exact .chunk hpre ih

/-! ## What a stream amounts to -/

inductive Verdict : Bytes → Except EncapError Bytes → Bytes → Prop where
  /-- a data chunk behind padding -/
  | data {z pre p t : Bytes} (hz : Paddings z) (hpre : Prefix true p.length pre) :
      Verdict (z ++ (pre ++ (p ++ t))) (.ok p) t
  /-- nothing but padding -/
  | eof {z t : Bytes} (hz : Paddings z) : Verdict z (.error (.read .eof)) t
  | tooLong {z pre s t : Bytes} (hz : Paddings z) (hpre : Overlong pre) :
      Verdict (z ++ (pre ++ s)) (.error .tooLong) t
  /-- a prefix that is cut -/
  | cutPrefix {z u t : Bytes} (hz : Paddings z) (hu : Unfinished u) (hne : u ≠ []) :
      Verdict (z ++ u) (.error (.read .unexpectedEOF)) t
  /-- a chunk that is cut behind its prefix -/
  | cutBody {z pre s t : Bytes} {isData : Bool} {n : Nat} (hz : Paddings z)
      (hpre : Prefix isData n pre) (hshort : s.length < n) :
      Verdict (z ++ (pre ++ s)) (.error (.read .unexpectedEOF)) t

/-- Padding in front changes nothing. -/
theorem Verdict.padded {z s rest : Bytes} {res : Except EncapError Bytes} (hz : Paddings z)
    (h : Verdict s res rest) : Verdict (z ++ s) res rest := by
  cases h with
  | data hz' hpre =>
    rw [← List.append_assoc]
    exact .data (hz.append hz') hpre
  | eof hz' => exact .eof (hz.append hz')
  | tooLong hz' hpre =>
    rw [← List.append_assoc]
    exact .tooLong (hz.append hz') hpre
  | cutPrefix hz' hu hne =>
    rw [← List.append_assoc]
    exact .cutPrefix (hz.append hz') hu hne
  | cutBody hz' hpre hshort =>
    rw [← List.append_assoc]
    exact .cutBody (hz.append hz') hpre hshort

/-- What is left to read is told only with data. -/
theorem Verdict.leaves {s rest rest' : Bytes} {res : Except EncapError Bytes}
    (h : Verdict s res rest) (hrest : ∀ p, res = .ok p → rest' = rest) : Verdict s res rest' := by
  cases h with
  | data hz hpre =>
    rw [hrest _ rfl]
    exact .data hz hpre
  | eof hz => exact .eof hz
  | tooLong hz hpre => exact .tooLong hz hpre
  | cutPrefix hz hu hne => exact .cutPrefix hz hu hne
  | cutBody hz hpre hshort => exact .cutBody hz hpre hshort

/-- Every stream amounts to something. -/
theorem verdict_total (s : Bytes) : ∃ res rest, Verdict s res rest := by
  -- on the length: a complete padding chunk leaves less
  induction hlen : s.length using Nat.strongRecOn generalizing s with
  | ind k ih =>
    subst hlen
    rcases start_cases s with ⟨isData, n, pre, t, hpre, rfl⟩ | hu | ⟨pre, t, hpre, rfl⟩
    · rcases Nat.lt_or_ge t.length n with hshort | hlong
      · exact ⟨_, [], .cutBody (z := []) .nil hpre hshort⟩
      · have hbody : (t.take n).length = n := List.length_take_of_le hlong
        cases isData with
        | true =>
          refine ⟨.ok (t.take n), t.drop n, ?_⟩
          have hdata := Verdict.data (t := t.drop n) .nil (hbody.symm ▸ hpre)
          simpa using hdata
        | false =>
          have hpos := List.length_pos_iff.mpr hpre.ne_nil
          have hless : (t.drop n).length < (pre ++ t).length := by
            simp only [List.length_drop, List.length_append]
            omega
          obtain ⟨res, rest, hv⟩ := ih _ hless (t.drop n) rfl
          have hz : Paddings (pre ++ t.take n ++ []) := .chunk (hbody.symm ▸ hpre) .nil
          refine ⟨res, rest, ?_⟩
          simpa using hv.padded hz
    · by_cases hne : s = []
      · subst hne
        exact ⟨_, [], .eof .nil⟩
      · exact ⟨_, [], .cutPrefix (z := []) .nil hu hne⟩
    · exact ⟨_, [], .tooLong (z := []) .nil hpre⟩

/-! ## `ReadData` on the pieces -/

section Pieces

variable {r r' : Reader} {pre t u z : Bytes} {isData : Bool} {n : Nat}

/-- The value bits of a further byte of a prefix. -/
theorem low_bits (c : UInt8) : (c &&& 0x7f).toNat < 128 := by
  rw [UInt8.toNat_and]
  apply Nat.lt_of_le_of_lt Nat.and_le_right
  decide

/-! ### A prefix, read by read -/

section Reads

variable {r₁ r₂ r₃ : Reader} {b c d : UInt8} {data : Bytes} {err : ReadError}

theorem readPrefix_error (h₁ : read 1 r = (data, some err, r₁)) :
    readPrefix r = (.error (.read err), r₁) := by
  simp [readPrefix, h₁]

theorem readPrefix_one (h₁ : read 1 r = ([b], none, r₁)) (hb : b &&& 0x40 = 0) :
    readPrefix r = (.ok (decide (b &&& 0x80 ≠ 0), (b &&& 0x3f).toNat), r₁) := by
  simp [readPrefix, h₁, hb]

theorem readPrefix_error_two (h₁ : read 1 r = ([b], none, r₁)) (hb : b &&& 0x40 ≠ 0)
    (h₂ : read 1 r₁ = (data, some err, r₂)) : readPrefix r = (.error (unexpected err), r₂) := by
  simp [readPrefix, moreLength, h₁, h₂, hb]

theorem readPrefix_two (h₁ : read 1 r = ([b], none, r₁)) (hb : b &&& 0x40 ≠ 0)
    (h₂ : read 1 r₁ = ([c], none, r₂)) (hc : c &&& 0x80 = 0) :
    readPrefix r = (.ok (decide (b &&& 0x80 ≠ 0),
      (b &&& 0x3f).toNat * 128 + (c &&& 0x7f).toNat), r₂) := by
  simp [readPrefix, moreLength, h₁, h₂, hb, hc, shift_or _ _ (low_bits c), -UInt8.toNat_and]

theorem readPrefix_error_three (h₁ : read 1 r = ([b], none, r₁)) (hb : b &&& 0x40 ≠ 0)
    (h₂ : read 1 r₁ = ([c], none, r₂)) (hc : c &&& 0x80 ≠ 0)
    (h₃ : read 1 r₂ = (data, some err, r₃)) : readPrefix r = (.error (unexpected err), r₃) := by
  simp [readPrefix, moreLength, h₁, h₂, h₃, hb, hc]

theorem readPrefix_three (h₁ : read 1 r = ([b], none, r₁)) (hb : b &&& 0x40 ≠ 0)
    (h₂ : read 1 r₁ = ([c], none, r₂)) (hc : c &&& 0x80 ≠ 0)
    (h₃ : read 1 r₂ = ([d], none, r₃)) (hd : d &&& 0x80 = 0) :
    readPrefix r = (.ok (decide (b &&& 0x80 ≠ 0),
      ((b &&& 0x3f).toNat * 128 + (c &&& 0x7f).toNat) * 128 + (d &&& 0x7f).toNat), r₃) := by
  simp [readPrefix, moreLength, h₁, h₂, h₃, hb, hc, hd, shift_or _ _ (low_bits c),
    shift_or _ _ (low_bits d), -UInt8.toNat_and]

theorem readPrefix_tooLong (h₁ : read 1 r = ([b], none, r₁)) (hb : b &&& 0x40 ≠ 0)
    (h₂ : read 1 r₁ = ([c], none, r₂)) (hc : c &&& 0x80 ≠ 0)
    (h₃ : read 1 r₂ = ([d], none, r₃)) (hd : d &&& 0x80 ≠ 0) :
    readPrefix r = (.error .tooLong, r₃) := by
  simp [readPrefix, moreLength, h₁, h₂, h₃, hb, hc, hd]

end Reads

theorem readPrefix_ok (hr : r.Gives) (hpre : Prefix isData n pre) (hbytes : r.bytes = pre ++ t)
    (hend : r.joined = true → t ≠ []) :
    ∃ r', readPrefix r = (.ok (isData, n), r') ∧ After r t r' := by
  have hstart := After.refl hr
  rw [hbytes] at hstart
  cases hpre with
  | one hb =>
    obtain ⟨r₁, hread, h₁⟩ := hstart.next hend
    exact ⟨r₁, readPrefix_one hread hb, h₁⟩
  | two hb hc =>
    obtain ⟨r₁, hread₁, h₁⟩ := hstart.next (by simp)
    obtain ⟨r₂, hread₂, h₂⟩ := h₁.next hend
    exact ⟨r₂, readPrefix_two hread₁ hb hread₂ hc, h₂⟩
  | three hb hc hd =>
    obtain ⟨r₁, hread₁, h₁⟩ := hstart.next (by simp)
    obtain ⟨r₂, hread₂, h₂⟩ := h₁.next (by simp)
    obtain ⟨r₃, hread₃, h₃⟩ := h₂.next hend
    exact ⟨r₃, readPrefix_three hread₁ hb hread₂ hc hread₃ hd, h₃⟩

theorem readPrefix_overlong (hr : r.Gives) (hpre : Overlong pre) (hbytes : r.bytes = pre ++ t)
    (hend : r.joined = true → t ≠ []) : ∃ r', readPrefix r = (.error .tooLong, r') := by
  have hstart := After.refl hr
  rw [hbytes] at hstart
  cases hpre with
  | three hb hc hd =>
    obtain ⟨r₁, hread₁, h₁⟩ := hstart.next (by simp)
    obtain ⟨r₂, hread₂, h₂⟩ := h₁.next (by simp)
    obtain ⟨r₃, hread₃, h₃⟩ := h₂.next hend
    exact ⟨r₃, readPrefix_tooLong hread₁ hb hread₂ hc hread₃ hd⟩

/-- The bytes behind an unfinished prefix that a one-byte read does not get: none, or a last one
that comes with the error. -/
def Withheld (r : Reader) (t : Bytes) : Prop :=
  (t = [] ∧ r.joined = false) ∨ (∃ b, t = [b]) ∧ r.joined = true

/-- An unfinished prefix ends in the error; the end of file is returned as such only in front of
the first byte. -/
theorem readPrefix_unfinished (hr : r.Gives) (hu : Unfinished u) (hbytes : r.bytes = u ++ t)
    (ht : Withheld r t) :
    ∃ r', readPrefix r =
      (.error (if u = [] then .read r.final else unexpected r.final), r') := by
  have hend : ∀ s : Bytes, r.joined = true → s ++ t ≠ [] := by
    intro s hj
    rcases ht with ⟨-, hno⟩ | ⟨⟨b, rfl⟩, -⟩
    · simp [hj] at hno
    · simp
  -- behind `u` the next read fails
  have hstuck : ∀ r', After r t r' → ∃ data r'', read 1 r' = (data, some r.final, r'') := by
    intro r' hafter
    rw [← hafter.final]
    rcases ht with ⟨rfl, -⟩ | ⟨⟨b, rfl⟩, hj⟩
    · exact read_stuck (b := 0) hafter.gives (.inl hafter.bytes)
    · exact read_stuck hafter.gives (.inr ⟨hafter.joined.mpr ⟨hj, by simp⟩, hafter.bytes⟩)
  have hstart := After.refl hr
  rw [hbytes] at hstart
  cases hu with
  | none =>
    obtain ⟨data, r₁, hread⟩ := hstuck r hstart
    exact ⟨r₁, readPrefix_error hread⟩
  | one hb =>
    obtain ⟨r₁, hread₁, h₁⟩ := hstart.next (hend [])
    obtain ⟨data, r₂, hread₂⟩ := hstuck r₁ h₁
    exact ⟨r₂, readPrefix_error_two hread₁ hb hread₂⟩
  | two hb hc =>
    obtain ⟨r₁, hread₁, h₁⟩ := hstart.next (by simp)
    obtain ⟨r₂, hread₂, h₂⟩ := h₁.next (hend [])
    obtain ⟨data, r₃, hread₃⟩ := hstuck r₂ h₂
    exact ⟨r₃, readPrefix_error_three hread₁ hb hread₂ hc hread₃⟩

/-- `io.CopyN` over complete padding. -/
theorem copyN_after (hr : r.Gives) (hn : n ≤ r.bytes.length) :
    ∃ r', copyN n r = (none, r') ∧ After r (r.bytes.drop n) r' := by
  obtain ⟨hread, -, -⟩ := readLoop_enough r n hn
  refine ⟨_, ?_, readLoop_after hr hn⟩
  simp [copyN, hread, hn]

theorem copyN_short (hn : r.bytes.length < n) : ∃ r', copyN n r = (some r.final, r') := by
  obtain ⟨hread, herr, -⟩ := readLoop_short r n hn
  refine ⟨(readLoop n r).2.2, ?_⟩
  simp [copyN, hread, herr, Nat.not_le.mpr hn]

/-- `ReadData` on padding that is cut. -/
theorem readData_padding_cut {err : ReadError} {r₁ r₂ : Reader}
    (h : readPrefix r = (.ok (false, n), r₁)) (hcopy : copyN n r₁ = (some err, r₂)) :
    readData r = (.error (unexpected err), r₂) := by
  rw [readData]
  split
  · rename_i herr
    simp [h] at herr
  · rename_i hok
    simp [h] at hok
  · rename_i m r₁' hok
    rw [h] at hok
    cases hok
    split
    · rename_i hbad
      rw [hcopy] at hbad
      cases hbad
      rfl
    · rename_i hgood
      simp [hcopy] at hgood

end Pieces

/-! ## Streams that end in a prefix -/

/-- Behind padding, the last byte is one of a prefix. -/
def EndsInPrefix (s : Bytes) : Prop :=
  ∃ z u b, s = z ++ (u ++ [b]) ∧ Paddings z ∧ Unfinished u

theorem EndsInPrefix.padded {z s : Bytes} (hz : Paddings z) (h : EndsInPrefix s) :
    EndsInPrefix (z ++ s) := by
  obtain ⟨z', u, b, rfl, hz', hu⟩ := h
  exact ⟨z ++ z', u, b, by simp, hz.append hz', hu⟩

/-- A prefix with nothing behind it. -/
theorem endsInPrefix_of {z pre : Bytes} (hz : Paddings z)
    (hpre : ∃ u b, pre = u ++ [b] ∧ Unfinished u) : EndsInPrefix (z ++ pre) := by
  obtain ⟨u, b, rfl, hu⟩ := hpre
  exact ⟨z, u, b, rfl, hz, hu⟩

/-- Something follows a prefix that the stream does not end in. -/
theorem follows_prefix {z pre t : Bytes} (hz : Paddings z)
    (hpre : ∃ u b, pre = u ++ [b] ∧ Unfinished u) (h : ¬ EndsInPrefix (z ++ (pre ++ t))) :
    t ≠ [] := by
  rintro rfl
  apply h
  rw [List.append_nil]
  exact endsInPrefix_of hz hpre

/-- `ReadData` skips padding, to the end only if that does not come with the last byte of a
prefix. -/
theorem readData_paddings {z : Bytes} (hz : Paddings z) :
    ∀ {r : Reader} {t : Bytes}, r.Gives → r.bytes = z ++ t →
      (r.joined = true → t = [] → ¬ EndsInPrefix r.bytes) →
      ∃ r', readData r = readData r' ∧ After r t r' := by
  induction hz with
  | nil =>
    intro r t hr hbytes _
    have hrefl := After.refl hr
    rw [hbytes, List.nil_append] at hrefl
    exact ⟨r, rfl, hrefl⟩
  | @chunk pre body z hpre hz ih =>
    intro r t hr hbytes hend
    have hbytes' : r.bytes = pre ++ (body ++ (z ++ t)) := by simpa using hbytes
    have hrest : r.joined = true → body ++ (z ++ t) ≠ [] := by
      intro hj hnil
      apply hend hj
      · simp only [List.append_eq_nil_iff] at hnil
        exact hnil.2.2
      · rw [hbytes', hnil, List.append_nil]
        exact endsInPrefix_of .nil hpre.unfinished
    obtain ⟨r₁, hread, h₁⟩ := readPrefix_ok hr hpre hbytes' hrest
    obtain ⟨r₂, hcopy, h₂⟩ := copyN_after (n := body.length) h₁.gives (by simp [h₁.bytes])
    rw [h₁.bytes, List.drop_left] at h₂
    have h₀₂ : After r (z ++ t) r₂ := h₁.trans h₂ (List.suffix_append _ _)
    obtain ⟨r₃, hskip, h₃⟩ := ih h₂.gives h₂.bytes (by
      intro hj ht hbad
      apply hend (h₀₂.joined.mp hj).1 ht
      have hpad : Paddings (pre ++ body ++ []) := .chunk hpre .nil
      have hmore := hbad.padded hpad
      rw [h₂.bytes] at hmore
      simpa [hbytes'] using hmore)
    exact ⟨r₃, (readData_skip hread hcopy).trans hskip, h₀₂.trans h₃ (List.suffix_append _ _)⟩

/-- An end of file past the first byte of a prefix. -/
theorem unexpected_eof : unexpected .eof = .read .unexpectedEOF := by simp [unexpected]

/-- `ReadData` on a complete data chunk. -/
theorem readData_data {r : Reader} {pre p t : Bytes} (hr : r.Gives) (hpre : Prefix true p.length pre)
    (hbytes : r.bytes = pre ++ (p ++ t)) (hend : r.joined = true → p ++ t ≠ []) :
    ∃ r', readData r = (.ok p, r') ∧ After r t r' := by
  obtain ⟨r₁, hread, h₁⟩ := readPrefix_ok hr hpre hbytes hend
  obtain ⟨r₂, hfull, h₂⟩ := readFull_after (m := p.length) h₁.gives (by simp [h₁.bytes])
  rw [h₁.bytes, List.take_left] at hfull
  rw [h₁.bytes, List.drop_left] at h₂
  refine ⟨r₂, ?_, h₁.trans h₂ (List.suffix_append _ _)⟩
  rw [readData_chunk hread, hfull]

/-- `ReadData` returns what the stream amounts to, unless the end of file comes with the last byte
of a prefix. -/
theorem readData_verdict {r : Reader} {res : Except EncapError Bytes} {rest : Bytes} (hr : r.Gives)
    (hfinal : r.final = .eof) (hend : r.joined = true → ¬ EndsInPrefix r.bytes)
    (hv : Verdict r.bytes res rest) :
    ∃ r', readData r = (res, r') ∧ ∀ p, res = .ok p → After r rest r' := by
  generalize hs : r.bytes = s at hv
  rw [hs] at hend
  -- past the padding, with what is left of the stream
  have hskip : ∀ {z t}, Paddings z → s = z ++ t →
      ∃ r', readData r = readData r' ∧ After r t r' ∧ r'.final = .eof ∧
        (r'.joined = true → ¬ EndsInPrefix (z ++ t)) := by
    intro z t hz hst
    obtain ⟨r', hread, h'⟩ := readData_paddings hz hr (hs.trans hst) fun hj _ => hs ▸ hend hj
    refine ⟨r', hread, h', h'.final.trans hfinal, fun hj => ?_⟩
    exact hst ▸ hend (h'.joined.mp hj).1
  cases hv with
  | @data z pre p _ hz hpre =>
    obtain ⟨r₁, hread, h₁, -, hend₁⟩ := hskip hz rfl
    have hmore : r₁.joined = true → p ++ rest ≠ [] := fun hj =>
      follows_prefix hz hpre.unfinished (hend₁ hj)
    obtain ⟨r₂, hdata, h₂⟩ := readData_data h₁.gives hpre h₁.bytes hmore
    refine ⟨r₂, hread.trans hdata, fun _ _ => h₁.trans h₂ ?_⟩
    exact (List.suffix_append p rest).trans (List.suffix_append pre _)
  | eof hz =>
    obtain ⟨r₁, hread, h₁, hfinal₁, -⟩ := hskip hz (List.append_nil _).symm
    have hnot : r₁.joined = false := by
      apply Bool.eq_false_iff.mpr
      intro hj
      exact bytes_of_joined hj h₁.bytes
    obtain ⟨r₂, herr⟩ := readPrefix_unfinished h₁.gives .none h₁.bytes (.inl ⟨rfl, hnot⟩)
    refine ⟨r₂, ?_, by simp⟩
    rw [hread, readData_error herr, if_pos rfl, hfinal₁]
  | @tooLong z pre t rest hz hpre =>
    obtain ⟨r₁, hread, h₁, -, hend₁⟩ := hskip hz rfl
    have hmore : r₁.joined = true → t ≠ [] := fun hj =>
      follows_prefix hz hpre.unfinished (hend₁ hj)
    obtain ⟨r₂, herr⟩ := readPrefix_overlong h₁.gives hpre h₁.bytes hmore
    exact ⟨r₂, by rw [hread, readData_error herr], by simp⟩
  | @cutPrefix z u rest hz hu hne =>
    obtain ⟨r₁, hread, h₁, hfinal₁, hend₁⟩ := hskip hz rfl
    have hnot : r₁.joined = false := by
      apply Bool.eq_false_iff.mpr
      intro hj
      exact hend₁ hj (endsInPrefix_of hz (hu.unfinished hne))
    obtain ⟨r₂, herr⟩ := readPrefix_unfinished (t := []) h₁.gives hu (by simpa using h₁.bytes)
      (.inl ⟨rfl, hnot⟩)
    refine ⟨r₂, ?_, by simp⟩
    rw [hread, readData_error herr, if_neg hne, hfinal₁, unexpected_eof]
  | @cutBody z pre t rest isData n hz hpre hshort =>
    obtain ⟨r₁, hread, h₁, hfinal₁, hend₁⟩ := hskip hz rfl
    have hmore : r₁.joined = true → t ≠ [] := fun hj =>
      follows_prefix hz hpre.unfinished (hend₁ hj)
    obtain ⟨r₂, hpre₂, h₂⟩ := readPrefix_ok h₁.gives hpre h₁.bytes hmore
    have hfinal₂ : r₂.final = .eof := h₂.final.trans hfinal₁
    rw [← h₂.bytes] at hshort
    cases isData with
    | true =>
      obtain ⟨r₃, hfull, -⟩ := readFull_short hshort
      refine ⟨r₃, ?_, by simp⟩
      rw [hread, readData_chunk hpre₂, hfull]
      by_cases hnil : r₂.bytes = [] <;> simp [hnil, hfinal₂, unexpected]
    | false =>
      obtain ⟨r₃, hcopy⟩ := copyN_short hshort
      refine ⟨r₃, ?_, by simp⟩
      rw [hread, readData_padding_cut hpre₂ hcopy, hfinal₂, unexpected_eof]

/-- A stream amounts to one thing only. -/
theorem verdict_unique {s rest rest' : Bytes} {res res' : Except EncapError Bytes}
    (h : Verdict s res rest) (h' : Verdict s res' rest') :
    res = res' ∧ ∀ p, res = .ok p → rest = rest' := by
  -- both are what `ReadData` returns when the bytes come one by one
  have hread : ∀ {res rest}, Verdict s res rest →
      ∃ r', readData (.ofBytes s) = (res, r') ∧ ∀ p, res = .ok p → After (.ofBytes s) rest r' := by
    intro res rest hv
    exact readData_verdict (gives_ofBytes s) (by simp) (by simp) (by simpa using hv)
  obtain ⟨r₁, h₁, hrest₁⟩ := hread h
  obtain ⟨r₂, h₂, hrest₂⟩ := hread h'
  rw [h₁, Prod.mk.injEq] at h₂
  obtain ⟨rfl, rfl⟩ := h₂
  exact ⟨rfl, fun p hp => (hrest₁ p hp).bytes.symm.trans (hrest₂ p hp).bytes⟩

/-- The end of file together with the last byte of a prefix: that byte is lost. -/
theorem readData_joined {r : Reader} {z u : Bytes} {b : UInt8} (hr : r.Gives)
    (hfinal : r.final = .eof) (hj : r.joined = true) (hbytes : r.bytes = z ++ (u ++ [b]))
    (hz : Paddings z) (hu : Unfinished u) :
    ∃ r', readData r = (.error (.read (if u = [] then .eof else .unexpectedEOF)), r') := by
  obtain ⟨r₁, hread, h₁⟩ := readData_paddings hz hr hbytes (by simp)
  have hj₁ : r₁.joined = true := h₁.joined.mpr ⟨hj, by simp⟩
  obtain ⟨r₂, herr⟩ := readPrefix_unfinished h₁.gives hu h₁.bytes (.inr ⟨⟨b, rfl⟩, hj₁⟩)
  refine ⟨r₂, ?_⟩
  rw [hread, readData_error herr, h₁.final, hfinal, unexpected_eof]
  split <;> rfl

/-! ## The classification -/

/-- What `ReadData` returns for a stream `s`, as the package comment has it, with `rest` left to
read. -/
structure Classified (s : Bytes) (res : Except EncapError Bytes) (rest : Bytes) : Prop where
  /-- the data of a chunk behind complete padding chunks, with all of it consumed -/
  data : ∀ p t, (res = .ok p ∧ rest = t) ↔
    ∃ z pre, s = z ++ (pre ++ (p ++ t)) ∧ Paddings z ∧ Prefix true p.length pre
  /-- `io.EOF` for nothing but padding -/
  eof : res = .error (.read .eof) ↔ Paddings s
  /-- `ErrTooLong` for three bytes that announce another one -/
  tooLong : res = .error .tooLong ↔ ∃ z pre t, s = z ++ (pre ++ t) ∧ Paddings z ∧ Overlong pre
  /-- `io.ErrUnexpectedEOF` for anything else -/
  otherwise : (∀ z pre p t, s = z ++ (pre ++ (p ++ t)) → Paddings z → ¬ Prefix true p.length pre) →
    ¬ Paddings s → (∀ z pre t, s = z ++ (pre ++ t) → Paddings z → ¬ Overlong pre) →
    res = .error (.read .unexpectedEOF)

/-- There is one classification. -/
theorem Classified.unique {s rest rest' : Bytes} {res res' : Except EncapError Bytes}
    (h : Classified s res rest) (h' : Classified s res' rest') : res = res' := by
  by_cases hdata : ∃ z pre p t, s = z ++ (pre ++ (p ++ t)) ∧ Paddings z ∧ Prefix true p.length pre
  · obtain ⟨z, pre, p, t, hin⟩ := hdata
    rw [((h.data p t).mpr ⟨z, pre, hin⟩).1, ((h'.data p t).mpr ⟨z, pre, hin⟩).1]
  by_cases heof : Paddings s
  · rw [h.eof.mpr heof, h'.eof.mpr heof]
  by_cases hlong : ∃ z pre t, s = z ++ (pre ++ t) ∧ Paddings z ∧ Overlong pre
  · rw [h.tooLong.mpr hlong, h'.tooLong.mpr hlong]
  · have hnodata : ∀ z pre p t, s = z ++ (pre ++ (p ++ t)) → Paddings z →
        ¬ Prefix true p.length pre :=
      fun z pre p t hs hz hpre => hdata ⟨z, pre, p, t, hs, hz, hpre⟩
    have hnolong : ∀ z pre t, s = z ++ (pre ++ t) → Paddings z → ¬ Overlong pre :=
      fun z pre t hs hz hpre => hlong ⟨z, pre, t, hs, hz, hpre⟩
    rw [h.otherwise hnodata heof hnolong, h'.otherwise hnodata heof hnolong]

theorem Verdict.classified {s rest : Bytes} {res : Except EncapError Bytes}
    (h : Verdict s res rest) : Classified s res rest where
  data p t := by
    constructor
    · rintro ⟨rfl, rfl⟩
      cases h with
      | data hz hpre => exact ⟨_, _, rfl, hz, hpre⟩
    · rintro ⟨z, pre, rfl, hz, hpre⟩
      obtain ⟨hres, hrest⟩ := verdict_unique h (.data hz hpre)
      exact ⟨hres, hrest p hres⟩
  eof := by
    constructor
    · rintro rfl
      cases h with
      | eof hz => exact hz
    · intro hz
      exact (verdict_unique h (.eof (t := []) hz)).1
  tooLong := by
    constructor
    · rintro rfl
      cases h with
      | tooLong hz hpre => exact ⟨_, _, _, rfl, hz, hpre⟩
    · rintro ⟨z, pre, t, rfl, hz, hpre⟩
      exact (verdict_unique h (.tooLong (t := []) hz hpre)).1
  otherwise hdata heof hlong := by
    cases h with
    | data hz hpre => exact absurd hpre (hdata _ _ _ _ rfl hz)
    | eof hz => exact absurd hz heof
    | tooLong hz hpre => exact absurd hpre (hlong _ _ _ rfl hz)
    | cutPrefix => rfl
    | cutBody => rfl

/-- The last byte `b` of a prefix that began with `u` decides what the stream amounts to. -/
def Decisive (u : Bytes) (b : UInt8) : Prop :=
  if u = [] then b ≠ 0 else (∃ isData, Prefix isData 0 (u ++ [b])) ∨ Overlong (u ++ [b])

/-- One more byte completes a prefix, continues it, or makes it too long. -/
theorem Unfinished.next {u : Bytes} (hu : Unfinished u) (b : UInt8) :
    (∃ isData n, Prefix isData n (u ++ [b])) ∨ Unfinished (u ++ [b]) ∨ Overlong (u ++ [b]) := by
  cases hu with
  | none =>
    by_cases hb : b &&& 0x40 = 0
    · exact .inl ⟨_, _, .one hb⟩
    · exact .inr (.inl (.one hb))
  | one ha =>
    by_cases hb : b &&& 0x80 = 0
    · exact .inl ⟨_, _, .two ha hb⟩
    · exact .inr (.inl (.two ha hb))
  | two ha hc =>
    by_cases hb : b &&& 0x80 = 0
    · exact .inl ⟨_, _, .three ha hc hb⟩
    · exact .inr (.inr (.three ha hc hb))

/-- A chunk without a body. -/
theorem Paddings.empty_chunk {z pre : Bytes} (hz : Paddings z) (hpre : Prefix false 0 pre) :
    Paddings (z ++ pre) := by
  have hchunk : Paddings (pre ++ [] ++ []) := .chunk hpre .nil
  simpa using hz.append hchunk

/-- Where the last byte does not decide, the stream amounts to what is returned without it. -/
theorem verdict_undecided {z u rest : Bytes} {b : UInt8} (hz : Paddings z) (hu : Unfinished u)
    (hno : ¬ Decisive u b) :
    Verdict (z ++ (u ++ [b])) (.error (.read (if u = [] then .eof else .unexpectedEOF))) rest := by
  by_cases hnil : u = []
  · subst hnil
    obtain rfl : b = 0 := by simpa [Decisive] using hno
    have hzero : Prefix false 0 [0] := Prefix.one (b := 0) (by decide)
    exact .eof (hz.empty_chunk hzero)
  · rw [Decisive, if_neg hnil, not_or] at hno
    rw [if_neg hnil]
    rcases hu.next b with ⟨isData, n, hpre⟩ | hu' | hlong
    · cases n with
      | zero => exact absurd ⟨isData, hpre⟩ hno.1
      | succ n =>
        have hcut := Verdict.cutBody (s := []) (t := rest) hz hpre (Nat.succ_pos n)
        simpa using hcut
    · exact .cutPrefix hz hu' (by simp)
    · exact absurd hlong hno.2

/-- A byte alone is nothing but padding only if it is zero. -/
theorem not_paddings_byte {z : Bytes} {b : UInt8} (hz : Paddings z) (hb : b ≠ 0) :
    ¬ Paddings (z ++ [b]) := by
  have hbits : ∀ b : UInt8, b ≠ 0 → (b &&& 0x3f).toNat = 0 → b &&& 0x40 = 0 →
      decide (b &&& 0x80 ≠ 0) = true := by decide +kernel
  intro hall
  have heof : Verdict (z ++ [b]) (.error (.read .eof)) [] := .eof hall
  by_cases hmore : b &&& 0x40 = 0
  · have hpre := Prefix.one hmore
    cases hn : (b &&& 0x3f).toNat with
    | zero =>
      rw [hn, hbits b hb hn hmore] at hpre
      have hdata : Verdict (z ++ [b]) (.ok []) [] := by
        simpa using Verdict.data (t := []) (p := []) hz hpre
      exact absurd (verdict_unique heof hdata).1 (by simp)
    | succ n =>
      rw [hn] at hpre
      have hcut : Verdict (z ++ [b]) (.error (.read .unexpectedEOF)) [] := by
        simpa using Verdict.cutBody (s := []) (t := []) hz hpre (Nat.succ_pos n)
      exact absurd (verdict_unique heof hcut).1 (by simp)
  · have hcut : Verdict (z ++ [b]) (.error (.read .unexpectedEOF)) [] :=
      .cutPrefix hz (.one hmore) (by simp)
    exact absurd (verdict_unique heof hcut).1 (by simp)

/-- Where the last byte decides, the stream amounts to something else than what is returned
without it. -/
theorem verdict_decided {z u rest : Bytes} {b : UInt8} {res : Except EncapError Bytes}
    (hz : Paddings z) (hdecides : Decisive u b) (hv : Verdict (z ++ (u ++ [b])) res rest) :
    res ≠ .error (.read (if u = [] then .eof else .unexpectedEOF)) := by
  have hclass := hv.classified
  unfold Decisive at hdecides
  split at hdecides
  · rename_i hnil
    subst hnil
    exact fun hres => not_paddings_byte hz hdecides (hclass.eof.mp hres)
  · rename_i hne
    rw [if_neg hne]
    rcases hdecides with ⟨isData, hpre⟩ | hlong
    · cases isData with
      | true =>
        have hdata := (hclass.data [] []).mpr ⟨z, u ++ [b], by simp, hz, hpre⟩
        simp [hdata.1]
      | false =>
        have heof := hclass.eof.mpr (hz.empty_chunk hpre)
        simp [heof]
    · have htoo := hclass.tooLong.mpr ⟨z, u ++ [b], [], by simp, hz, hlong⟩
      simp [htoo]

/-- On a reader that returns a byte or an error with each call, `ReadData` classifies the stream
as documented exactly if the end of file does not come together with a byte of a prefix that
decides. -/
theorem readData_classified_iff (r : Reader) (hr : r.Gives) (hfinal : r.final = .eof) :
    Classified r.bytes (readData r).1 (readData r).2.bytes ↔
      ¬ (r.joined = true ∧ ∃ z u b, r.bytes = z ++ (u ++ [b]) ∧ Paddings z ∧ Unfinished u ∧
        Decisive u b) := by
  constructor
  · rintro hclass ⟨hj, z, u, b, hbytes, hz, hu, hdecides⟩
    obtain ⟨r', hread⟩ := readData_joined hr hfinal hj hbytes hz hu
    obtain ⟨res, rest, hv⟩ := verdict_total r.bytes
    have hres := hclass.unique hv.classified
    rw [hread] at hres
    rw [hbytes] at hv
    exact verdict_decided hz hdecides hv hres.symm
  · intro hsafe
    by_cases hend : r.joined = true ∧ EndsInPrefix r.bytes
    · obtain ⟨hj, z, u, b, hbytes, hz, hu⟩ := hend
      have hno : ¬ Decisive u b := fun hdecides => hsafe ⟨hj, z, u, b, hbytes, hz, hu, hdecides⟩
      obtain ⟨r', hread⟩ := readData_joined hr hfinal hj hbytes hz hu
      rw [hread, hbytes]
      exact (verdict_undecided hz hu hno).classified
    · obtain ⟨res, rest, hv⟩ := verdict_total r.bytes
      obtain ⟨r', hread, hrest⟩ := readData_verdict hr hfinal (fun hj hin => hend ⟨hj, hin⟩) hv
      rw [hread]
      exact (hv.leaves fun p hp => (hrest p hp).bytes).classified

/-- A chunk of padding and two bytes of data behind a prefix that is not the shortest, in two
reads. -/
theorem readData_classified_data :
    ∃ r : Reader, r.Gives ∧ r.final = .eof ∧ r.bytes = [0x01, 0x00, 0xc0, 0x02, 0x07, 0x08] ∧
      Classified r.bytes (readData r).1 (readData r).2.bytes := by
  let r : Reader := [⟨[0x01, 0x00, 0xc0], none⟩, ⟨[0x02, 0x07, 0x08], none⟩]
  have hgives : r.Gives := by simp [r, Reader.Gives]
  refine ⟨r, hgives, rfl, rfl, (readData_classified_iff r hgives rfl).mpr ?_⟩
  simp [r, Reader.joined]

/-- An empty data chunk whose only byte comes with the end of file is taken for the end of the
stream. -/
theorem readData_loses_chunk :
    ∃ r : Reader, r.Gives ∧ r.final = .eof ∧ r.bytes = [0x80] ∧ Prefix true 0 [0x80] ∧
      (readData r).1 = .error (.read .eof) ∧
      ¬ Classified r.bytes (readData r).1 (readData r).2.bytes := by
  have hpre : Prefix true 0 [0x80] := Prefix.one (b := 0x80) (by decide)
  have hread : (readData [⟨[0x80], some .eof⟩]).1 = .error (.read .eof) := by
    have hprefix : readPrefix [⟨[0x80], some .eof⟩] =
        (.error (.read .eof), [⟨[], some .eof⟩]) := rfl
    rw [readData_error hprefix]
  refine ⟨[⟨[0x80], some .eof⟩], by simp [Reader.Gives], rfl, rfl, hpre, hread, fun hclass => ?_⟩
  have hdata := (hclass.data [] []).mpr ⟨[], [0x80], rfl, .nil, hpre⟩
  rw [hread] at hdata
  simp at hdata

end PTBridge.Snowflake
