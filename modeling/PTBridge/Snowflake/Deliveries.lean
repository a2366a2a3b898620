import PTBridge.Snowflake.ReadData
import PTBridge.Stream.EmptyRead

/-!
# `ReadData` and how its reader delivers

`ReadData` reads the bytes of a prefix with single `Read` calls. It ignores their count, and it
looks at the error first. So it does not only depend on the bytes: a read of zero bytes behind the
first byte of a prefix repeats the byte before, and the last byte of a prefix is lost if the end of
file comes with it. In front of a prefix and in the body of a chunk both are harmless.

- `InsidePrefix` and `DecisiveEnd` say where an empty read and a joined end of file change something.
- `readAll_squeeze`: other empty reads do not matter.
- `readAll_same_iff`: readers without an empty read inside a prefix return the same exactly if they
  agree on losing their last byte.
- `empty_read_matters`: at every place inside a prefix there is a stream that an empty read changes.
-/

namespace PTBridge.Snowflake

open PTBridge.Stream

/-! ## Places in a stream -/

/-- Complete chunks of data and padding. -/
inductive Chunks : Bytes → Prop where
  | nil : Chunks []
  | chunk {isData : Bool} {pre body z : Bytes} (hpre : Prefix isData body.length pre)
      (hz : Chunks z) : Chunks (pre ++ body ++ z)

/-- Behind a byte of a prefix that announces another one. -/
def InsidePrefix (s : Bytes) : Prop := ∃ z u, s = z ++ u ∧ Chunks z ∧ Unfinished u ∧ u ≠ []

/-- The last byte is one of a prefix, and decides what the stream amounts to. -/
def DecisiveEnd (s : Bytes) : Prop :=
  ∃ z u b, s = z ++ (u ++ [b]) ∧ Chunks z ∧ Unfinished u ∧ Decisive u b

/-- The end of file comes with such a byte. -/
def LosesLast (r : Reader) : Prop := r.joined = true ∧ DecisiveEnd r.bytes

theorem Chunks.append {z z' : Bytes} (h : Chunks z) (h' : Chunks z') : Chunks (z ++ z') := by
  induction h with
  | nil => exact h'
  | chunk hpre hz ih =>
    rw [List.append_assoc]
    exact .chunk hpre ih

theorem Chunks.one {isData : Bool} {pre body : Bytes} (hpre : Prefix isData body.length pre) :
    Chunks (pre ++ body) := by
  have h := Chunks.chunk hpre .nil
  rwa [List.append_nil] at h

theorem Paddings.chunks {z : Bytes} (h : Paddings z) : Chunks z := by
  induction h with
  | nil => exact .nil
  | chunk hpre hz ih => exact .chunk hpre ih

theorem InsidePrefix.behind {z s : Bytes} (hz : Chunks z) (h : InsidePrefix s) :
    InsidePrefix (z ++ s) := by
  obtain ⟨z', u, rfl, hz', hu, hne⟩ := h
  exact ⟨z ++ z', u, by simp, hz.append hz', hu, hne⟩

theorem DecisiveEnd.behind {z s : Bytes} (hz : Chunks z) (h : DecisiveEnd s) :
    DecisiveEnd (z ++ s) := by
  obtain ⟨z', u, b, rfl, hz', hu, hdecides⟩ := h
  exact ⟨z ++ z', u, b, by simp, hz.append hz', hu, hdecides⟩

/-- Data is returned from behind complete chunks. -/
theorem Verdict.ok_chunks {s p rest : Bytes} (h : Verdict s (.ok p) rest) :
    ∃ z, s = z ++ rest ∧ Chunks z ∧ z ≠ [] := by
  cases h with
  | @data z pre _ _ hz hpre =>
    refine ⟨z ++ (pre ++ p), by simp, hz.chunks.append (.one hpre), ?_⟩
    simp [hpre.ne_nil]

/-! ## Empty reads -/

section Squeeze

variable {r : Reader}

/-- In front of a prefix, an empty read is taken for a chunk of no padding. -/
theorem readData_empty {d : Delivery} (h : d.isEmpty = true) (ds : Reader) :
    readData (d :: ds) = readData ds := by
  obtain ⟨hdata, herr⟩ := Delivery.isEmpty_iff.mp h
  have hpre : readPrefix (d :: ds) = (.ok (false, 0), ds) := by
    simp [readPrefix, Stream.read, hdata, herr]
  exact readData_skip hpre (by simp [copyN, readLoop])

/-- A prefix without an empty read in it is read from the squeezed reader as well. -/
theorem readPrefix_squeeze (h : r.EmptyFree fun s => s = [] ∨ InsidePrefix s) :
    (∃ e r', readPrefix r = (.error e, r') ∧ readPrefix r.squeeze = (.error e, r'.squeeze)) ∨
      ∃ isData n pre r', readPrefix r = (.ok (isData, n), r') ∧
        readPrefix r.squeeze = (.ok (isData, n), r'.squeeze) ∧ Prefix isData n pre ∧
        r'.EmptyFree fun s => InsidePrefix (pre ++ s) := by
  have hinside : ∀ {u : Bytes}, Unfinished u → u ≠ [] → InsidePrefix u := fun {u} hu hne =>
    ⟨[], u, rfl, .nil, hu, hne⟩
  have hmono : ∀ {pre : Bytes} {r' : Reader},
      r'.EmptyFree (fun s => pre ++ s = [] ∨ InsidePrefix (pre ++ s)) →
        r'.EmptyFree fun s => InsidePrefix (pre ++ s) := fun h => h.mono fun _ => .inr
  -- byte for byte: an error, or a byte that completes the prefix or announces another one
  rcases read_one_squeeze h (.inl rfl) with ⟨data, e, r₁, h₁, h₁'⟩ | ⟨b, r₁, h₁, h₁', hfree₁⟩
  · exact .inl ⟨_, r₁, readPrefix_error h₁, readPrefix_error h₁'⟩
  by_cases hb : b &&& 0x40 = 0
  · exact .inr ⟨_, _, [b], r₁, readPrefix_one h₁ hb, readPrefix_one h₁' hb, .one hb, hmono hfree₁⟩
  rcases read_one_squeeze hfree₁ (.inr (hinside (.one hb) (by simp))) with
    ⟨data, e, r₂, h₂, h₂'⟩ | ⟨c, r₂, h₂, h₂', hfree₂⟩
  · exact .inl ⟨_, r₂, readPrefix_error_two h₁ hb h₂, readPrefix_error_two h₁' hb h₂'⟩
  by_cases hc : c &&& 0x80 = 0
  · exact .inr ⟨_, _, [b, c], r₂, readPrefix_two h₁ hb h₂ hc, readPrefix_two h₁' hb h₂' hc,
      .two hb hc, hmono hfree₂⟩
  rcases read_one_squeeze hfree₂ (.inr (hinside (.two hb hc) (by simp))) with
    ⟨data, e, r₃, h₃, h₃'⟩ | ⟨d, r₃, h₃, h₃', hfree₃⟩
  · exact .inl ⟨_, r₃, readPrefix_error_three h₁ hb h₂ hc h₃,
      readPrefix_error_three h₁' hb h₂' hc h₃'⟩
  by_cases hd : d &&& 0x80 = 0
  · exact .inr ⟨_, _, [b, c, d], r₃, readPrefix_three h₁ hb h₂ hc h₃ hd,
      readPrefix_three h₁' hb h₂' hc h₃' hd, .three hb hc hd, hmono hfree₃⟩
  · exact .inl ⟨_, r₃, readPrefix_tooLong h₁ hb h₂ hc h₃ hd,
      readPrefix_tooLong h₁' hb h₂' hc h₃' hd⟩

/-- In front of a prefix without an empty read, none is met before it ends. -/
theorem emptyFree_start {d : Delivery} {ds : Reader} (h : Reader.EmptyFree InsidePrefix (d :: ds))
    (hd : d.isEmpty = false) :
    Reader.EmptyFree (fun s => s = [] ∨ InsidePrefix s) (d :: ds) := by
  refine ⟨fun he => ?_, fun herr => (h.2 herr).mono fun s hs => ?_⟩
  · simp [hd] at he
  · refine hs.resolve_left fun hnil => ?_
    have hempty := Delivery.isEmpty_iff.mpr ⟨(List.append_eq_nil_iff.mp hnil).1, herr⟩
    simp [hd] at hempty

/-- Behind a complete chunk the places are counted anew. -/
theorem emptyFree_behind {isData : Bool} {n : Nat} {pre body : Bytes} (hpre : Prefix isData n pre)
    (hlen : body.length = n) (h : r.EmptyFree fun s => InsidePrefix (pre ++ (body ++ s))) :
    r.EmptyFree InsidePrefix := by
  refine h.mono fun s hs => ?_
  have hchunk : Chunks (pre ++ body) := .one (by rwa [hlen])
  rw [← List.append_assoc]
  exact hs.behind hchunk

/-- `ReadData` returns the same from the squeezed reader, if no empty read is inside a prefix. -/
theorem readData_squeeze (h : r.EmptyFree InsidePrefix) :
    ∃ res r', readData r = (res, r') ∧ readData r.squeeze = (res, r'.squeeze) ∧
      ∀ p, res = .ok p → r'.EmptyFree InsidePrefix := by
  -- on the size: an empty read in front, and a chunk of padding, leave less
  induction hsize : r.size using Nat.strongRecOn generalizing r with
  | ind k ih =>
    subst hsize
    by_cases hhead : ∃ (d : Delivery) (ds : Reader), r = d :: ds ∧ d.isEmpty = true
    · obtain ⟨d, ds, rfl, hd⟩ := hhead
      obtain ⟨hdata, herr⟩ := Delivery.isEmpty_iff.mp hd
      have htail : ds.EmptyFree InsidePrefix := (h.2 herr).mono fun s hs => by simpa [hdata] using hs
      rw [readData_empty hd, squeeze_empty hd]
      exact ih ds.size (by simp [Reader.size]) htail rfl
    have hstart : r.EmptyFree fun s => s = [] ∨ InsidePrefix s := by
      cases r with
      | nil => trivial
      | cons d ds => exact emptyFree_start h (by simpa using hhead)
    rcases readPrefix_squeeze hstart with
      ⟨e, r₁, hread, hread'⟩ | ⟨isData, n, pre, r₁, hread, hread', hpre, hfree⟩
    · exact ⟨_, r₁, readData_error hread, readData_error hread', by simp⟩
    cases isData with
    | true =>
      rw [readData_chunk hread, readData_chunk hread', readFull_squeeze]
      obtain ⟨⟨p, err, r₂⟩, hfull⟩ : ∃ q, readFull n r₁ = q := ⟨_, rfl⟩
      rw [hfull]
      cases err with
      | some err => exact ⟨_, r₂, rfl, rfl, by simp⟩
      | none =>
        refine ⟨_, r₂, rfl, rfl, fun _ _ => ?_⟩
        obtain ⟨hlen, rfl, -⟩ := readFull_ok hfull
        exact emptyFree_behind hpre (List.length_take_of_le hlen) (hfree.readFull_ok hfull)
    | false =>
      obtain ⟨⟨err, r₂⟩, hcopy⟩ : ∃ q, copyN n r₁ = q := ⟨_, rfl⟩
      have hcopy' : copyN n r₁.squeeze = (err, r₂.squeeze) := by rw [copyN_squeeze, hcopy]
      cases err with
      | some err =>
        exact ⟨_, r₂, readData_padding_cut hread hcopy, readData_padding_cut hread' hcopy', by simp⟩
      | none =>
        obtain ⟨hlen, hrest⟩ := hfree.copyN_ok hcopy
        have hless : r₂.size < r.size := by
          have hlt := size_readPrefix_lt hread
          have hle := size_copyN_le n r₁
          rw [hcopy] at hle
          exact Nat.lt_of_le_of_lt hle hlt
        rw [readData_skip hread hcopy, readData_skip hread' hcopy']
        exact ih r₂.size hless (emptyFree_behind hpre (List.length_take_of_le hlen) hrest) rfl

/-- So do successive calls. -/
theorem readAll_squeeze (h : r.EmptyFree InsidePrefix) : readAll r.squeeze = readAll r := by
  induction hsize : r.size using Nat.strongRecOn generalizing r with
  | ind k ih =>
    subst hsize
    obtain ⟨res, r', hread, hread', hfree⟩ := readData_squeeze h
    cases res with
    | error err => rw [readAll_error hread, readAll_error hread']
    | ok p =>
      rw [readAll_ok hread, readAll_ok hread', ih _ (size_readData_lt hread) (hfree p rfl) rfl]

end Squeeze

/-! ## The end of file with the last byte -/

section Joined

variable {r₁ r₂ : Reader}

/-- Both readers deliver the same bytes before the end of file, and no read returns nothing. -/
structure SameBytes (r₁ r₂ : Reader) : Prop where
  gives₁ : r₁.Gives
  gives₂ : r₂.Gives
  bytes : r₁.bytes = r₂.bytes
  final₁ : r₁.final = .eof
  final₂ : r₂.final = .eof

/-- Both readers move on to the same place. -/
theorem SameBytes.after {r₁' r₂' : Reader} {rest : Bytes} (h : SameBytes r₁ r₂)
    (h₁ : After r₁ rest r₁') (h₂ : After r₂ rest r₂') : SameBytes r₁' r₂' :=
  ⟨h₁.gives, h₂.gives, h₁.bytes.trans h₂.bytes.symm, h₁.final.trans h.final₁,
    h₂.final.trans h.final₂⟩

/-- Where the last byte decides nothing, `ReadData` returns what the stream amounts to. -/
theorem readData_settles {r : Reader} {res : Except EncapError Bytes} {rest : Bytes} (hr : r.Gives)
    (hfinal : r.final = .eof) (hno : ¬ DecisiveEnd r.bytes) (hv : Verdict r.bytes res rest) :
    ∃ r', readData r = (res, r') ∧ ∀ p, res = .ok p → After r rest r' := by
  by_cases hend : r.joined = true ∧ EndsInPrefix r.bytes
  · obtain ⟨hj, z, u, b, hbytes, hz, hu⟩ := hend
    have hundecided : ¬ Decisive u b := fun hd => hno ⟨z, u, b, hbytes, hz.chunks, hu, hd⟩
    have hv' : Verdict r.bytes _ rest := hbytes ▸ verdict_undecided hz hu hundecided
    obtain ⟨r', hread⟩ := readData_joined hr hfinal hj hbytes hz hu
    rw [(verdict_unique hv hv').1]
    exact ⟨r', hread, by simp⟩
  · exact readData_verdict hr hfinal (fun hj hin => hend ⟨hj, hin⟩) hv

/-- `ReadData` on two readers that agree on how the end of file comes, or where that does not
matter. -/
theorem readData_agrees (h : SameBytes r₁ r₂)
    (hagree : r₁.joined = r₂.joined ∨ ¬ DecisiveEnd r₁.bytes) :
    ∃ res r₁' r₂' rest, readData r₁ = (res, r₁') ∧ readData r₂ = (res, r₂') ∧
      ∀ p, res = .ok p → Verdict r₁.bytes res rest ∧ After r₁ rest r₁' ∧ After r₂ rest r₂' := by
  obtain ⟨res, rest, hv⟩ := verdict_total r₁.bytes
  have hv₂ := hv
  rw [h.bytes] at hv₂
  rcases hagree with hjoined | hno
  · by_cases hend : r₁.joined = true ∧ EndsInPrefix r₁.bytes
    · -- both lose the byte
      obtain ⟨hj, z, u, b, hbytes, hz, hu⟩ := hend
      obtain ⟨r₁', hread₁⟩ := readData_joined h.gives₁ h.final₁ hj hbytes hz hu
      obtain ⟨r₂', hread₂⟩ := readData_joined h.gives₂ h.final₂ (hjoined ▸ hj) (h.bytes ▸ hbytes) hz hu
      exact ⟨_, r₁', r₂', [], hread₁, hread₂, by simp⟩
    · have hend₁ : r₁.joined = true → ¬ EndsInPrefix r₁.bytes := fun hj hin => hend ⟨hj, hin⟩
      obtain ⟨r₁', hread₁, h₁⟩ := readData_verdict h.gives₁ h.final₁ hend₁ hv
      rw [hjoined, h.bytes] at hend₁
      obtain ⟨r₂', hread₂, h₂⟩ := readData_verdict h.gives₂ h.final₂ hend₁ hv₂
      exact ⟨res, r₁', r₂', rest, hread₁, hread₂, fun p hp => ⟨hv, h₁ p hp, h₂ p hp⟩⟩
  · obtain ⟨r₁', hread₁, h₁⟩ := readData_settles h.gives₁ h.final₁ hno hv
    obtain ⟨r₂', hread₂, h₂⟩ := readData_settles h.gives₂ h.final₂ (h.bytes ▸ hno) hv₂
    exact ⟨res, r₁', r₂', rest, hread₁, hread₂, fun p hp => ⟨hv, h₁ p hp, h₂ p hp⟩⟩

theorem readAll_agrees (h : SameBytes r₁ r₂)
    (hagree : r₁.joined = r₂.joined ∨ ¬ DecisiveEnd r₁.bytes) : readAll r₁ = readAll r₂ := by
  induction hlen : r₁.bytes.length using Nat.strongRecOn generalizing r₁ r₂ with
  | ind k ih =>
    subst hlen
    obtain ⟨res, r₁', r₂', rest, hread₁, hread₂, hok⟩ := readData_agrees h hagree
    cases res with
    | error err => rw [readAll_error hread₁, readAll_error hread₂]
    | ok p =>
      obtain ⟨hv, h₁, h₂⟩ := hok p rfl
      obtain ⟨z, hbytes, hz, hne⟩ := hv.ok_chunks
      have hless : r₁'.bytes.length < r₁.bytes.length := by
        have hpos := List.length_pos_iff.mpr hne
        rw [h₁.bytes, hbytes, List.length_append]
        omega
      have hagree' : r₁'.joined = r₂'.joined ∨ ¬ DecisiveEnd r₁'.bytes := by
        rcases hagree with hjoined | hno
        · left
          rw [Bool.eq_iff_iff, h₁.joined, h₂.joined, hjoined]
        · right
          intro hend
          rw [h₁.bytes] at hend
          exact hno (hbytes ▸ hend.behind hz)
      rw [readAll_ok hread₁, readAll_ok hread₂, ih _ hless (h.after h₁ h₂) hagree' rfl]

/-- A byte that decides is returned or lost, depending on how the end of file comes. -/
theorem readAll_differs {z u : Bytes} {b : UInt8} (hz : Chunks z) (hu : Unfinished u)
    (hdecides : Decisive u b) :
    ∀ {r₁ r₂ : Reader}, SameBytes r₁ r₂ → r₁.bytes = z ++ (u ++ [b]) → r₁.joined = true →
      r₂.joined = false → readAll r₁ ≠ readAll r₂ := by
  induction hz with
  | nil =>
    intro r₁ r₂ h hbytes hj₁ hj₂
    obtain ⟨r₁', hread₁⟩ := readData_joined h.gives₁ h.final₁ hj₁ hbytes .nil hu
    obtain ⟨res, rest, hv⟩ := verdict_total r₂.bytes
    obtain ⟨r₂', hread₂, -⟩ := readData_verdict h.gives₂ h.final₂ (by simp [hj₂]) hv
    rw [← h.bytes, hbytes] at hv
    have hother := verdict_decided .nil hdecides hv
    rw [readAll_error hread₁]
    cases res with
    | error err =>
      rw [readAll_error hread₂]
      intro heq
      exact hother (congrArg _ (Prod.mk.inj heq).2.symm)
    | ok p =>
      rw [readAll_ok hread₂]
      simp
  | @chunk isData pre body z hpre hz ih =>
    intro r₁ r₂ h hbytes hj₁ hj₂
    have hbytes₁ : r₁.bytes = pre ++ (body ++ (z ++ (u ++ [b]))) := by simpa using hbytes
    have hbytes₂ := h.bytes ▸ hbytes₁
    -- both readers move on to the next chunk
    have hnext : ∀ {r₁' r₂'}, After r₁ (z ++ (u ++ [b])) r₁' → After r₂ (z ++ (u ++ [b])) r₂' →
        readAll r₁' ≠ readAll r₂' := by
      intro r₁' r₂' h₁ h₂
      refine ih (h.after h₁ h₂) h₁.bytes (h₁.joined.mpr ⟨hj₁, by simp⟩) (Bool.eq_false_iff.mpr ?_)
      intro hj
      exact absurd (h₂.joined.mp hj).1 (by simp [hj₂])
    cases isData with
    | true =>
      obtain ⟨r₁', hread₁, h₁⟩ := readData_data h.gives₁ hpre hbytes₁ (by simp)
      obtain ⟨r₂', hread₂, h₂⟩ := readData_data h.gives₂ hpre hbytes₂ (by simp)
      rw [readAll_ok hread₁, readAll_ok hread₂]
      intro heq
      apply hnext h₁ h₂
      simp only [Prod.mk.injEq, List.cons.injEq, true_and] at heq
      exact Prod.ext heq.1 heq.2
    | false =>
      have hpad : Paddings (pre ++ body ++ []) := .chunk hpre .nil
      obtain ⟨r₁', hread₁, h₁⟩ := readData_paddings hpad h.gives₁ (by simpa using hbytes₁) (by simp)
      obtain ⟨r₂', hread₂, h₂⟩ := readData_paddings hpad h.gives₂ (by simpa using hbytes₂) (by simp)
      rw [readAll_congr hread₁, readAll_congr hread₂]
      exact hnext h₁ h₂

theorem SameBytes.symm (h : SameBytes r₁ r₂) : SameBytes r₂ r₁ :=
  ⟨h.gives₂, h.gives₁, h.bytes.symm, h.final₂, h.final₁⟩

/-- A reader that returns the same as one that loses its last byte loses it too. -/
theorem losesLast_of_readAll (h : SameBytes r₁ r₂) (heq : readAll r₁ = readAll r₂)
    (hlose : LosesLast r₁) : LosesLast r₂ := by
  obtain ⟨hj₁, hend⟩ := hlose
  refine ⟨by_contra fun hj₂ => ?_, h.bytes ▸ hend⟩
  obtain ⟨z, u, b, hbytes, hz, hu, hdecides⟩ := hend
  exact readAll_differs hz hu hdecides h hbytes hj₁ (Bool.eq_false_iff.mpr hj₂) heq

end Joined

/-! ## Delivery -/

theorem losesLast_squeeze (r : Reader) : LosesLast r.squeeze ↔ LosesLast r := by
  simp [LosesLast]

/-- Two readers deliver the same bytes, in any way but for an empty read inside a prefix: successive
calls of `ReadData` return the same chunks and the same error exactly if both or none of them return
the end of file together with a byte of a prefix that decides. -/
theorem readAll_same_iff {r₁ r₂ : Reader} (hbytes : r₁.bytes = r₂.bytes) (hfinal₁ : r₁.final = .eof)
    (hfinal₂ : r₂.final = .eof) (hfree₁ : r₁.EmptyFree InsidePrefix)
    (hfree₂ : r₂.EmptyFree InsidePrefix) :
    readAll r₁ = readAll r₂ ↔ (LosesLast r₁ ↔ LosesLast r₂) := by
  have hsame : SameBytes r₁.squeeze r₂.squeeze :=
    ⟨gives_squeeze r₁, gives_squeeze r₂, by simpa using hbytes, by simpa using hfinal₁,
      by simpa using hfinal₂⟩
  rw [← readAll_squeeze hfree₁, ← readAll_squeeze hfree₂, ← losesLast_squeeze r₁,
    ← losesLast_squeeze r₂]
  generalize r₁.squeeze = q₁ at hsame
  generalize r₂.squeeze = q₂ at hsame
  constructor
  · intro heq
    exact ⟨losesLast_of_readAll hsame heq, losesLast_of_readAll hsame.symm heq.symm⟩
  · intro hlose
    apply readAll_agrees hsame
    by_cases hend : DecisiveEnd q₁.bytes
    · left
      have hend₂ : DecisiveEnd q₂.bytes := hsame.bytes ▸ hend
      simp only [LosesLast, hend, hend₂, and_true] at hlose
      exact Bool.eq_iff_iff.mpr hlose
    · exact .inr hend

theorem not_inside_nil : ¬ InsidePrefix [] := by
  rintro ⟨z, u, hs, -, -, hne⟩
  exact hne (List.append_eq_nil_iff.mp hs.symm).2

/-- Behind a prefix of one byte a chunk goes on. -/
theorem not_inside_byte {b : UInt8} (hb : b &&& 0x40 = 0) : ¬ InsidePrefix [b] := by
  rintro ⟨z, u, hs, -, hu, hne⟩
  rcases List.append_eq_singleton_iff.mp hs.symm with ⟨-, rfl⟩ | ⟨-, rfl⟩
  · cases hu with
    | one hmore => exact hmore hb
  · exact hne rfl

/-- A data chunk in one read, and in pieces with empty reads in front of it and in its body. -/
theorem readAll_same_pieces :
    ∃ r₁ r₂ : Reader, r₁ = [⟨[], none⟩, ⟨[0x82], none⟩, ⟨[], none⟩, ⟨[7, 8], none⟩] ∧
      r₂ = [⟨[0x82, 7, 8], none⟩] ∧ readAll r₁ = readAll r₂ := by
  have hbyte : ¬ InsidePrefix [0x82] := not_inside_byte (by decide)
  have hfree₁ : Reader.EmptyFree InsidePrefix
      [⟨[], none⟩, ⟨[0x82], none⟩, ⟨[], none⟩, ⟨[7, 8], none⟩] := by
    simp [Reader.EmptyFree, Delivery.isEmpty, not_inside_nil, hbyte]
  have hfree₂ : Reader.EmptyFree InsidePrefix [⟨[0x82, 7, 8], none⟩] := by
    simp [Reader.EmptyFree, Delivery.isEmpty]
  refine ⟨_, _, rfl, rfl, (@readAll_same_iff _ _ (by rfl) rfl rfl hfree₁ hfree₂).mpr ?_⟩
  simp [LosesLast, Reader.joined]

/-- An empty data chunk that comes with the end of file is lost, and an empty read behind the first
byte of a prefix turns a chunk into an error. -/
theorem readAll_depends_on_delivery :
    (∃ r₁ r₂ : Reader, r₁ = [⟨[0x80], some .eof⟩] ∧ r₂ = [⟨[0x80], none⟩] ∧
      r₁.bytes = r₂.bytes ∧ r₁.final = .eof ∧ r₂.final = .eof ∧
      readAll r₁ = ([], .read .eof) ∧ readAll r₂ = ([[]], .read .eof)) ∧
    ∃ r₁ r₂ : Reader, r₁ = [⟨[0xc0], none⟩, ⟨[], none⟩, ⟨[0x01, 7], none⟩] ∧
      r₂ = [⟨[0xc0, 0x01, 7], none⟩] ∧
      r₁.bytes = r₂.bytes ∧ r₁.final = .eof ∧ r₂.final = .eof ∧
      readAll r₁ = ([], .read .unexpectedEOF) ∧ readAll r₂ = ([[7]], .read .eof) := by
  have hfail : ∀ {r r' : Reader} {e}, readPrefix r = (.error e, r') → readAll r = ([], e) :=
    fun h => readAll_error (readData_error h)
  have hnil : readAll [] = ([], .read .eof) := @hfail [] [] _ rfl
  have hdata : ∀ {r} (r₁ : Reader) (n : Nat) (p : Bytes), readPrefix r = (.ok (true, n), r₁) →
      readFull n r₁ = (p, none, []) → readAll r = ([p], .read .eof) := by
    intro r r₁ n p hpre hfull
    have hread : readData r = (.ok p, []) := by rw [readData_chunk hpre, hfull]
    rw [readAll_ok hread, hnil]
  refine ⟨⟨_, _, rfl, rfl, rfl, rfl, rfl, ?_, ?_⟩, _, _, rfl, rfl, rfl, rfl, rfl, ?_, ?_⟩
  · exact @hfail _ [⟨[], some .eof⟩] _ rfl
  · exact hdata [] 0 [] rfl rfl
  · -- 0xc0 is read twice, so that the length is 0x40 * 128 + 1
    have hpre : readPrefix [⟨[0xc0], none⟩, ⟨[], none⟩, ⟨[0x01, 7], none⟩] =
        (.ok (true, 8193), [⟨[7], none⟩]) := rfl
    obtain ⟨r', hfull, -⟩ := readFull_short (r := [⟨[7], none⟩]) (m := 8193) (by decide)
    have hread := readData_chunk hpre
    rw [hfull] at hread
    exact readAll_error hread
  · exact hdata [⟨[7], none⟩] 1 [7] rfl rfl

/-! ## Empty reads inside a prefix -/

section Matters

variable {z u : Bytes}

theorem readPrefix_ofBytes {isData : Bool} {n : Nat} {pre : Bytes} (hpre : Prefix isData n pre)
    (r : Reader) : readPrefix (.ofBytes pre ++ r) = (.ok (isData, n), r) := by
  cases hpre with
  | one hb => exact readPrefix_one (read_ofBytes _ _ _) hb
  | two hb hc => exact readPrefix_two (read_ofBytes _ _ _) hb (read_ofBytes _ _ _) hc
  | three hb hc hd =>
    exact readPrefix_three (read_ofBytes _ _ _) hb (read_ofBytes _ _ _) hc (read_ofBytes _ _ _) hd

/-- Complete chunks give their data, whatever comes behind them. -/
theorem readAll_chunks (hz : Chunks z) :
    ∃ ps, ∀ r, readAll (.ofBytes z ++ r) = (ps ++ (readAll r).1, (readAll r).2) := by
  induction hz with
  | nil => exact ⟨[], fun r => rfl⟩
  | @chunk isData pre body z hpre hz ih =>
    obtain ⟨ps, hps⟩ := ih
    have hsplit : ∀ r, Reader.ofBytes (pre ++ body ++ z) ++ r =
        .ofBytes pre ++ (.ofBytes body ++ (.ofBytes z ++ r)) := by
      simp [ofBytes_append]
    cases isData with
    | true =>
      refine ⟨body :: ps, fun r => ?_⟩
      have hread : readData (.ofBytes (pre ++ body ++ z) ++ r) = (.ok body, .ofBytes z ++ r) := by
        rw [hsplit, readData_chunk (readPrefix_ofBytes hpre _), readFull_ofBytes]
      rw [readAll_ok hread, hps]
      rfl
    | false =>
      refine ⟨ps, fun r => ?_⟩
      have hread : readData (.ofBytes (pre ++ body ++ z) ++ r) = readData (.ofBytes z ++ r) := by
        rw [hsplit, readData_skip (readPrefix_ofBytes hpre _) (copyN_ofBytes _ _)]
      rw [readAll_congr hread, hps]

/-- Behind complete chunks, bytes that come one by one end in the error they amount to. -/
theorem readAll_chunks_error {s rest : Bytes} {e : EncapError} (hz : Chunks z)
    (hv : Verdict s (.error e) rest) : (readAll (.ofBytes (z ++ s))).2 = e := by
  obtain ⟨ps, hps⟩ := readAll_chunks hz
  obtain ⟨r', hread, -⟩ := @readData_verdict (.ofBytes s) _ rest (gives_ofBytes s) (by simp)
    (by simp) (by simpa using hv)
  rw [ofBytes_append, hps, readAll_error hread]

theorem readAll_chunks_eof (hz : Chunks z) : (readAll (.ofBytes z)).2 = .read .eof := by
  have heof : Verdict [] (.error (.read .eof)) [] := .eof .nil
  have h := readAll_chunks_error hz heof
  rwa [List.append_nil] at h

/-- The count of a read is ignored: after zero bytes, the byte before is taken again. -/
theorem moreLength_repeats {k : Nat} (b : UInt8) (n : Nat) (r : Reader) :
    moreLength (k + 1) b n (⟨[], none⟩ :: r) = moreLength (k + 1) b n (⟨[b], none⟩ :: r) := by
  simp [moreLength, Stream.read]

theorem readPrefix_repeats (hu : Unfinished u) (hne : u ≠ []) :
    ∃ c, u.getLast? = some c ∧ ∀ r : Reader,
      readPrefix (Reader.ofBytes u ++ ⟨[], none⟩ :: r) =
        readPrefix (Reader.ofBytes (u ++ [c]) ++ r) := by
  cases hu with
  | none => exact absurd rfl hne
  | @one b hb =>
    refine ⟨b, rfl, fun r => ?_⟩
    simp [Reader.ofBytes, readPrefix, Stream.read, hb, moreLength_repeats]
  | @two b c hb hc =>
    refine ⟨c, rfl, fun r => ?_⟩
    simp [Reader.ofBytes, readPrefix, moreLength, Stream.read, hb, hc]

/-- `ReadData` begins with a prefix. -/
theorem readData_congr {r r' : Reader} (h : readPrefix r = readPrefix r') :
    readData r = readData r' := by
  obtain ⟨⟨res, r₁⟩, hread⟩ : ∃ q, readPrefix r' = q := ⟨_, rfl⟩
  rw [hread] at h
  match res with
  | .error err => rw [readData_error h, readData_error hread]
  | .ok (true, n) => rw [readData_chunk h, readData_chunk hread]
  | .ok (false, n) =>
    obtain ⟨⟨err, r₂⟩, hcopy⟩ : ∃ q, copyN n r₁ = q := ⟨_, rfl⟩
    cases err with
    | none => rw [readData_skip h hcopy, readData_skip hread hcopy]
    | some err => rw [readData_padding_cut h hcopy, readData_padding_cut hread hcopy]

/-- An empty read inside a prefix is read as one more byte: the one before it again. -/
theorem readAll_repeats (hz : Chunks z) (hu : Unfinished u) (hne : u ≠ []) :
    ∃ c, u.getLast? = some c ∧ ∀ r : Reader,
      readAll (Reader.ofBytes (z ++ u) ++ ⟨[], none⟩ :: r) =
        readAll (Reader.ofBytes (z ++ (u ++ [c])) ++ r) := by
  obtain ⟨c, hlast, hrepeats⟩ := readPrefix_repeats hu hne
  obtain ⟨ps, hps⟩ := readAll_chunks hz
  refine ⟨c, hlast, fun r => ?_⟩
  rw [ofBytes_append, ofBytes_append, List.append_assoc, List.append_assoc, hps, hps,
    readAll_congr (readData_congr (hrepeats r))]

/-- A prefix that a zero completes, with a body of zeros: if the byte before the zero is repeated,
the body is too short or the prefix too long. -/
theorem verdict_repeated {c : UInt8} (hu : Unfinished u) (hlast : u.getLast? = some c) :
    ∃ isData n e, Prefix isData n (u ++ [0]) ∧ e ≠ .read .eof ∧
      Verdict (u ++ [c] ++ 0 :: List.replicate n 0) (.error e) [] := by
  have hlarge : ∀ b : UInt8, b &&& 0x40 ≠ 0 → 64 ≤ (b &&& 0x7f).toNat := by decide +kernel
  cases hu with
  | none => cases hlast
  | @one b hb =>
    obtain rfl : b = c := by simpa using hlast
    have hb' := hlarge b hb
    refine ⟨_, _, .read .unexpectedEOF, .two hb (by decide), by simp, ?_⟩
    by_cases hmore : b &&& 0x80 = 0
    · -- the second byte completes the prefix, with a length that is too large
      refine @Verdict.cutBody [] [b, b] _ _ _ _ .nil (.two hb hmore) ?_
      simp only [List.length_cons, List.length_replicate, UInt8.zero_and, UInt8.toNat_zero]
      omega
    · refine @Verdict.cutBody [] [b, b, 0] _ _ _ _ .nil (.three hb hmore (by decide)) ?_
      simp only [List.length_replicate, UInt8.zero_and, UInt8.toNat_zero]
      omega
  | @two a b ha hb =>
    obtain rfl : b = c := by simpa using hlast
    exact ⟨_, _, .tooLong, .three ha hb (by decide), by simp,
      @Verdict.tooLong [] [a, b, b] _ _ .nil (.three ha hb hb)⟩

/-- At every place inside a prefix there is a stream that an empty read there changes. -/
theorem empty_read_matters (hz : Chunks z) (hu : Unfinished u) (hne : u ≠ []) :
    ∃ t, readAll (Reader.ofBytes (z ++ u) ++ ⟨[], none⟩ :: Reader.ofBytes t) ≠
      readAll (Reader.ofBytes (z ++ u ++ t)) := by
  obtain ⟨c, hlast, hrepeats⟩ := readAll_repeats hz hu hne
  obtain ⟨isData, n, e, hpre, hother, hv⟩ := verdict_repeated hu hlast
  refine ⟨0 :: List.replicate n 0, fun heq => hother ?_⟩
  -- without the empty read the chunk is complete
  have hbody : Prefix isData (List.replicate n (0 : UInt8)).length (u ++ [0]) := by
    rwa [List.length_replicate]
  have heof := readAll_chunks_eof (hz.append (.one hbody))
  -- with it, the stream is read as one that ends in another error
  have hend := readAll_chunks_error hz hv
  rw [hrepeats, ← ofBytes_append] at heq
  calc e = (readAll (.ofBytes (z ++ (u ++ [c] ++ 0 :: List.replicate n 0)))).2 := hend.symm
    _ = (readAll (.ofBytes (z ++ (u ++ [c]) ++ 0 :: List.replicate n 0))).2 := by
      rw [List.append_assoc z]
    _ = (readAll (.ofBytes (z ++ u ++ 0 :: List.replicate n 0))).2 := by rw [heq]
    _ = .read .eof := by
      rw [← heof]
      simp

end Matters

end PTBridge.Snowflake
