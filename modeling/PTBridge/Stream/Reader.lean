import PTBridge.Stream.Bytes

/-!
# Readers

An `io.Reader` as the list of answers its source has for it: each delivery is a run of bytes,
possibly empty, and possibly an error returned together with the last of them. A `read` into a
shorter buffer takes part of a delivery; after an error the reader keeps returning it, and past
the last delivery it returns `io.EOF`.

- `read` is one `Read` call.
- `readFull` is `io.ReadFull`, `copyN` is `io.CopyN` into `ioutil.Discard`.
- `Reader.bytes` and `Reader.final` are all that `readFull` depends on: `readFull_enough` and
  `readFull_short` say what it returns for any way of delivering them.
-/

namespace PTBridge.Stream

/-- The error values of a reader. -/
inductive ReadError where
  | eof
  | unexpectedEOF
  | other (code : Nat)
  deriving DecidableEq, Repr

/-- One answer of the source. -/
structure Delivery where
  data : Bytes
  err : Option ReadError
  deriving DecidableEq, Repr

abbrev Reader := List Delivery

/-- `r.Read(p)` with `len(p) = m`: the bytes, the error, and the reader afterwards. -/
def read (m : Nat) : Reader → Bytes × Option ReadError × Reader
  | [] => ([], some .eof, [])
  | d :: ds =>
      if m < d.data.length then (d.data.take m, none, ⟨d.data.drop m, d.err⟩ :: ds)
      else
        (d.data, d.err,
          match d.err with
          | none => ds
          | some e => [⟨[], some e⟩])

/-- The loop `for n < min && err == nil` of `io.ReadAtLeast`, with `m` bytes still to read. -/
def readLoop : Nat → Reader → Bytes × Option ReadError × Reader
  | 0, r => ([], none, r)
  | _ + 1, [] => ([], some .eof, [])
  | m + 1, d :: ds =>
      if m + 1 < d.data.length then
        (d.data.take (m + 1), none, ⟨d.data.drop (m + 1), d.err⟩ :: ds)
      else
        match d.err with
        | some e => (d.data, some e, [⟨[], some e⟩])
        | none =>
            let rest := readLoop (m + 1 - d.data.length) ds
            (d.data ++ rest.1, rest.2)

/-- `io.ReadFull(r, p)` with `len(p) = m`. -/
def readFull (m : Nat) (r : Reader) : Bytes × Option ReadError × Reader :=
  let q := readLoop m r
  if m ≤ q.1.length then (q.1, none, q.2.2)
  else if q.1 ≠ [] ∧ q.2.1 = some .eof then (q.1, some .unexpectedEOF, q.2.2)
  else q

/-- `io.CopyN(ioutil.Discard, r, m)`: as `readFull`, but an early end of file stays `io.EOF`. -/
def copyN (m : Nat) (r : Reader) : Option ReadError × Reader :=
  let q := readLoop m r
  if m ≤ q.1.length then (none, q.2.2) else (q.2.1, q.2.2)

namespace Reader

/-- Everything the reader delivers before its error. -/
def bytes : Reader → Bytes
  | [] => []
  | d :: ds =>
      d.data ++
        match d.err with
        | none => bytes ds
        | some _ => []

/-- The error the reader ends with. -/
def final : Reader → ReadError
  | [] => .eof
  | d :: ds =>
      match d.err with
      | none => final ds
      | some e => e

/-- Bound on the number of reads that return no error. -/
def size : Reader → Nat
  | [] => 0
  | d :: ds => d.data.length + 1 + size ds

@[simp] theorem bytes_nil : bytes [] = [] := rfl

@[simp] theorem final_nil : final [] = .eof := rfl

end Reader

open Reader

/-! ## What the loop reads -/

/-- With enough bytes to come, the loop reads exactly the first `m` of them. -/
theorem readLoop_enough (r : Reader) (m : Nat) (hm : m ≤ r.bytes.length) :
    (readLoop m r).1 = r.bytes.take m ∧ (readLoop m r).2.2.bytes = r.bytes.drop m ∧
      (readLoop m r).2.2.final = r.final := by
  -- along the loop; what is asked for shrinks by the length of each delivery
  fun_induction readLoop m r with
  | case1 r => simp
  | case2 m => simp at hm
  | case3 m d ds hlong =>
    -- the delivery is cut, its rest stays in front
    simp [bytes, final, List.take_append_of_le_length hlong.le,
      List.drop_append_of_le_length hlong.le]
  | case4 m d ds hlong e herr =>
    -- an error comes with the delivery, whose bytes were all that was asked for
    have hle := Nat.le_of_not_lt hlong
    simp only [bytes, herr, List.append_nil]
    rw [List.take_of_length_le hle, List.drop_eq_nil_of_le hle]
    simp [final, herr]
  | case5 m d ds hlong herr rest ih =>
    have hle := Nat.le_of_not_lt hlong
    simp only [bytes, herr, List.length_append] at hm ⊢
    obtain ⟨h₁, h₂, h₃⟩ := ih (by omega)
    refine ⟨?_, ?_, ?_⟩
    · rw [List.take_append, List.take_of_length_le hle, ← h₁]
    · rw [List.drop_append, List.drop_eq_nil_of_le hle, ← h₂, List.nil_append]
    · rw [final, herr, ← h₃]

/-- With fewer bytes to come, the loop reads all of them and then the final error. -/
theorem readLoop_short (r : Reader) (m : Nat) (hm : r.bytes.length < m) :
    (readLoop m r).1 = r.bytes ∧ (readLoop m r).2.1 = some r.final ∧
      (readLoop m r).2.2.bytes = [] ∧ (readLoop m r).2.2.final = r.final := by
  fun_induction readLoop m r with
  | case1 r => simp at hm
  | case2 m => simp
  | case3 m d ds hlong =>
    -- no delivery is cut, since even all of them are too few
    simp only [bytes, List.length_append] at hm
    omega
  | case4 m d ds hlong e herr => simp [bytes, final, herr]
  | case5 m d ds hlong herr rest ih =>
    simp only [bytes, herr, List.length_append] at hm
    obtain ⟨h₁, h₂, h₃, h₄⟩ := ih (by omega)
    simp only [bytes, final, herr]
    exact ⟨by rw [← h₁], h₂, h₃, h₄⟩

/-- `io.ReadFull` with enough bytes to come. -/
theorem readFull_enough {r : Reader} {m : Nat} (h : m ≤ r.bytes.length) :
    ∃ r', readFull m r = (r.bytes.take m, none, r') ∧ r'.bytes = r.bytes.drop m ∧
      r'.final = r.final := by
  obtain ⟨h₁, h₂, h₃⟩ := readLoop_enough r m h
  refine ⟨(readLoop m r).2.2, ?_, h₂, h₃⟩
  have hlen : m ≤ (readLoop m r).1.length := by
    rw [h₁, List.length_take]
    omega
  simp only [readFull, hlen, ↓reduceIte]
  rw [h₁]

/-- `io.ReadFull` with too few bytes to come: everything is consumed, and an end of file after
at least one byte is unexpected. -/
theorem readFull_short {r : Reader} {m : Nat} (h : r.bytes.length < m) :
    ∃ r', readFull m r =
        (r.bytes, some (if r.bytes ≠ [] ∧ r.final = .eof then .unexpectedEOF else r.final), r') ∧
      r'.bytes = [] ∧ r'.final = r.final := by
  obtain ⟨h₁, h₂, h₃, h₄⟩ := readLoop_short r m h
  refine ⟨(readLoop m r).2.2, ?_, h₃, h₄⟩
  have hlen : ¬ m ≤ (readLoop m r).1.length := by
    rw [h₁]
    omega
  simp only [readFull, hlen, ↓reduceIte]
  rw [h₁, h₂]
  -- `io.EOF` is kept only if nothing at all was read
  by_cases hc : r.bytes ≠ [] ∧ r.final = .eof
  · simp [hc]
  · have hc' : ¬ (r.bytes ≠ [] ∧ some r.final = some ReadError.eof) := by simpa using hc
    rw [if_neg hc', if_neg hc, ← h₁, ← h₂]

/-- `io.ReadFull` succeeds only by taking the first `m` bytes. -/
theorem readFull_ok {r r' : Reader} {m : Nat} {b : Bytes} (h : readFull m r = (b, none, r')) :
    m ≤ r.bytes.length ∧ b = r.bytes.take m ∧ r'.bytes = r.bytes.drop m ∧ r'.final = r.final := by
  -- with too few bytes there would be an error
  by_cases hlen : m ≤ r.bytes.length
  · obtain ⟨r₁, hr, hbytes, hfinal⟩ := readFull_enough hlen
    rw [hr] at h
    cases h
    exact ⟨hlen, rfl, hbytes, hfinal⟩
  · obtain ⟨r₁, hr, -, -⟩ := readFull_short (Nat.lt_of_not_le hlen)
    rw [hr] at h
    cases h

/-! ## Reads make progress -/

theorem size_read_lt {m : Nat} {r : Reader} (hm : 0 < m) (h : (read m r).2.1 = none) :
    (read m r).2.2.size < r.size := by
  cases r with
  | nil => simp [read] at h
  | cons d ds =>
    by_cases hlong : m < d.data.length
    · simp only [read, hlong, ↓reduceIte, size, List.length_drop]
      omega
    · simp only [read, hlong, ↓reduceIte] at h ⊢
      simp only [h, size]
      omega

theorem size_readLoop_le (r : Reader) (m : Nat) : (readLoop m r).2.2.size ≤ r.size := by
  -- the rest of a cut delivery, the error put back, or the deliveries behind
  fun_induction readLoop m r with
  | case1 r => exact le_refl _
  | case2 m => exact le_refl _
  | case3 m d ds hlong =>
    simp only [size, List.length_drop]
    omega
  | case4 m d ds hlong e herr =>
    simp only [size, List.length_nil]
    omega
  | case5 m d ds hlong herr rest ih =>
    simp only [size]
    exact ih.trans (by omega)

/-! ## Readers that return data or an error -/

/-- Every read returns at least one byte and no error, or an error and no byte, as the reading end
of an `io.Pipe` does when no empty slice is written to it. -/
def Reader.Plain (r : Reader) : Prop :=
  ∀ d ∈ r, (d.data ≠ [] ∧ d.err = none) ∨ (d.data = [] ∧ d.err ≠ none)

theorem Reader.Plain.tail {d : Delivery} {ds : Reader} (h : Reader.Plain (d :: ds)) : ds.Plain :=
  fun x hx => h x (List.mem_cons_of_mem _ hx)

/-- Cutting a delivery short leaves a plain one. -/
theorem Reader.Plain.cut {d : Delivery} {ds : Reader} (h : Reader.Plain (d :: ds)) {m : Nat}
    (hlong : m < d.data.length) : Reader.Plain (⟨d.data.drop m, d.err⟩ :: ds) := by
  intro x hx
  rcases List.mem_cons.mp hx with rfl | hx
  · rcases h d List.mem_cons_self with ⟨-, herr⟩ | ⟨hnil, -⟩
    · refine Or.inl ⟨?_, herr⟩
      intro hdrop
      have hle := List.drop_eq_nil_iff.mp hdrop
      omega
    · rw [hnil] at hlong
      exact absurd hlong (Nat.not_lt_zero m)
  · exact h x (List.mem_cons_of_mem _ hx)

theorem Reader.plain_error (e : ReadError) : Reader.Plain [⟨[], some e⟩] := by
  intro x hx
  cases List.mem_singleton.mp hx
  exact Or.inr ⟨rfl, nofun⟩

/-- What is left after the loop of `io.ReadFull` is plain again. -/
theorem Reader.Plain.readLoop {r : Reader} (h : r.Plain) (m : Nat) :
    (Stream.readLoop m r).2.2.Plain := by
  fun_induction Stream.readLoop m r with
  | case1 r => exact h
  | case2 m => exact h
  | case3 m d ds hlong => exact h.cut hlong
  | case4 m d ds hlong e herr => exact plain_error e
  | case5 m d ds hlong herr rest ih => exact ih h.tail

theorem Reader.Plain.readFull {r : Reader} (h : r.Plain) (m : Nat) :
    (readFull m r).2.2.Plain := by
  unfold Stream.readFull
  dsimp only
  split
  · exact h.readLoop m
  · split <;> exact h.readLoop m

/-- A one-byte read of a plain reader returns its next byte. -/
theorem read_byte {r : Reader} (h : r.Plain) {b : UInt8} {bs : Bytes} (hbytes : r.bytes = b :: bs) :
    ∃ r', read 1 r = ([b], none, r') ∧ r'.bytes = bs ∧ r'.final = r.final ∧ r'.Plain := by
  cases r with
  | nil => cases hbytes
  | cons d ds =>
    obtain ⟨data, err⟩ := d
    rcases h ⟨data, err⟩ List.mem_cons_self with ⟨hne, herr⟩ | ⟨hnil, herr⟩
    · dsimp only at hne herr
      subst herr
      obtain ⟨x, xs, rfl⟩ := List.exists_cons_of_ne_nil hne
      simp only [bytes, List.cons_append, List.cons.injEq] at hbytes
      obtain ⟨rfl, rfl⟩ := hbytes
      -- the delivery is used up, or its rest stays in front
      cases xs with
      | nil => exact ⟨ds, by simp [read], by simp, by simp [final], h.tail⟩
      | cons y ys =>
        exact ⟨⟨y :: ys, none⟩ :: ds, by simp [read], by simp [bytes], by simp [final],
          h.cut (m := 1) (by simp)⟩
    · -- an error comes without bytes
      dsimp only at hnil herr
      obtain ⟨e, rfl⟩ := Option.ne_none_iff_exists'.mp herr
      rw [hnil] at hbytes
      simp [bytes] at hbytes

/-- Past the last byte a read of a plain reader returns the final error. -/
theorem read_end {r : Reader} (h : r.Plain) (hbytes : r.bytes = []) (m : Nat) :
    ∃ r', read m r = ([], some r.final, r') := by
  cases r with
  | nil => exact ⟨[], rfl⟩
  | cons d ds =>
    obtain ⟨data, err⟩ := d
    rcases h ⟨data, err⟩ List.mem_cons_self with ⟨hne, -⟩ | ⟨hnil, herr⟩
    · simp only [bytes, List.append_eq_nil_iff] at hbytes
      exact absurd hbytes.1 hne
    · dsimp only at hnil herr
      obtain ⟨e, rfl⟩ := Option.ne_none_iff_exists'.mp herr
      exact ⟨[⟨[], some e⟩], by simp [read, hnil, final]⟩

end PTBridge.Stream
