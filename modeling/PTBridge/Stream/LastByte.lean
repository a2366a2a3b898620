import PTBridge.Stream.Reader

/-!
# An error together with the last byte

A `Read` may return its error together with the last bytes, or in a call of its own. `io.ReadFull`
and `io.CopyN` use the bytes either way; code that looks at the error of a one-byte read first does
not.

- `Reader.Gives`: every read returns a byte or an error, or both.
- `Reader.joined`: the error comes together with the last byte.
- `After r rest r'`: the reader stands where `rest` begins. `read_next`, `readLoop_after` and
  `readFull_after` lead there, `read_stuck` says where a one-byte read fails.
-/

namespace PTBridge.Stream

/-- Every read returns at least one byte or an error. -/
def Reader.Gives (r : Reader) : Prop := ∀ d ∈ r, d.data ≠ [] ∨ d.err ≠ none

/-- The error comes together with the last byte. -/
def Reader.joined : Reader → Bool
  | [] => false
  | d :: ds =>
      match d.err with
      | none => joined ds
      | some _ => !d.data.isEmpty

/-- Each byte in a delivery of its own, and then the end of file. -/
def Reader.ofBytes (b : Bytes) : Reader := b.map fun x => ⟨[x], none⟩

open Reader

section Basics

variable {r : Reader} {d : Delivery} {ds : Reader}

@[simp] theorem bytes_ofBytes (b : Bytes) : (ofBytes b).bytes = b := by
  induction b with
  | nil => rfl
  | cons x b ih => simpa [ofBytes, bytes] using ih

@[simp] theorem final_ofBytes (b : Bytes) : (ofBytes b).final = .eof := by
  induction b with
  | nil => rfl
  | cons x b ih => simpa [ofBytes, final] using ih

@[simp] theorem joined_ofBytes (b : Bytes) : (ofBytes b).joined = false := by
  induction b with
  | nil => rfl
  | cons x b ih => simpa [ofBytes, joined] using ih

theorem gives_ofBytes (b : Bytes) : (ofBytes b).Gives := by
  simp [Gives, ofBytes]

theorem Reader.Gives.tail (h : Gives (d :: ds)) : ds.Gives :=
  fun x hx => h x (List.mem_cons_of_mem _ hx)

theorem Reader.gives_error (e : ReadError) : Gives [⟨[], some e⟩] := by
  simp [Gives]

/-- Cutting a delivery short leaves one with bytes. -/
theorem Reader.Gives.cut (h : Gives (d :: ds)) {m : Nat} (hlong : m < d.data.length) :
    Gives (⟨d.data.drop m, d.err⟩ :: ds) := by
  intro x hx
  rcases List.mem_cons.mp hx with rfl | hx
  · left
    simpa using hlong
  · exact h x (List.mem_cons_of_mem _ hx)

theorem Reader.Gives.readLoop (h : r.Gives) (m : Nat) : (Stream.readLoop m r).2.2.Gives := by
  fun_induction Stream.readLoop m r with
  | case1 r => exact h
  | case2 m => exact h
  | case3 m d ds hlong => exact h.cut hlong
  | case4 m d ds hlong e herr => exact gives_error e
  | case5 m d ds hlong herr rest ih => exact ih h.tail

theorem bytes_of_joined (h : r.joined = true) : r.bytes ≠ [] := by
  induction r with
  | nil => simp [joined] at h
  | cons d ds ih =>
    cases herr : d.err with
    | none =>
      simp only [joined, herr] at h
      simp [bytes, herr, ih h]
    | some e =>
      simp only [joined, herr] at h
      simpa [bytes, herr] using h

end Basics

/-- A reader that stands where `rest` begins, with nothing else changed since `r`. -/
structure After (r : Reader) (rest : Bytes) (r' : Reader) : Prop where
  bytes : r'.bytes = rest
  final : r'.final = r.final
  gives : r'.Gives
  joined : r'.joined = true ↔ r.joined = true ∧ rest ≠ []

section Reads

variable {r r' : Reader} {b : UInt8} {bs : Bytes}

theorem After.refl (hr : r.Gives) : After r r.bytes r :=
  ⟨rfl, rfl, hr, fun hj => ⟨hj, bytes_of_joined hj⟩, fun hj => hj.1⟩

theorem After.trans {r₁ r₂ r₃ : Reader} {b₂ b₃ : Bytes} (h₁ : After r₁ b₂ r₂)
    (h₂ : After r₂ b₃ r₃) (hrest : b₃ <:+ b₂) : After r₁ b₃ r₃ where
  bytes := h₂.bytes
  final := h₂.final.trans h₁.final
  gives := h₂.gives
  joined := by
    have hne : b₃ ≠ [] → b₂ ≠ [] := fun h hnil => h (List.suffix_nil.mp (hnil ▸ hrest))
    rw [h₂.joined, h₁.joined]
    exact ⟨fun h => ⟨h.1.1, h.2⟩, fun h => ⟨⟨h.1, hne h.2⟩, h.2⟩⟩

/-- A one-byte read returns the next byte without an error, unless it is the last and the error
comes with it. -/
theorem read_next (hr : r.Gives) (hbytes : r.bytes = b :: bs) (hjoined : r.joined = true → bs ≠ []) :
    ∃ r', read 1 r = ([b], none, r') ∧ After r bs r' := by
  cases r with
  | nil => cases hbytes
  | cons d ds =>
    obtain ⟨data, err⟩ := d
    cases data with
    | nil =>
      -- an empty delivery has an error, and nothing comes behind it
      obtain ⟨e, rfl⟩ := Option.ne_none_iff_exists'.mp
        ((hr ⟨[], err⟩ List.mem_cons_self).resolve_left (by simp))
      simp [bytes] at hbytes
    | cons x xs =>
      simp only [bytes, List.cons_append, List.cons.injEq] at hbytes
      obtain ⟨rfl, rfl⟩ := hbytes
      cases xs with
      | nil =>
        cases err with
        | none =>
          refine ⟨ds, by simp [read], by simp, by simp [final], hr.tail, ?_⟩
          simp only [Reader.joined, List.nil_append]
          exact ⟨fun h => ⟨h, bytes_of_joined h⟩, fun h => h.1⟩
        | some e => simp [Reader.joined] at hjoined
      | cons y ys =>
        refine ⟨⟨y :: ys, err⟩ :: ds, by simp [read], by simp [bytes], by simp [final], ?_, ?_⟩
        · exact hr.cut (m := 1) (by simp)
        · cases err <;> simp [Reader.joined]

/-- A reader that has moved on by one byte still has the next one to itself. -/
theorem After.next (h : After r (b :: bs) r') (hend : r.joined = true → bs ≠ []) :
    ∃ r'', read 1 r' = ([b], none, r'') ∧ After r bs r'' := by
  have hjoined : r'.joined = true → bs ≠ [] := fun hj => hend (h.joined.mp hj).1
  obtain ⟨r'', hread, hafter⟩ := read_next h.gives h.bytes hjoined
  exact ⟨r'', hread, h.trans hafter (List.suffix_cons b bs)⟩

/-- Where a one-byte read returns an error: at the end, and at a last byte that the error comes
with. -/
theorem read_stuck (hr : r.Gives) (h : r.bytes = [] ∨ r.joined = true ∧ r.bytes = [b]) :
    ∃ data r', read 1 r = (data, some r.final, r') := by
  cases r with
  | nil => exact ⟨[], [], rfl⟩
  | cons d ds =>
    obtain ⟨data, err⟩ := d
    cases err with
    | some e =>
      have hshort : ¬ 1 < data.length := by
        rcases h with h | ⟨-, h⟩
        · simp only [bytes, List.append_nil] at h
          simp [h]
        · simp only [bytes, List.append_nil] at h
          simp [h]
      exact ⟨data, [⟨[], some e⟩], by simp [read, hshort, final]⟩
    | none =>
      -- a delivery without an error has a byte, and a joined error has one behind it
      have hne : data ≠ [] := by simpa using hr ⟨data, none⟩ List.mem_cons_self
      rcases h with h | ⟨hj, h⟩
      · simp [bytes, hne] at h
      · simp only [Reader.joined] at hj
        have hbehind := bytes_of_joined hj
        have hlen := congrArg List.length h
        simp only [bytes, List.length_append, List.length_singleton] at hlen
        have h₁ := List.length_pos_iff.mpr hne
        have h₂ := List.length_pos_iff.mpr hbehind
        omega

/-- The loop of `io.ReadFull` with enough bytes to come leaves the reader behind them. -/
theorem readLoop_after (hr : r.Gives) {m : Nat} (hm : m ≤ r.bytes.length) :
    After r (r.bytes.drop m) (readLoop m r).2.2 := by
  obtain ⟨-, hbytes, hfinal⟩ := readLoop_enough r m hm
  refine ⟨hbytes, hfinal, hr.readLoop m, ?_⟩
  clear hbytes hfinal
  fun_induction readLoop m r with
  | case1 r => exact ⟨fun h => ⟨h, bytes_of_joined h⟩, fun h => h.1⟩
  | case2 m => simp [Reader.joined]
  | case3 m d ds hlong =>
    have hne : d.data ≠ [] := by
      rintro hnil
      simp [hnil] at hlong
    cases herr : d.err with
    | none => simp [hlong, Reader.joined, herr, bytes, List.drop_append]
    | some e => simp [hlong, Reader.joined, herr, bytes, hne]
  | case4 m d ds hlong e herr =>
    have hdrop : d.data.drop (m + 1) = [] := List.drop_eq_nil_of_le (Nat.le_of_not_lt hlong)
    simp [Reader.joined, herr, bytes, hdrop]
  | case5 m d ds hlong herr rest ih =>
    have hdrop : d.data.drop (m + 1) = [] := List.drop_eq_nil_of_le (Nat.le_of_not_lt hlong)
    simp only [bytes, herr, List.length_append] at hm
    have hrest := ih hr.tail (by omega)
    simpa [Reader.joined, herr, bytes, List.drop_append, hdrop] using hrest

/-- `io.ReadFull` with enough bytes to come. -/
theorem readFull_after (hr : r.Gives) {m : Nat} (hm : m ≤ r.bytes.length) :
    ∃ r', readFull m r = (r.bytes.take m, none, r') ∧ After r (r.bytes.drop m) r' := by
  obtain ⟨htake, -, -⟩ := readLoop_enough r m hm
  refine ⟨(readLoop m r).2.2, ?_, readLoop_after hr hm⟩
  simp [readFull, htake, hm]

/-! ### Byte by byte -/

theorem ofBytes_append (b b' : Bytes) : ofBytes (b ++ b') = ofBytes b ++ ofBytes b' := by
  simp [ofBytes]

theorem read_ofBytes (b : UInt8) (bs : Bytes) (r : Reader) :
    read 1 (ofBytes (b :: bs) ++ r) = ([b], none, ofBytes bs ++ r) := by
  simp [ofBytes, read]

/-- Bytes that come one by one are read to the last, whatever comes behind them. -/
theorem readLoop_ofBytes (b : Bytes) (r : Reader) :
    readLoop b.length (ofBytes b ++ r) = (b, none, r) := by
  induction b with
  | nil => simp [ofBytes, readLoop]
  | cons x b ih =>
    have ih' : readLoop b.length (List.map (fun x => ⟨[x], none⟩) b ++ r) = (b, none, r) := ih
    simp [ofBytes, readLoop, ih']

theorem readFull_ofBytes (b : Bytes) (r : Reader) :
    readFull b.length (ofBytes b ++ r) = (b, none, r) := by
  simp [readFull, readLoop_ofBytes]

theorem copyN_ofBytes (b : Bytes) (r : Reader) :
    copyN b.length (ofBytes b ++ r) = (none, r) := by
  simp [copyN, readLoop_ofBytes]

end Reads

end PTBridge.Stream
