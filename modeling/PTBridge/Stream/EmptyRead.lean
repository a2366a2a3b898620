import PTBridge.Stream.LastByte

/-!
# Reads of zero bytes without an error

An `io.Reader` may return nothing and no error. `io.ReadFull` and `io.CopyN` then ask again; code
that makes one `Read` call and ignores the count does not.

- `Reader.squeeze` leaves such answers out; it keeps the bytes, the final error, and whether that
  comes with the last byte.
- `Reader.EmptyFree P`: there is none where the bytes delivered so far satisfy `P`. Every read
  shifts it by what it has returned.
- `readLoop_squeeze` and `read_squeeze`: the loop of `io.ReadFull` returns the same from both readers,
  and so does a single read that does not meet one of them.
-/

namespace PTBridge.Stream

/-- An answer of no bytes and no error. -/
def Delivery.isEmpty (d : Delivery) : Bool := d.data.isEmpty && d.err.isNone

/-- The reader without its empty answers. -/
def Reader.squeeze (r : Reader) : Reader := r.filter fun d => !d.isEmpty

/-- No answer is empty where the bytes before it satisfy `P`. -/
def Reader.EmptyFree : (Bytes → Prop) → Reader → Prop
  | _, [] => True
  | P, d :: ds =>
      (d.isEmpty = true → ¬ P []) ∧ (d.err = none → EmptyFree (fun s => P (d.data ++ s)) ds)

open Reader

/-! ## Squeezing -/

section Squeeze

variable {r : Reader} {d : Delivery} {ds : Reader}

theorem Delivery.isEmpty_iff : d.isEmpty = true ↔ d.data = [] ∧ d.err = none := by
  simp [Delivery.isEmpty]

@[simp] theorem squeeze_nil : squeeze [] = [] := rfl

theorem squeeze_empty (h : d.isEmpty = true) : squeeze (d :: ds) = squeeze ds := by
  simp [squeeze, h]

theorem squeeze_cons (h : d.isEmpty = false) : squeeze (d :: ds) = d :: squeeze ds := by
  simp [squeeze, h]

/-- An error is not squeezed out. -/
@[simp] theorem squeeze_error (e : ReadError) :
    squeeze [⟨[], some e⟩] = [⟨[], some e⟩] := rfl

theorem isEmpty_of_pos (h : 0 < d.data.length) : d.isEmpty = false := by
  have hne : d.data ≠ [] := List.length_pos_iff.mp h
  simp [Delivery.isEmpty, hne]

/-- What is left of a longer delivery is not empty. -/
theorem isEmpty_cut {m : Nat} (h : m < d.data.length) :
    Delivery.isEmpty ⟨d.data.drop m, d.err⟩ = false := by
  simp [Delivery.isEmpty, h]

theorem gives_squeeze (r : Reader) : r.squeeze.Gives := by
  intro d hd
  have hno : d.isEmpty = false := by simpa [squeeze] using (List.mem_filter.mp hd).2
  by_contra hboth
  simp only [not_or, not_not] at hboth
  simp [Delivery.isEmpty_iff.mpr hboth] at hno

@[simp] theorem bytes_squeeze (r : Reader) : r.squeeze.bytes = r.bytes := by
  induction r with
  | nil => rfl
  | cons d ds ih =>
    cases h : d.isEmpty with
    | true =>
      obtain ⟨hdata, herr⟩ := Delivery.isEmpty_iff.mp h
      simp [squeeze_empty h, ih, bytes, hdata, herr]
    | false => simp [squeeze_cons h, bytes, ih]

@[simp] theorem final_squeeze (r : Reader) : r.squeeze.final = r.final := by
  induction r with
  | nil => rfl
  | cons d ds ih =>
    cases h : d.isEmpty with
    | true =>
      obtain ⟨-, herr⟩ := Delivery.isEmpty_iff.mp h
      simp [squeeze_empty h, ih, final, herr]
    | false => simp [squeeze_cons h, final, ih]

@[simp] theorem joined_squeeze (r : Reader) : r.squeeze.joined = r.joined := by
  induction r with
  | nil => rfl
  | cons d ds ih =>
    cases h : d.isEmpty with
    | true =>
      obtain ⟨-, herr⟩ := Delivery.isEmpty_iff.mp h
      simp [squeeze_empty h, ih, Reader.joined, herr]
    | false => simp [squeeze_cons h, Reader.joined, ih]

/-- The loop of `io.ReadFull` asks again after an empty answer. -/
theorem readLoop_squeeze (r : Reader) (m : Nat) : readLoop m r.squeeze =
    ((readLoop m r).1, (readLoop m r).2.1, (readLoop m r).2.2.squeeze) := by
  fun_induction readLoop m r with
  | case1 r => simp [readLoop]
  | case2 m => rfl
  | case3 m d ds hlong =>
    have hd : d.isEmpty = false := isEmpty_of_pos (Nat.zero_lt_of_lt hlong)
    simp [squeeze_cons hd, readLoop, hlong, squeeze_cons (isEmpty_cut hlong)]
  | case4 m d ds hlong e herr =>
    have hd : d.isEmpty = false := by simp [Delivery.isEmpty, herr]
    simp [squeeze_cons hd, readLoop, hlong, herr]
  | case5 m d ds hlong herr rest ih =>
    cases hd : d.isEmpty with
    | true =>
      obtain ⟨hdata, -⟩ := Delivery.isEmpty_iff.mp hd
      simpa [squeeze_empty hd, hdata, rest] using ih
    | false => simp [squeeze_cons hd, readLoop, hlong, herr, ih, rest]

/-- `io.ReadFull` and `io.CopyN`, which are made of the loop. -/
theorem readFull_squeeze (m : Nat) (r : Reader) : readFull m r.squeeze =
    ((readFull m r).1, (readFull m r).2.1, (readFull m r).2.2.squeeze) := by
  simp only [readFull, readLoop_squeeze]
  repeat' split
  all_goals rfl

theorem copyN_squeeze (m : Nat) (r : Reader) :
    copyN m r.squeeze = ((copyN m r).1, (copyN m r).2.squeeze) := by
  simp only [copyN, readLoop_squeeze]
  split <;> rfl

/-- A single read that does not meet an empty answer. -/
theorem read_squeeze {m : Nat} (h : d.isEmpty = false) : read m (squeeze (d :: ds)) =
    ((read m (d :: ds)).1, (read m (d :: ds)).2.1, (read m (d :: ds)).2.2.squeeze) := by
  rw [squeeze_cons h]
  by_cases hlong : m < d.data.length
  · simp [read, hlong, squeeze_cons (isEmpty_cut hlong)]
  · cases herr : d.err <;> simp [read, hlong, herr]

end Squeeze

/-! ## Where the empty answers are -/

section EmptyFree

variable {P Q : Bytes → Prop} {r : Reader}

/-- Fewer places to look at. -/
theorem Reader.EmptyFree.mono (h : EmptyFree P r) (hPQ : ∀ s, Q s → P s) : EmptyFree Q r := by
  induction r generalizing P Q with
  | nil => trivial
  | cons d ds ih =>
    exact ⟨fun he hq => h.1 he (hPQ [] hq), fun herr => ih (h.2 herr) fun s => hPQ (d.data ++ s)⟩

theorem Reader.EmptyFree.error (P : Bytes → Prop) (e : ReadError) :
    EmptyFree P [⟨[], some e⟩] :=
  ⟨by simp [Delivery.isEmpty], by simp⟩

/-- Taking the first bytes of a delivery. -/
theorem Reader.EmptyFree.cut {d : Delivery} {ds : Reader} {m : Nat} (h : EmptyFree P (d :: ds))
    (hlong : m < d.data.length) :
    EmptyFree (fun s => P (d.data.take m ++ s)) (⟨d.data.drop m, d.err⟩ :: ds) := by
  refine ⟨fun he => ?_, fun herr => ?_⟩
  · simp [isEmpty_cut hlong] at he
  · have hshift := h.2 herr
    simpa [← List.append_assoc] using hshift

/-- A read shifts the places by what it returns. -/
theorem Reader.EmptyFree.read (h : EmptyFree P r) (m : Nat) :
    EmptyFree (fun s => P ((read m r).1 ++ s)) (read m r).2.2 := by
  cases r with
  | nil => trivial
  | cons d ds =>
    by_cases hlong : m < d.data.length
    · simp only [Stream.read, hlong, ↓reduceIte]
      exact h.cut hlong
    · cases herr : d.err with
      | some e =>
        simp only [Stream.read, hlong, ↓reduceIte, herr]
        exact .error _ e
      | none =>
        simp only [Stream.read, hlong, ↓reduceIte, herr]
        exact h.2 herr

theorem Reader.EmptyFree.readLoop (h : EmptyFree P r) (m : Nat) :
    EmptyFree (fun s => P ((Stream.readLoop m r).1 ++ s)) (Stream.readLoop m r).2.2 := by
  -- the places are shifted on the way
  revert P
  fun_induction Stream.readLoop m r with
  | case1 r => exact fun h => h
  | case2 m => exact fun h => h
  | case3 m d ds hlong => exact fun h => h.cut hlong
  | case4 m d ds hlong e herr => exact fun _ => .error _ e
  | case5 m d ds hlong herr rest =>
    rename_i ih
    intro P h
    simp only [List.append_assoc]
    exact ih (h.2 herr)

theorem Reader.EmptyFree.readFull (h : EmptyFree P r) (m : Nat) :
    EmptyFree (fun s => P ((readFull m r).1 ++ s)) (readFull m r).2.2 := by
  unfold Stream.readFull
  dsimp only
  split
  · exact h.readLoop m
  · split <;> exact h.readLoop m

/-- `io.ReadFull` without an error. -/
theorem Reader.EmptyFree.readFull_ok {m : Nat} {p : Bytes} {r' : Reader} (h : EmptyFree P r)
    (hok : Stream.readFull m r = (p, none, r')) : EmptyFree (fun s => P (p ++ s)) r' := by
  have hrest := h.readFull m
  rwa [hok] at hrest

/-- `io.CopyN` without an error has passed over the first bytes. -/
theorem Reader.EmptyFree.copyN_ok {m : Nat} {r' : Reader} (h : EmptyFree P r)
    (hok : Stream.copyN m r = (none, r')) :
    m ≤ r.bytes.length ∧ EmptyFree (fun s => P (r.bytes.take m ++ s)) r' := by
  by_cases hm : m ≤ r.bytes.length
  · obtain ⟨htake, -, -⟩ := readLoop_enough r m hm
    have hrest := h.readLoop m
    rw [htake] at hrest
    simp only [Stream.copyN, htake, List.length_take, Nat.min_eq_left hm, le_refl, ↓reduceIte,
      Prod.mk.injEq, true_and] at hok
    exact ⟨hm, hok ▸ hrest⟩
  · obtain ⟨hall, herr, -⟩ := readLoop_short r m (Nat.lt_of_not_le hm)
    simp [Stream.copyN, hall, herr, hm] at hok

/-- A one-byte read of an answer that is not empty returns a byte if it returns no error. -/
theorem read_one_byte {d : Delivery} {ds r' : Reader} {data : Bytes} (hne : d.isEmpty = false)
    (h : read 1 (d :: ds) = (data, none, r')) : ∃ b, data = [b] := by
  obtain ⟨dd, err⟩ := d
  cases dd with
  | nil =>
    cases err with
    | none => simp [Delivery.isEmpty] at hne
    | some e => simp [Stream.read] at h
  | cons x xs =>
    refine ⟨x, ?_⟩
    cases xs with
    | nil =>
      simp only [Stream.read, List.length_singleton, Nat.lt_irrefl, ↓reduceIte,
        Prod.mk.injEq] at h
      exact h.1.symm
    | cons y ys => simpa [Stream.read] using (congrArg Prod.fst h).symm

/-- Where no answer may be empty, a one-byte read returns an error or the next byte, from the
squeezed reader as well. -/
theorem read_one_squeeze (h : EmptyFree P r) (hP : P []) :
    (∃ data e r', read 1 r = (data, some e, r') ∧
        read 1 r.squeeze = (data, some e, r'.squeeze)) ∨
      ∃ b r', read 1 r = ([b], none, r') ∧ read 1 r.squeeze = ([b], none, r'.squeeze) ∧
        EmptyFree (fun s => P (b :: s)) r' := by
  cases r with
  | nil => exact .inl ⟨[], .eof, [], rfl, rfl⟩
  | cons d ds =>
    have hne : d.isEmpty = false := Bool.eq_false_iff.mpr fun he => h.1 he hP
    have hsame := @read_squeeze d ds 1 hne
    have hrest := h.read 1
    obtain ⟨⟨data, err, r'⟩, hread⟩ : ∃ q, read 1 (d :: ds) = q := ⟨_, rfl⟩
    rw [hread] at hsame hrest
    cases err with
    | some e => exact .inl ⟨data, e, r', hread, hsame⟩
    | none =>
      obtain ⟨b, rfl⟩ := read_one_byte hne hread
      exact .inr ⟨b, r', hread, hsame, hrest⟩

end EmptyFree

end PTBridge.Stream
