import PTBridge.Stream.Bytes

/-!
# Base64 and hexadecimal

`encoding/base64` with the standard alphabet and padding, and `encoding/hex`.

- `encode` goes three bytes at a time; the last group is padded to four characters.
- `decode` leaves out line ends, needs the padding, and does not look at the bits behind the last
  byte.
- `decode_encode`: decoding inverts encoding. `encode_padded`: a length of the form `3 * k + 1` ends
  in two padding characters.
-/

namespace PTBridge.Encoding

open PTBridge.Stream

namespace Base64

/-! ## The alphabet -/

/-- `A` to `Z`, `a` to `z`, `0` to `9`, `+` and `/`. -/
def alphabet : Bytes :=
  (List.range' 65 26 ++ List.range' 97 26 ++ List.range' 48 10 ++ [43, 47]).map UInt8.ofNat

/-- The padding character `=`. -/
def pad : UInt8 := 61

/-- The character for six bits. -/
def char (n : Nat) : UInt8 := alphabet.getD n 0

/-- The six bits of a character. -/
def value (c : UInt8) : Option Nat := alphabet.idxOf? c

/-- Carriage return and line feed, which the decoder ignores. -/
def lineEnd (c : UInt8) : Bool := c = 13 ∨ c = 10

/-- Each character has its own value, and is neither padding nor a line end. -/
theorem char_spec : ∀ n < 64, value (char n) = some n ∧ char n ≠ pad ∧ lineEnd (char n) = false := by
  decide +kernel

theorem value_char {n : Nat} (h : n < 64) : value (char n) = some n := (char_spec n h).1

theorem char_ne_pad {n : Nat} (h : n < 64) : char n ≠ pad := (char_spec n h).2.1

theorem char_lineEnd {n : Nat} (h : n < 64) : lineEnd (char n) = false := (char_spec n h).2.2

/-! ## Encoding -/

/-- The 24 bits of a group, with zeros for what is missing. -/
def bits (a b c : UInt8) : Nat := a.toNat * 65536 + b.toNat * 256 + c.toNat

def encode : Bytes → Bytes
  | [] => []
  | [a] => [char (bits a 0 0 / 262144), char (bits a 0 0 / 4096 % 64), pad, pad]
  | [a, b] =>
      [char (bits a b 0 / 262144), char (bits a b 0 / 4096 % 64), char (bits a b 0 / 64 % 64), pad]
  | a :: b :: c :: rest =>
      [char (bits a b c / 262144), char (bits a b c / 4096 % 64), char (bits a b c / 64 % 64),
        char (bits a b c % 64)] ++ encode rest

/-! ## Decoding -/

/-- The bytes of four values of six bits each. -/
def group (x y z w : Nat) : Bytes :=
  let val := x * 262144 + y * 4096 + z * 64 + w
  [UInt8.ofNat (val / 65536), UInt8.ofNat (val / 256), UInt8.ofNat val]

/-- The groups of four characters; padding is only allowed in the last one. -/
def decodeGroups : Bytes → Option Bytes
  | [] => some []
  | a :: b :: c :: d :: rest =>
      match value a, value b with
      | some x, some y =>
          if c = pad then
            if d = pad ∧ rest = [] then some ((group x y 0 0).take 1) else none
          else
            match value c with
            | none => none
            | some z =>
                if d = pad then
                  if rest = [] then some ((group x y z 0).take 2) else none
                else
                  match value d with
                  | none => none
                  | some w => (decodeGroups rest).map (group x y z w ++ ·)
      | _, _ => none
  | _ => none

/-- `StdEncoding.DecodeString`; `none` is a `CorruptInputError`. -/
def decode (s : Bytes) : Option Bytes := decodeGroups (s.filter fun c => !lineEnd c)

/-! ## Round trip -/

section RoundTrip

variable (a b c : UInt8)

theorem bits_lt : bits a b c < 16777216 := by
  have ha := a.toNat_lt
  have hb := b.toNat_lt
  have hc := c.toNat_lt
  unfold bits
  omega

/-- The four values of a group. -/
theorem bits_digits :
    bits a b c / 262144 * 262144 + bits a b c / 4096 % 64 * 4096 + bits a b c / 64 % 64 * 64 +
      bits a b c % 64 = bits a b c := by
  have hlt := bits_lt a b c
  omega

theorem group_bits :
    group (bits a b c / 262144) (bits a b c / 4096 % 64) (bits a b c / 64 % 64) (bits a b c % 64) =
      [a, b, c] := by
  have ha := a.toNat_lt
  have hb := b.toNat_lt
  have hc := c.toNat_lt
  simp only [group, bits_digits, List.cons.injEq, and_true]
  refine ⟨?_, ?_, ?_⟩
  · apply UInt8.toNat_inj.mp
    rw [UInt8.toNat_ofNat', bits]
    omega
  · apply UInt8.toNat_inj.mp
    rw [UInt8.toNat_ofNat', bits]
    omega
  · apply UInt8.toNat_inj.mp
    rw [UInt8.toNat_ofNat', bits]
    omega

theorem first_lt : bits a b c / 262144 < 64 := by
  apply Nat.div_lt_of_lt_mul
  exact bits_lt a b c

theorem sixBits_lt (n : Nat) : n % 64 < 64 := Nat.mod_lt _ (by decide)

end RoundTrip

/-- A group that is padded has zeros for what is missing. -/
theorem bits_one (a : UInt8) : bits a 0 0 / 64 % 64 = 0 ∧ bits a 0 0 % 64 = 0 := by
  simp only [bits, UInt8.toNat_zero]
  omega

theorem bits_two (a b : UInt8) : bits a b 0 % 64 = 0 := by
  simp only [bits, UInt8.toNat_zero]
  omega

section Groups

variable {a b c d : UInt8} {x y z w : Nat} {rest : Bytes}

/-- A group without padding. -/
theorem decodeGroups_full (ha : value a = some x) (hb : value b = some y) (hc : value c = some z)
    (hd : value d = some w) (hcp : c ≠ pad) (hdp : d ≠ pad) :
    decodeGroups (a :: b :: c :: d :: rest) = (decodeGroups rest).map (group x y z w ++ ·) := by
  simp [decodeGroups, ha, hb, hc, hd, hcp, hdp]

/-- A last group with one padding character. -/
theorem decodeGroups_two (ha : value a = some x) (hb : value b = some y) (hc : value c = some z)
    (hcp : c ≠ pad) : decodeGroups [a, b, c, pad] = some ((group x y z 0).take 2) := by
  simp [decodeGroups, ha, hb, hc, hcp]

/-- A last group with two. -/
theorem decodeGroups_one (ha : value a = some x) (hb : value b = some y) :
    decodeGroups [a, b, pad, pad] = some ((group x y 0 0).take 1) := by
  simp [decodeGroups, ha, hb]

end Groups

theorem decodeGroups_encode (s : Bytes) : decodeGroups (encode s) = some s := by
  -- group by group, as `encode` recurses
  fun_induction encode s with
  | case1 => rfl
  | case2 a =>
    have hgroup := group_bits a 0 0
    rw [(bits_one a).1, (bits_one a).2] at hgroup
    rw [decodeGroups_one (value_char (first_lt a 0 0)) (value_char (sixBits_lt _)), hgroup]
    rfl
  | case3 a b =>
    have hgroup := group_bits a b 0
    rw [bits_two a b] at hgroup
    rw [decodeGroups_two (value_char (first_lt a b 0)) (value_char (sixBits_lt _))
      (value_char (sixBits_lt _)) (char_ne_pad (sixBits_lt _)), hgroup]
    rfl
  | case4 a b c rest ih =>
    simp only [List.cons_append, List.nil_append]
    rw [decodeGroups_full (value_char (first_lt a b c)) (value_char (sixBits_lt _))
      (value_char (sixBits_lt _)) (value_char (sixBits_lt _)) (char_ne_pad (sixBits_lt _))
      (char_ne_pad (sixBits_lt _)), group_bits, ih]
    rfl

/-- No line ends are written. -/
theorem encode_lineEnd (s : Bytes) : ∀ c ∈ encode s, lineEnd c = false := by
  have hpad : lineEnd pad = false := by decide
  fun_induction encode s with
  | case1 => simp
  | case2 a => simp [char_lineEnd (first_lt a 0 0), char_lineEnd (sixBits_lt _), hpad]
  | case3 a b => simp [char_lineEnd (first_lt a b 0), char_lineEnd (sixBits_lt _), hpad]
  | case4 a b c rest ih =>
    simpa [char_lineEnd (first_lt a b c), char_lineEnd (sixBits_lt _)] using ih

theorem decode_encode (s : Bytes) : decode (encode s) = some s := by
  have hall : (encode s).filter (fun c => !lineEnd c) = encode s := by
    apply List.filter_eq_self.mpr
    intro c hc
    simp [encode_lineEnd s c hc]
  rw [decode, hall, decodeGroups_encode]

/-- One byte in the last group is padded twice. -/
theorem encode_padded {s : Bytes} (h : s.length % 3 = 1) : ∃ t, encode s = t ++ [pad, pad] := by
  fun_induction encode s with
  | case1 => simp at h
  | case2 a => exact ⟨[_, _], rfl⟩
  | case3 a b => simp at h
  | case4 a b c rest ih =>
    simp only [List.length_cons] at h
    obtain ⟨t, ht⟩ := ih (by omega)
    exact ⟨_ ++ t, by rw [ht, List.append_assoc]⟩

end Base64

namespace Hex

/-- A digit, in lower case. -/
def digit (n : Nat) : UInt8 := UInt8.ofNat (if n < 10 then 48 + n else 87 + n)

/-- `hex.EncodeToString` -/
def encode (s : Bytes) : Bytes := s.flatMap fun b => [digit (b.toNat / 16), digit (b.toNat % 16)]

theorem encode_length (s : Bytes) : (encode s).length = 2 * s.length := by
  induction s with
  | nil => rfl
  | cons b s ih =>
    simp only [encode, List.flatMap_cons, List.length_append, List.length_cons,
      List.length_nil] at ih ⊢
    omega

end Hex

/-- `strings.TrimSuffix` -/
def trimSuffix (s suffix : Bytes) : Bytes :=
  if suffix <:+ s then s.take (s.length - suffix.length) else s

/-- A suffix that is there is taken off. -/
theorem trimSuffix_append (t suffix : Bytes) : trimSuffix (t ++ suffix) suffix = t := by
  rw [trimSuffix, if_pos (List.suffix_append t suffix)]
  simp

end PTBridge.Encoding
