import PTBridge.Stream.Bytes

/-!
# IP addresses and their text

An address is a byte string of length 4 or 16, and the 16-byte addresses with the prefix
`::ffff:0:0/96` stand for the 4-byte ones. `IP.string` prints an address as a dotted quad or in
hexadecimal groups with the longest run of zero groups left out, and `parseIP` reads such texts.

- `IPText` is what a program may rely on: what is printed is read back as an equal address.
- `parseIP_string` proves it of the functions here, and `IPText.go` collects them.
-/

namespace PTBridge.Net

open PTBridge.Stream

/-! ## Addresses -/

/-- `net.IP`. -/
abbrev IP := Bytes

/-- The first twelve bytes of a 4-byte address in its 16-byte form. -/
def v4InV6Prefix : Bytes := [0, 0, 0, 0, 0, 0, 0, 0, 0, 0, 0xff, 0xff]

namespace IP

/-- `ip.To4()`; `none` is nil. -/
def to4 (ip : IP) : Option IP :=
  if ip.length = 4 then some ip
  else if ip.length = 16 ∧ ip.take 12 = v4InV6Prefix then some (ip.drop 12)
  else none

/-- `ip.To16()`. -/
def to16 (ip : IP) : Option IP :=
  if ip.length = 4 then some (v4InV6Prefix ++ ip)
  else if ip.length = 16 then some ip
  else none

/-- `ip.Equal(x)`: a 4-byte address and its 16-byte form are equal. -/
def equal (ip x : IP) : Bool :=
  if ip.length = x.length then ip = x
  else if ip.length = 4 ∧ x.length = 16 then x.take 12 = v4InV6Prefix ∧ ip = x.drop 12
  else if ip.length = 16 ∧ x.length = 4 then ip.take 12 = v4InV6Prefix ∧ ip.drop 12 = x
  else false

theorem equal_refl (ip : IP) : ip.equal ip = true := by
  simp [equal]

/-- Equal addresses are the same bytes, or one is the 16-byte form of the other. -/
theorem equal_iff {ip x : IP} :
    ip.equal x = true ↔
      ip = x ∨ (ip.length = 4 ∧ x = v4InV6Prefix ++ ip) ∨ (x.length = 4 ∧ ip = v4InV6Prefix ++ x) := by
  have hpre : v4InV6Prefix.length = 12 := rfl
  have hsplit : ∀ a b : Bytes, a.length = 4 → b.length = 16 →
      (b = v4InV6Prefix ++ a ↔ b.take 12 = v4InV6Prefix ∧ a = b.drop 12) := by
    intro a b _ _
    constructor
    · rintro rfl
      exact ⟨rfl, rfl⟩
    · rintro ⟨hb, rfl⟩
      rw [← hb, List.take_append_drop]
  unfold equal
  split
  · rename_i hlen
    simp only [decide_eq_true_eq]
    constructor
    · exact Or.inl
    · rintro (h | ⟨h4, rfl⟩ | ⟨h4, rfl⟩)
      · exact h
      · simp [hpre] at hlen
      · simp [hpre] at hlen
  · rename_i hne
    have hneq : ip ≠ x := fun h => hne (by rw [h])
    split
    · rename_i hlen
      have hx : x.length ≠ 4 := by omega
      simp [hsplit ip x hlen.1 hlen.2, hneq, hx, hlen.1]
    · rename_i hlen
      split
      · rename_i hlen'
        have hip : ip.length ≠ 4 := by omega
        simp [hsplit x ip hlen'.2 hlen'.1, hneq, hip, hlen'.2]
        intro _
        exact eq_comm
      · rename_i hlen'
        simp only [Bool.false_eq_true, false_iff]
        rintro (h | ⟨h4, rfl⟩ | ⟨h4, rfl⟩)
        · exact hneq h
        · exact hlen ⟨h4, by simp [hpre, h4]⟩
        · exact hlen' ⟨by simp [hpre, h4], h4⟩

theorem equal_trans {ip x y : IP} (h : ip.equal x = true) (h' : x.equal y = true) :
    ip.equal y = true := by
  rw [equal_iff] at h h' ⊢
  rcases h with rfl | ⟨h4, rfl⟩ | ⟨h4, rfl⟩
  · exact h'
  · -- then `x` has 16 bytes
    rcases h' with rfl | ⟨hlen, -⟩ | ⟨hlen, heq⟩
    · exact Or.inr (Or.inl ⟨h4, rfl⟩)
    · simp [v4InV6Prefix, h4] at hlen
    · exact Or.inl (List.append_cancel_left heq)
  · rcases h' with rfl | ⟨-, rfl⟩ | ⟨-, rfl⟩
    · exact Or.inr (Or.inr ⟨h4, rfl⟩)
    · exact Or.inl rfl
    · simp [v4InV6Prefix] at h4

/-- The 4-byte form is the same address. -/
theorem equal_to4 {ip ip4 : IP} (h : ip.to4 = some ip4) : ip4.equal ip = true := by
  unfold to4 at h
  split at h
  · cases h
    exact equal_refl ip
  · split at h
    · rename_i hlen
      cases h
      simp [equal, hlen]
    · cases h

/-- So is the 16-byte form. -/
theorem equal_to16 {ip ip16 : IP} (h : ip.to16 = some ip16) : ip16.equal ip = true := by
  unfold to16 at h
  split at h
  · rename_i hlen
    cases h
    simp [equal, v4InV6Prefix, hlen]
  · split at h
    · cases h
      exact equal_refl ip
    · cases h

theorem length_to4 {ip ip4 : IP} (h : ip.to4 = some ip4) : ip4.length = 4 := by
  unfold to4 at h
  split at h
  · rename_i hlen
    cases h
    exact hlen
  · split at h
    · rename_i hlen
      cases h
      rw [List.length_drop, hlen.1]
    · cases h

/-- An address without a 4-byte form has sixteen bytes. -/
theorem length_to16 {ip ip16 : IP} (h4 : ip.to4 = none) (h16 : ip.to16 = some ip16) :
    ip16.length = 16 := by
  unfold to16 at h16
  split at h16
  · rename_i hlen
    simp [to4, hlen] at h4
  · split at h16
    · rename_i hlen
      cases h16
      exact hlen
    · cases h16

end IP

/-- A printer and a parser of addresses, such that the parser reads back what is printed. -/
structure IPText where
  /-- `net.ParseIP`; `none` is nil -/
  parseIP : Bytes → Option IP
  /-- `net.IP.String` -/
  string : IP → Bytes
  parse_string : ∀ ip : IP, ip.length = 4 ∨ ip.length = 16 →
    ∃ ip', parseIP (string ip) = some ip' ∧ ip'.equal ip = true

/-! ## Digits -/

def dot : UInt8 := 46

def colon : UInt8 := 58

def percent : UInt8 := 37

def decDigit (c : UInt8) : Option Nat :=
  if 48 ≤ c.toNat ∧ c.toNat ≤ 57 then some (c.toNat - 48) else none

def hexDigit (c : UInt8) : Option Nat :=
  if 48 ≤ c.toNat ∧ c.toNat ≤ 57 then some (c.toNat - 48)
  else if 97 ≤ c.toNat ∧ c.toNat ≤ 102 then some (c.toNat - 87)
  else if 65 ≤ c.toNat ∧ c.toNat ≤ 70 then some (c.toNat - 55)
  else none

/-- The digits `0123456789abcdef`. -/
def digitChar (d : Nat) : UInt8 := UInt8.ofNat (if d < 10 then 48 + d else 87 + d)

theorem decDigit_digitChar {d : Nat} (h : d < 10) : decDigit (digitChar d) = some d := by
  have hall : ∀ d : Fin 10, decDigit (digitChar d) = some d.val := by decide
  exact hall ⟨d, h⟩

theorem hexDigit_digitChar {d : Nat} (h : d < 16) : hexDigit (digitChar d) = some d := by
  have hall : ∀ d : Fin 16, hexDigit (digitChar d) = some d.val := by decide
  exact hall ⟨d, h⟩

/-! ## Dotted quads -/

/-- A byte in decimal, without leading zeros. -/
def decimal (b : UInt8) : Bytes :=
  (if 100 ≤ b.toNat then [digitChar (b.toNat / 100)] else []) ++
    (if 10 ≤ b.toNat then [digitChar (b.toNat / 10 % 10)] else []) ++ [digitChar (b.toNat % 10)]

def string4 : Bytes → Bytes
  | [a, b, c, d] =>
      decimal a ++ dot :: (decimal b ++ dot :: (decimal c ++ dot :: decimal d))
  | _ => []

/-- The loop of `parseIPv4Fields`: the fields so far, and the value and number of digits of the
current one. -/
def parseIPv4Loop (fields : Bytes) (val digLen : Nat) : Bytes → Option Bytes
  | [] => if fields.length < 3 then none else some (fields ++ [UInt8.ofNat val])
  | c :: cs =>
      match decDigit c with
      | some d =>
          if digLen = 1 ∧ val = 0 then none
          else if 255 < val * 10 + d then none
          else parseIPv4Loop fields (val * 10 + d) (digLen + 1) cs
      | none =>
          if c = dot then
            -- an empty field, at the start, at the end or between two dots
            if digLen = 0 ∨ cs = [] then none
            else if fields.length = 3 then none
            else parseIPv4Loop (fields ++ [UInt8.ofNat val]) 0 0 cs
          else none

def parseIPv4Fields (s : Bytes) : Option Bytes := parseIPv4Loop [] 0 0 s

theorem parseIPv4Loop_digit {fields : Bytes} {val digLen d : Nat} (cs : Bytes) (hd : d < 10)
    (hzero : ¬ (digLen = 1 ∧ val = 0)) (hval : val * 10 + d ≤ 255) :
    parseIPv4Loop fields val digLen (digitChar d :: cs) =
      parseIPv4Loop fields (val * 10 + d) (digLen + 1) cs := by
  have hle : ¬ 255 < val * 10 + d := by omega
  simp only [parseIPv4Loop, decDigit_digitChar hd, if_neg hzero, if_neg hle]

/-- The digits of a byte are read as its value. -/
theorem parseIPv4Loop_decimal (fields : Bytes) (b : UInt8) (cs : Bytes) :
    ∃ n, parseIPv4Loop fields 0 0 (decimal b ++ cs) =
      parseIPv4Loop fields b.toNat (n + 1) cs := by
  have hb := b.toNat_lt
  unfold decimal
  by_cases h100 : 100 ≤ b.toNat
  · have h10 : 10 ≤ b.toNat := by omega
    refine ⟨2, ?_⟩
    simp only [h100, h10, ↓reduceIte, List.cons_append, List.nil_append]
    rw [parseIPv4Loop_digit _ (by omega) (by omega) (by omega),
      parseIPv4Loop_digit _ (by omega) (by omega) (by omega),
      parseIPv4Loop_digit _ (by omega) (by omega) (by omega)]
    congr 1
    omega
  · by_cases h10 : 10 ≤ b.toNat
    · refine ⟨1, ?_⟩
      simp only [h100, h10, ↓reduceIte, List.cons_append, List.nil_append]
      rw [parseIPv4Loop_digit _ (by omega) (by omega) (by omega),
        parseIPv4Loop_digit _ (by omega) (by omega) (by omega)]
      congr 1
      omega
    · refine ⟨0, ?_⟩
      simp only [h100, h10, ↓reduceIte, List.cons_append, List.nil_append]
      rw [parseIPv4Loop_digit _ (by omega) (by omega) (by omega)]
      congr 1
      omega

theorem decimal_ne_nil (b : UInt8) : decimal b ≠ [] := by
  simp [decimal]

/-- A byte and the dot behind it are read as one more field. -/
theorem parseIPv4Loop_field {fields : Bytes} (b : UInt8) {cs : Bytes} (hcs : cs ≠ [])
    (hlen : fields.length < 3) :
    parseIPv4Loop fields 0 0 (decimal b ++ dot :: cs) = parseIPv4Loop (fields ++ [b]) 0 0 cs := by
  obtain ⟨n, hn⟩ := parseIPv4Loop_decimal fields b (dot :: cs)
  have hdot : decDigit dot = none := by decide
  have hlen' : fields.length ≠ 3 := by omega
  rw [hn]
  simp [parseIPv4Loop, hdot, hcs, hlen']

theorem parseIPv4Fields_string4 (a b c d : UInt8) :
    parseIPv4Fields (string4 [a, b, c, d]) = some [a, b, c, d] := by
  unfold parseIPv4Fields string4
  rw [parseIPv4Loop_field _ (by simp [decimal_ne_nil]) (by simp),
    parseIPv4Loop_field _ (by simp [decimal_ne_nil]) (by simp),
    parseIPv4Loop_field _ (by simp [decimal_ne_nil]) (by simp)]
  obtain ⟨n, hn⟩ := parseIPv4Loop_decimal [a, b, c] d []
  rw [List.append_nil] at hn
  simp only [List.nil_append, List.cons_append]
  rw [hn]
  simp [parseIPv4Loop]

/-! ## Hexadecimal groups -/

/-- A 16-bit group in hexadecimal, without leading zeros. -/
def hexText (g : UInt16) : Bytes :=
  (if 0x1000 ≤ g.toNat then [digitChar (g.toNat / 0x1000)] else []) ++
    (if 0x100 ≤ g.toNat then [digitChar (g.toNat / 0x100 % 16)] else []) ++
    (if 0x10 ≤ g.toNat then [digitChar (g.toNat / 0x10 % 16)] else []) ++ [digitChar (g.toNat % 16)]

/-- Groups with colons between them. -/
def joinColon : List UInt16 → Bytes
  | [] => []
  | [g] => hexText g
  | g :: g' :: gs => hexText g ++ colon :: joinColon (g' :: gs)

/-- The 16-bit groups of an address. -/
def groups : Bytes → List UInt16
  | a :: b :: rest => uint16 [a, b] :: groups rest
  | _ => []

def groupBytes (gs : List UInt16) : Bytes := gs.flatMap putUint16

/-- The number of zero groups at position `i`. -/
def zerosAt (gs : List UInt16) (i : Nat) : Nat := ((gs.drop i).takeWhile (· = 0)).length

def runLength : Option (Nat × Nat) → Nat
  | none => 0
  | some (i, j) => j - i

/-- The first of the longest runs of at least two zero groups, as its start and its end. -/
def zeroRun (gs : List UInt16) : Option (Nat × Nat) :=
  (List.range 8).foldl
    (fun z i =>
      if 2 ≤ zerosAt gs i ∧ runLength z < zerosAt gs i then some (i, i + zerosAt gs i) else z)
    none

def string6 (gs : List UInt16) : Bytes :=
  match zeroRun gs with
  | none => joinColon gs
  | some (i, j) => joinColon (gs.take i) ++ colon :: colon :: joinColon (gs.drop j)

/-- The hexadecimal number at the front: its value, its number of digits, and what follows. -/
def hexGroup (acc off : Nat) : Bytes → Option (Nat × Nat × Bytes)
  | [] => some (acc, off, [])
  | c :: cs =>
      match hexDigit c with
      | none => some (acc, off, c :: cs)
      | some d =>
          if 3 < off then none
          else if 0xffff < acc * 16 + d then none
          else hexGroup (acc * 16 + d) (off + 1) cs

/-- The loop of `parseIPv6`, with room for `n` more groups: the bytes so far, and where among them
the ellipsis stands. -/
def parseIPv6Loop : Nat → Bytes → Option Nat → Bytes → Option (Bytes × Option Nat × Bytes)
  | 0, ip, ellipsis, s => some (ip, ellipsis, s)
  | n + 1, ip, ellipsis, s =>
      match hexGroup 0 0 s with
      | none => none
      | some (acc, off, rest) =>
          if off = 0 then none
          else if rest.head? = some dot then
            -- the last four bytes may be a dotted quad
            if ellipsis = none ∧ ip.length ≠ 12 then none
            else if 16 < ip.length + 4 then none
            else
              match parseIPv4Fields s with
              | none => none
              | some fields => some (ip ++ fields, ellipsis, [])
          else
            let ip' := ip ++ putUint16 (UInt16.ofNat acc)
            match rest with
            | [] => some (ip', ellipsis, [])
            | c :: s' =>
                if c ≠ colon then none
                else
                  match s' with
                  | [] => none
                  | c' :: s'' =>
                      if c' ≠ colon then parseIPv6Loop n ip' ellipsis s'
                      else if ellipsis ≠ none then none
                      else if s'' = [] then some (ip', some ip'.length, [])
                      else parseIPv6Loop n ip' (some ip'.length) s''

/-- The end of `parseIPv6`: the whole text is used, and the ellipsis stands for at least one group. -/
def expand : Bytes × Option Nat × Bytes → Option Bytes
  | (ip, ellipsis, s) =>
      if s ≠ [] then none
      else if ip.length < 16 then
        match ellipsis with
        | none => none
        | some k => some (ip.take k ++ List.replicate (16 - ip.length) 0 ++ ip.drop k)
      else if ellipsis ≠ none then none
      else some ip

/-- `parseIPv6`; an address with a zone is not a `net.IP`. -/
def parseIPv6 (s : Bytes) : Option Bytes :=
  if percent ∈ s then none
  else
    match s with
    | c :: c' :: s' =>
        if c = colon ∧ c' = colon then
          if s' = [] then some (List.replicate 16 0)
          else (parseIPv6Loop 8 [] (some 0) s').bind expand
        else (parseIPv6Loop 8 [] none s).bind expand
    | _ => (parseIPv6Loop 8 [] none s).bind expand

/-! ## Both forms -/

/-- `net.ParseIP`: the first separator tells the form. -/
def parseIP (s : Bytes) : Option IP :=
  match s.find? (fun c => c = dot ∨ c = colon ∨ c = percent) with
  | none => none
  | some c =>
      if c = dot then (parseIPv4Fields s).map (v4InV6Prefix ++ ·)
      else if c = colon then parseIPv6 s
      else none

/-- `net.IP.String`. -/
def IP.string (ip : IP) : Bytes :=
  if ip = [] then [60, 110, 105, 108, 62]  -- "<nil>"
  else if ip.length ≠ 4 ∧ ip.length ≠ 16 then
    63 :: ip.flatMap fun b => [digitChar (b.toNat / 16), digitChar (b.toNat % 16)]  -- "?"
  else
    match ip.to4 with
    | some ip4 => string4 ip4
    | none => string6 (groups ip)

/-! ## Reading back groups -/

theorem hexGroup_digit {acc off d : Nat} (cs : Bytes) (hd : d < 16) (hoff : off ≤ 3)
    (hacc : acc * 16 + d ≤ 0xffff) :
    hexGroup acc off (digitChar d :: cs) = hexGroup (acc * 16 + d) (off + 1) cs := by
  have hoff' : ¬ 3 < off := by omega
  have hacc' : ¬ 0xffff < acc * 16 + d := by omega
  simp only [hexGroup, hexDigit_digitChar hd, if_neg hoff', if_neg hacc']

theorem hexGroup_stop (acc off : Nat) {cs : Bytes} (h : ∀ c ∈ cs.head?, hexDigit c = none) :
    hexGroup acc off cs = some (acc, off, cs) := by
  cases cs with
  | nil => rfl
  | cons c cs =>
    have hc : hexDigit c = none := h c rfl
    simp only [hexGroup, hc]

/-- The digits of a group are read as its value. -/
theorem hexGroup_hexText (g : UInt16) {cs : Bytes} (h : ∀ c ∈ cs.head?, hexDigit c = none) :
    ∃ n, hexGroup 0 0 (hexText g ++ cs) = some (g.toNat, n + 1, cs) := by
  have hg := g.toNat_lt
  have hstop : ∀ acc off, acc = g.toNat → hexGroup acc off cs = some (g.toNat, off, cs) := by
    rintro acc off rfl
    exact hexGroup_stop _ _ h
  unfold hexText
  by_cases h3 : 0x1000 ≤ g.toNat
  · have h2 : 0x100 ≤ g.toNat := by omega
    have h1 : 0x10 ≤ g.toNat := by omega
    refine ⟨3, ?_⟩
    simp only [h3, h2, h1, ↓reduceIte, List.cons_append, List.nil_append]
    rw [hexGroup_digit _ (by omega) (by omega) (by omega),
      hexGroup_digit _ (by omega) (by omega) (by omega),
      hexGroup_digit _ (by omega) (by omega) (by omega),
      hexGroup_digit _ (by omega) (by omega) (by omega)]
    exact hstop _ _ (by omega)
  · by_cases h2 : 0x100 ≤ g.toNat
    · have h1 : 0x10 ≤ g.toNat := by omega
      refine ⟨2, ?_⟩
      simp only [h3, h2, h1, ↓reduceIte, List.cons_append, List.nil_append]
      rw [hexGroup_digit _ (by omega) (by omega) (by omega),
        hexGroup_digit _ (by omega) (by omega) (by omega),
        hexGroup_digit _ (by omega) (by omega) (by omega)]
      exact hstop _ _ (by omega)
    · by_cases h1 : 0x10 ≤ g.toNat
      · refine ⟨1, ?_⟩
        simp only [h3, h2, h1, ↓reduceIte, List.cons_append, List.nil_append]
        rw [hexGroup_digit _ (by omega) (by omega) (by omega),
          hexGroup_digit _ (by omega) (by omega) (by omega)]
        exact hstop _ _ (by omega)
      · refine ⟨0, ?_⟩
        simp only [h3, h2, h1, ↓reduceIte, List.cons_append, List.nil_append]
        rw [hexGroup_digit _ (by omega) (by omega) (by omega)]
        exact hstop _ _ (by omega)

/-- A character of a group. -/
def IsHex (c : UInt8) : Prop := ∃ d < 16, c = digitChar d

theorem IsHex.ne {c : UInt8} (h : IsHex c) : c ≠ dot ∧ c ≠ colon ∧ c ≠ percent := by
  obtain ⟨d, hd, rfl⟩ := h
  have hall : ∀ d : Fin 16, digitChar d ≠ dot ∧ digitChar d ≠ colon ∧ digitChar d ≠ percent := by
    decide
  exact hall ⟨d, hd⟩

/-- A leading digit, which is written only if the number is large enough. -/
theorem isHex_of_leading {p : Prop} [Decidable p] {d : Nat} {c : UInt8} (hd : d < 16)
    (h : c ∈ if p then [digitChar d] else []) : IsHex c := by
  split at h
  · exact ⟨d, hd, List.mem_singleton.mp h⟩
  · cases h

theorem hexText_isHex {g : UInt16} {c : UInt8} (h : c ∈ hexText g) : IsHex c := by
  have hg := g.toNat_lt
  simp only [hexText, List.mem_append, List.mem_singleton] at h
  rcases h with ((h | h) | h) | h
  · exact isHex_of_leading (by omega) h
  · exact isHex_of_leading (by omega) h
  · exact isHex_of_leading (by omega) h
  · exact ⟨_, by omega, h⟩

theorem hexText_cons (g : UInt16) : ∃ c cs, hexText g = c :: cs ∧ IsHex c := by
  cases h : hexText g with
  | nil => simp [hexText] at h
  | cons c cs => exact ⟨c, cs, rfl, hexText_isHex (h ▸ List.mem_cons_self)⟩

theorem joinColon_cons (g : UInt16) (gs : List UInt16) :
    ∃ c cs, joinColon (g :: gs) = c :: cs ∧ IsHex c := by
  obtain ⟨c, cs, hg, hc⟩ := hexText_cons g
  cases gs with
  | nil => exact ⟨c, cs, hg, hc⟩
  | cons g' gs => exact ⟨c, cs ++ colon :: joinColon (g' :: gs), by simp [joinColon, hg], hc⟩

theorem joinColon_chars {gs : List UInt16} {c : UInt8} (h : c ∈ joinColon gs) :
    IsHex c ∨ c = colon := by
  -- the recursion of joinColon
  induction gs using joinColon.induct with
  | case1 => cases h
  | case2 g => exact Or.inl (hexText_isHex h)
  | case3 g g' gs ih =>
    simp only [joinColon, List.mem_append, List.mem_cons] at h
    rcases h with h | h | h
    · exact Or.inl (hexText_isHex h)
    · exact Or.inr h
    · exact ih h

section Loop

variable {n : Nat} {ip : Bytes} {ellipsis : Option Nat} {g : UInt16}

theorem hexGroup_colon (g : UInt16) (s : Bytes) :
    ∃ k, hexGroup 0 0 (hexText g ++ colon :: s) = some (g.toNat, k + 1, colon :: s) := by
  apply hexGroup_hexText
  intro c hc
  cases hc
  decide

/-- The last group of the text. -/
theorem parseIPv6Loop_last :
    parseIPv6Loop (n + 1) ip ellipsis (hexText g) = some (ip ++ putUint16 g, ellipsis, []) := by
  have hend : ∀ c ∈ ([] : Bytes).head?, hexDigit c = none := nofun
  obtain ⟨k, hk⟩ := hexGroup_hexText g hend
  rw [List.append_nil] at hk
  simp [parseIPv6Loop, hk]

/-- A group with another one behind it. -/
theorem parseIPv6Loop_next {c : UInt8} {s : Bytes} (hc : c ≠ colon) :
    parseIPv6Loop (n + 1) ip ellipsis (hexText g ++ colon :: c :: s) =
      parseIPv6Loop n (ip ++ putUint16 g) ellipsis (c :: s) := by
  obtain ⟨k, hk⟩ := hexGroup_colon g (c :: s)
  have hdot : colon ≠ dot := by decide
  simp [parseIPv6Loop, hk, hc, hdot]

/-- A group with the ellipsis behind it. -/
theorem parseIPv6Loop_gap {s : Bytes} :
    parseIPv6Loop (n + 1) ip none (hexText g ++ colon :: colon :: s) =
      if s = [] then some (ip ++ putUint16 g, some (ip ++ putUint16 g).length, [])
      else parseIPv6Loop n (ip ++ putUint16 g) (some (ip ++ putUint16 g).length) s := by
  obtain ⟨k, hk⟩ := hexGroup_colon g (colon :: s)
  have hdot : colon ≠ dot := by decide
  simp [parseIPv6Loop, hk, hdot]

/-- Groups up to the end of the text. -/
theorem parseIPv6Loop_join {gs : List UInt16} (hne : gs ≠ []) :
    ∀ {n : Nat} {ip : Bytes}, gs.length ≤ n →
      parseIPv6Loop n ip ellipsis (joinColon gs) = some (ip ++ groupBytes gs, ellipsis, []) := by
  induction gs using joinColon.induct with
  | case1 => exact absurd rfl hne
  | case2 g =>
    intro n ip hn
    obtain ⟨n, rfl⟩ := Nat.exists_eq_add_of_le' hn
    rw [joinColon, List.length_singleton, parseIPv6Loop_last]
    simp [groupBytes]
  | case3 g g' gs ih =>
    intro n ip hn
    obtain ⟨n, rfl⟩ : ∃ m, n = m + 1 := ⟨n - 1, by simp at hn; omega⟩
    obtain ⟨c, cs, hcs, hc⟩ := joinColon_cons g' gs
    rw [joinColon, hcs, parseIPv6Loop_next hc.ne.2.1, ← hcs,
      ih (by simp) (Nat.le_of_succ_le_succ hn)]
    simp [groupBytes, List.append_assoc]

/-- Groups up to the ellipsis, and those behind it. -/
theorem parseIPv6Loop_ellipsis {gs hs : List UInt16} (hne : gs ≠ []) :
    ∀ {n : Nat} {ip : Bytes}, gs.length + hs.length ≤ n →
      parseIPv6Loop n ip none (joinColon gs ++ colon :: colon :: joinColon hs) =
        some (ip ++ groupBytes gs ++ groupBytes hs, some (ip ++ groupBytes gs).length, []) := by
  induction gs using joinColon.induct with
  | case1 => exact absurd rfl hne
  | case2 g =>
    intro n ip hn
    obtain ⟨n, rfl⟩ : ∃ m, n = m + 1 := ⟨n - 1, by simp at hn; omega⟩
    rw [joinColon, parseIPv6Loop_gap]
    cases hs with
    | nil => simp [joinColon, groupBytes]
    | cons h hs =>
      obtain ⟨c, cs, hcs, -⟩ := joinColon_cons h hs
      have hjoin : joinColon (h :: hs) ≠ [] := by
        rw [hcs]
        nofun
      rw [if_neg hjoin, parseIPv6Loop_join (by simp) (by simp at hn ⊢; omega)]
      simp [groupBytes]
  | case3 g g' gs ih =>
    intro n ip hn
    obtain ⟨n, rfl⟩ : ∃ m, n = m + 1 := ⟨n - 1, by simp at hn; omega⟩
    obtain ⟨c, cs, hcs, hc⟩ := joinColon_cons g' gs
    rw [joinColon, List.append_assoc, List.cons_append, hcs, List.cons_append,
      parseIPv6Loop_next hc.ne.2.1, ← List.cons_append, ← hcs,
      ih (by simp) (by simp at hn ⊢; omega)]
    simp [groupBytes, List.append_assoc]

end Loop

/-! ## Zero groups -/

theorem groupBytes_append (gs hs : List UInt16) :
    groupBytes (gs ++ hs) = groupBytes gs ++ groupBytes hs := List.flatMap_append

theorem groupBytes_length (gs : List UInt16) : (groupBytes gs).length = 2 * gs.length := by
  induction gs with
  | nil => rfl
  | cons g gs ih =>
    change (putUint16 g ++ groupBytes gs).length = _
    rw [List.length_append, ih, List.length_cons]
    simp [putUint16]
    omega

theorem groupBytes_zeros (k : Nat) :
    groupBytes (List.replicate k 0) = List.replicate (2 * k) 0 := by
  induction k with
  | zero => rfl
  | succ k ih =>
    rw [List.replicate_succ, Nat.mul_succ, List.replicate_succ, List.replicate_succ, ← ih]
    rfl

/-- An address of even length is the bytes of its groups. -/
theorem groupBytes_groups (ip : Bytes) (h : ip.length % 2 = 0) : groupBytes (groups ip) = ip := by
  induction ip using groups.induct with
  | case1 a b rest ih =>
    have hpair : putUint16 (uint16 [a, b]) = [a, b] := putUint16_uint16 a b
    have hrest := ih (by simp at h; omega)
    change putUint16 (uint16 [a, b]) ++ groupBytes (groups rest) = _
    rw [hpair, hrest]
    rfl
  | case2 ip hshort =>
    cases ip with
    | nil => rfl
    | cons a ip =>
      cases ip with
      | nil => simp at h
      | cons b rest => exact absurd rfl (hshort a b rest)

theorem zerosAt_split (gs : List UInt16) (i : Nat) :
    gs = gs.take i ++ List.replicate (zerosAt gs i) 0 ++ gs.drop (i + zerosAt gs i) := by
  have hzeros : (gs.drop i).takeWhile (· = 0) = List.replicate (zerosAt gs i) 0 := by
    apply List.eq_replicate_iff.mpr
    exact ⟨rfl, fun g hg => by simpa using List.mem_takeWhile_imp hg⟩
  have hfirst : (gs.drop i).takeWhile (· = 0) = (gs.drop i).take (zerosAt gs i) :=
    List.prefix_iff_eq_take.mp (List.takeWhile_prefix _)
  rw [← hzeros, hfirst, ← List.drop_drop, List.append_assoc, List.take_append_drop,
    List.take_append_drop]

theorem zerosAt_le (gs : List UInt16) (i : Nat) : zerosAt gs i ≤ gs.length - i := by
  have hle := (List.takeWhile_prefix (l := gs.drop i) (· = (0 : UInt16))).length_le
  rwa [List.length_drop] at hle

/-- The run that is left out consists of zeros. -/
theorem zeroRun_spec {gs : List UInt16} {i j : Nat} (h : zeroRun gs = some (i, j)) :
    i + 2 ≤ j ∧ j ≤ gs.length ∧ gs = gs.take i ++ List.replicate (j - i) 0 ++ gs.drop j := by
  let Run : Option (Nat × Nat) → Prop := fun z => ∀ i j, z = some (i, j) →
    i + 2 ≤ j ∧ j ≤ gs.length ∧ gs = gs.take i ++ List.replicate (j - i) 0 ++ gs.drop j
  have hrun : Run (zeroRun gs) := by
    apply List.foldlRecOn
    · nofun
    · intro z hz k _
      split
      · -- a longer run takes the place of the one found before
        rename_i hlong
        intro i j hij
        cases hij
        have hle := zerosAt_le gs k
        refine ⟨by omega, by omega, ?_⟩
        rw [Nat.add_sub_cancel_left]
        exact zerosAt_split gs k
      · exact hz
  exact hrun i j h

/-! ## What is printed is read back -/

/-- The first separator behind some digits. -/
theorem find_sep {xs ys : Bytes} {d : UInt8} (hxs : ∀ c ∈ xs, IsHex c)
    (hd : d = dot ∨ d = colon ∨ d = percent) :
    (xs ++ d :: ys).find? (fun c => c = dot ∨ c = colon ∨ c = percent) = some d := by
  have hnone : xs.find? (fun c => decide (c = dot ∨ c = colon ∨ c = percent)) = none := by
    apply List.find?_eq_none.mpr
    intro c hc
    have hne := (hxs c hc).ne
    simp [hne]
  rw [List.find?_append, hnone, Option.none_or, List.find?_cons_of_pos]
  exact decide_eq_true hd

theorem decimal_isHex {b c : UInt8} (h : c ∈ decimal b) : IsHex c := by
  have hb := b.toNat_lt
  simp only [decimal, List.mem_append, List.mem_singleton] at h
  rcases h with (h | h) | h
  · exact isHex_of_leading (by omega) h
  · exact isHex_of_leading (by omega) h
  · exact ⟨_, by omega, h⟩

theorem parseIP_string4 {ip : Bytes} (h : ip.length = 4) :
    parseIP (string4 ip) = some (v4InV6Prefix ++ ip) := by
  obtain ⟨a, b, c, d, rfl⟩ := List.length_eq_four.mp h
  have hfind : (string4 [a, b, c, d]).find? (fun c => c = dot ∨ c = colon ∨ c = percent) =
      some dot := find_sep (fun _ hc => decimal_isHex hc) (Or.inl rfl)
  unfold parseIP
  rw [hfind]
  simp only [↓reduceIte, parseIPv4Fields_string4, Option.map_some]

theorem string6_chars {gs : List UInt16} {c : UInt8} (h : c ∈ string6 gs) :
    IsHex c ∨ c = colon := by
  unfold string6 at h
  split at h
  · exact joinColon_chars h
  · simp only [List.mem_append, List.mem_cons] at h
    rcases h with h | rfl | rfl | h
    · exact joinColon_chars h
    · exact Or.inr rfl
    · exact Or.inr rfl
    · exact joinColon_chars h

theorem percent_not_mem_string6 (gs : List UInt16) : percent ∉ string6 gs := by
  intro h
  rcases string6_chars h with hhex | hcolon
  · exact hhex.ne.2.2 rfl
  · exact absurd hcolon (by decide)

/-- A text that begins with a digit has no ellipsis in front. -/
theorem parseIPv6_of_isHex {c : UInt8} {s : Bytes} (hc : IsHex c) (hp : percent ∉ c :: s) :
    parseIPv6 (c :: s) = (parseIPv6Loop 8 [] none (c :: s)).bind expand := by
  unfold parseIPv6
  rw [if_neg hp]
  cases s with
  | nil => rfl
  | cons c' s => simp [hc.ne.2.1]

theorem expand_whole {gs : List UInt16} (h : gs.length = 8) :
    expand (groupBytes gs, none, []) = some (groupBytes gs) := by
  have hlen := groupBytes_length gs
  have hfull : ¬ (groupBytes gs).length < 16 := by omega
  simp [expand, hfull]

/-- The ellipsis is expanded to the zeros it stands for. -/
theorem expand_gap {gs hs : List UInt16} {k : Nat} (h : gs.length + k + hs.length = 8)
    (hk : 0 < k) :
    expand (groupBytes gs ++ groupBytes hs, some (groupBytes gs).length, []) =
      some (groupBytes (gs ++ List.replicate k 0 ++ hs)) := by
  have hlen : (groupBytes gs ++ groupBytes hs).length = 16 - 2 * k := by
    rw [List.length_append, groupBytes_length, groupBytes_length]
    omega
  have hshort : 16 - 2 * k < 16 := by omega
  have hgap : 16 - (16 - 2 * k) = 2 * k := by omega
  simp only [expand, ne_eq, not_true_eq_false, ↓reduceIte, hlen, hshort, hgap]
  rw [List.take_left, List.drop_left, groupBytes_append, groupBytes_append, groupBytes_zeros]

theorem parseIPv6_string6 {gs : List UInt16} (h : gs.length = 8) :
    parseIPv6 (string6 gs) = some (groupBytes gs) := by
  have hpercent := percent_not_mem_string6 gs
  unfold string6 at hpercent ⊢
  cases hz : zeroRun gs with
  | none =>
    rw [hz] at hpercent
    obtain ⟨g, gs, rfl⟩ := List.exists_cons_of_length_pos (l := gs) (by omega)
    obtain ⟨c, s, hs, hc⟩ := joinColon_cons g gs
    dsimp only at hpercent ⊢
    rw [hs] at hpercent
    rw [hs, parseIPv6_of_isHex hc hpercent, ← hs,
      parseIPv6Loop_join (List.cons_ne_nil g gs) h.le, Option.bind_some,
      List.nil_append, expand_whole h]
  | some z =>
    obtain ⟨i, j⟩ := z
    obtain ⟨hij, hj, hsplit⟩ := zeroRun_spec hz
    have htake : (gs.take i).length = i := by
      rw [List.length_take]
      omega
    have hdrop : (gs.drop j).length = 8 - j := by rw [List.length_drop, h]
    have hgap : expand (groupBytes (gs.take i) ++ groupBytes (gs.drop j),
        some (groupBytes (gs.take i)).length, []) = some (groupBytes gs) := by
      rw [expand_gap (k := j - i) (by omega) (by omega), ← hsplit]
    rw [hz] at hpercent
    dsimp only at hpercent ⊢
    cases hpre : gs.take i with
    | nil =>
      -- the text begins with the ellipsis
      rw [hpre] at hgap hpercent
      unfold parseIPv6
      rw [if_neg hpercent]
      cases hpost : gs.drop j with
      | nil =>
        rw [hpost] at hgap
        exact hgap
      | cons g post =>
        obtain ⟨c, s, hs, -⟩ := joinColon_cons g post
        have hne : joinColon (g :: post) ≠ [] := by
          rw [hs]
          nofun
        rw [hpost] at hgap hdrop
        simp only [joinColon, List.nil_append, and_self, ↓reduceIte, hne]
        rw [parseIPv6Loop_join (List.cons_ne_nil g post) (by omega)]
        exact hgap
    | cons g pre =>
      obtain ⟨c, s, hs, hc⟩ := joinColon_cons g pre
      rw [hpre] at hgap hpercent htake
      rw [hs, List.cons_append] at hpercent
      rw [hs, List.cons_append, parseIPv6_of_isHex hc hpercent, ← List.cons_append, ← hs,
        parseIPv6Loop_ellipsis (List.cons_ne_nil g pre) (by omega)]
      exact hgap

/-- The first separator of the groups is a colon. -/
theorem string6_split {gs : List UInt16} (h : gs.length = 8) :
    ∃ xs ys, string6 gs = xs ++ colon :: ys ∧ ∀ c ∈ xs, IsHex c := by
  unfold string6
  split
  · obtain ⟨g, gs, rfl⟩ := List.exists_cons_of_length_pos (l := gs) (by omega)
    obtain ⟨g', gs, rfl⟩ := List.exists_cons_of_length_pos (l := gs) (by simp at h; omega)
    exact ⟨hexText g, _, rfl, fun _ hc => hexText_isHex hc⟩
  · rename_i i j _
    cases gs.take i with
    | nil => exact ⟨[], _, rfl, nofun⟩
    | cons g pre =>
      cases pre with
      | nil => exact ⟨hexText g, _, rfl, fun _ hc => hexText_isHex hc⟩
      | cons g' pre =>
        rw [joinColon, List.append_assoc, List.cons_append]
        exact ⟨hexText g, _, rfl, fun _ hc => hexText_isHex hc⟩

theorem parseIP_string6 {ip : Bytes} (h : ip.length = 16) :
    parseIP (string6 (groups ip)) = some ip := by
  have hbytes : groupBytes (groups ip) = ip := groupBytes_groups ip (by omega)
  have hlen : (groups ip).length = 8 := by
    have := groupBytes_length (groups ip)
    rw [hbytes] at this
    omega
  obtain ⟨xs, ys, hsplit, hxs⟩ := string6_split hlen
  have hcolon : colon ≠ dot := by decide
  unfold parseIP
  rw [hsplit, find_sep hxs (Or.inr (Or.inl rfl)), ← hsplit]
  simp only [if_neg hcolon, ↓reduceIte]
  rw [parseIPv6_string6 hlen, hbytes]

/-- What is printed is read back in the 16-byte form. -/
theorem parseIP_string {ip : IP} (h : ip.length = 4 ∨ ip.length = 16) :
    parseIP ip.string = ip.to16 := by
  have hne : ip ≠ [] := by
    rintro rfl
    simp at h
  have hlen : ¬ (ip.length ≠ 4 ∧ ip.length ≠ 16) := by omega
  unfold IP.string
  rw [if_neg hne, if_neg hlen]
  rcases h with h | h
  · simp only [IP.to4, IP.to16, h, ↓reduceIte]
    exact parseIP_string4 h
  · have h16 : ip.to16 = some ip := by simp [IP.to16, h]
    rw [h16]
    by_cases hmapped : ip.take 12 = v4InV6Prefix
    · have h4 : ip.to4 = some (ip.drop 12) := by simp [IP.to4, h, hmapped]
      have hdrop : (ip.drop 12).length = 4 := by rw [List.length_drop, h]
      rw [h4, parseIP_string4 hdrop, ← hmapped, List.take_append_drop]
    · have h4 : ip.to4 = none := by simp [IP.to4, h, hmapped]
      rw [h4]
      exact parseIP_string6 h

/-- The functions of package `net`. -/
def IPText.go : IPText where
  parseIP := Net.parseIP
  string := IP.string
  parse_string ip h := by
    have hsome : ∃ ip16, ip.to16 = some ip16 := by
      unfold IP.to16
      rcases h with h | h <;> simp [h]
    obtain ⟨ip16, h16⟩ := hsome
    exact ⟨ip16, (parseIP_string h).trans h16, IP.equal_to16 h16⟩

/-! ## The text of an address -/

/-- The characters of an address. -/
def IPChar (c : UInt8) : Prop := (hexDigit c).isSome = true ∨ c = dot ∨ c = colon

/-- The characters of a dotted quad. -/
def QuadChar (c : UInt8) : Prop := (decDigit c).isSome = true ∨ c = dot

theorem QuadChar.ipChar {c : UInt8} (h : QuadChar c) : IPChar c := by
  rcases h with hdigit | hdot
  · left
    obtain ⟨d, hd⟩ := Option.isSome_iff_exists.mp hdigit
    unfold decDigit at hd
    unfold hexDigit
    split at hd
    · rename_i hc
      rw [if_pos hc]
      rfl
    · cases hd
  · exact .inr (.inl hdot)

theorem parseIPv4Loop_chars {fields : Bytes} {val digLen : Nat} {s ip : Bytes}
    (h : parseIPv4Loop fields val digLen s = some ip) : ∀ c ∈ s, QuadChar c := by
  induction s generalizing fields val digLen with
  | nil => simp
  | cons b s ih =>
    simp only [parseIPv4Loop] at h
    intro c hc
    split at h
    · rename_i d hd
      split at h
      · cases h
      · split at h
        · cases h
        · rcases List.mem_cons.mp hc with rfl | hc
          · exact .inl (by rw [hd]; rfl)
          · exact ih h c hc
    · split at h
      · rename_i hdot
        split at h
        · cases h
        · split at h
          · cases h
          · rcases List.mem_cons.mp hc with rfl | hc
            · exact .inr hdot
            · exact ih h c hc
      · cases h

/-- Four fields need a dot. -/
theorem parseIPv4Loop_dot {fields : Bytes} {val digLen : Nat} {s ip : Bytes}
    (h : parseIPv4Loop fields val digLen s = some ip) (hfields : fields.length < 3) : dot ∈ s := by
  induction s generalizing fields val digLen with
  | nil => simp [parseIPv4Loop, hfields] at h
  | cons b s ih =>
    simp only [parseIPv4Loop] at h
    split at h
    · split at h
      · cases h
      · split at h
        · cases h
        · exact List.mem_cons_of_mem _ (ih h hfields)
    · split at h
      · rename_i hdot
        exact List.mem_cons.mpr (.inl hdot.symm)
      · cases h

/-- A dotted quad is an address. -/
theorem parseIP_of_quad {s ip4 : Bytes} (h : parseIPv4Fields s = some ip4) :
    parseIP s = some (v4InV6Prefix ++ ip4) := by
  have hchars := parseIPv4Loop_chars h
  have hdot : dot ∈ s := parseIPv4Loop_dot h (by simp)
  have hfind : s.find? (fun c => c = dot ∨ c = colon ∨ c = percent) = some dot := by
    obtain ⟨c, hc⟩ : ∃ c, s.find? (fun c => c = dot ∨ c = colon ∨ c = percent) = some c := by
      refine Option.isSome_iff_exists.mp ?_
      rw [List.find?_isSome]
      exact ⟨dot, hdot, by simp⟩
    have hsep := List.find?_some hc
    rcases hchars c (List.mem_of_find?_eq_some hc) with hdigit | rfl
    · -- a digit is no separator
      have hnot : (decDigit dot).isSome = false ∧ (decDigit colon).isSome = false ∧
          (decDigit percent).isSome = false := by decide
      simp only [decide_eq_true_eq] at hsep
      rcases hsep with rfl | rfl | rfl <;> simp_all
    · exact hc
  unfold parseIP
  rw [hfind]
  simp [h]

/-- The number at the front is made of digits. -/
theorem hexGroup_chars {acc off acc' off' : Nat} {s rest : Bytes}
    (h : hexGroup acc off s = some (acc', off', rest)) : ∀ c ∈ s, IPChar c ∨ c ∈ rest := by
  induction s generalizing acc off with
  | nil => simp
  | cons b s ih =>
    simp only [hexGroup] at h
    intro c hc
    split at h
    · cases h
      exact .inr hc
    · rename_i d hd
      split at h
      · cases h
      · split at h
        · cases h
        · rcases List.mem_cons.mp hc with rfl | hc
          · exact .inl (.inl (by rw [hd]; rfl))
          · exact ih h c hc

theorem parseIPv6Loop_chars {n : Nat} {ip ip' s rest : Bytes} {ellipsis ellipsis' : Option Nat}
    (h : parseIPv6Loop n ip ellipsis s = some (ip', ellipsis', rest)) :
    ∀ c ∈ s, IPChar c ∨ c ∈ rest := by
  induction n generalizing ip ellipsis s with
  | zero =>
    cases h
    exact fun c hc => .inr hc
  | succ n ih =>
    simp only [parseIPv6Loop] at h
    split at h
    · cases h
    · rename_i acc off tail hgroup
      have hfront := hexGroup_chars hgroup
      split at h
      · cases h
      · split at h
        · split at h
          · cases h
          · split at h
            · cases h
            · split at h
              · cases h
              · -- a dotted quad
                rename_i fields hfields
                intro c hc
                exact .inl (parseIPv4Loop_chars hfields c hc).ipChar
        · -- what follows the colons is read by the next round
          have hback : (∀ c ∈ tail, IPChar c ∨ c ∈ rest) → ∀ c ∈ s, IPChar c ∨ c ∈ rest := by
            intro htail c hc
            rcases hfront c hc with hchar | hmem
            · exact .inl hchar
            · exact htail c hmem
          apply hback
          split at h
          · simp
          · rename_i b s' _
            split at h
            · cases h
            · rename_i hcolon
              have hb : b = colon := not_not.mp hcolon
              intro c hc
              rcases List.mem_cons.mp hc with rfl | hc
              · exact .inl (.inr (.inr hb))
              · split at h
                · cases h
                · rename_i b' s'' _ _
                  split at h
                  · exact ih h c hc
                  · rename_i hcolon'
                    have hb' : b' = colon := not_not.mp hcolon'
                    split at h
                    · cases h
                    · rcases List.mem_cons.mp hc with rfl | hc
                      · exact .inl (.inr (.inr hb'))
                      · split at h
                        · rename_i hend
                          rw [hend] at hc
                          cases hc
                        · exact ih h c hc

theorem parseIPv6_chars {s : Bytes} {ip : Bytes} (h : parseIPv6 s = some ip) :
    ∀ c ∈ s, IPChar c := by
  -- the loop has used up the text
  have hloop : ∀ {ellipsis : Option Nat} {t : Bytes},
      (parseIPv6Loop 8 [] ellipsis t).bind expand = some ip → ∀ c ∈ t, IPChar c := by
    intro ellipsis t ht c hc
    obtain ⟨⟨ip', ellipsis', rest⟩, hrun, hexpand⟩ := Option.bind_eq_some_iff.mp ht
    have hrest : rest = [] := by
      by_contra hne
      simp [expand, hne] at hexpand
    rcases parseIPv6Loop_chars hrun c hc with hchar | hmem
    · exact hchar
    · rw [hrest] at hmem
      cases hmem
  unfold parseIPv6 at h
  split at h
  · cases h
  · split at h
    · rename_i b b' s' _
      split at h
      · rename_i hcolons
        intro c hc
        rcases List.mem_cons.mp hc with rfl | hc
        · exact .inr (.inr hcolons.1)
        · rcases List.mem_cons.mp hc with rfl | hc
          · exact .inr (.inr hcolons.2)
          · split at h
            · rename_i hend
              rw [hend] at hc
              cases hc
            · exact hloop h c hc
      · exact hloop h
    · exact hloop h

/-- A text that is an address consists of digits, dots and colons, and is not empty. -/
theorem parseIP_chars {s : Bytes} {ip : IP} (h : parseIP s = some ip) :
    s ≠ [] ∧ ∀ c ∈ s, IPChar c := by
  unfold parseIP at h
  split at h
  · cases h
  · rename_i c hfind
    refine ⟨?_, ?_⟩
    · rintro rfl
      cases hfind
    · split at h
      · obtain ⟨fields, hfields, -⟩ := Option.map_eq_some_iff.mp h
        exact fun c hc => (parseIPv4Loop_chars hfields c hc).ipChar
      · split at h
        · exact parseIPv6_chars h
        · cases h

end PTBridge.Net
