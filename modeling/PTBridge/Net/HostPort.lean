import Mathlib.Data.Nat.Digits.Defs
import PTBridge.Net.IP

/-!
# `host:port`

`net.SplitHostPort` and `net.JoinHostPort`, and numbers in decimal as `strconv` prints and parses
them. A host with colons stands in brackets; a host or port with a bracket of its own is refused.

- `splitHostPort_eq_ok`: what is accepted, and what the parts are.
- `splitHostPort_joinHostPort`: parts without brackets are read back.
- `parseUint_itoa` and `parseUint_digits`: the numbers.
-/

namespace PTBridge.Net

open PTBridge.Stream

/-! ## Searching a byte -/

/-- `bytealg.IndexByteString`. -/
def indexByte (c : UInt8) : Bytes → Option Nat
  | [] => none
  | b :: s => if b = c then some 0 else (indexByte c s).map (· + 1)

/-- `bytealg.LastIndexByteString`. -/
def lastIndexByte (c : UInt8) : Bytes → Option Nat
  | [] => none
  | b :: s =>
      match lastIndexByte c s with
      | some i => some (i + 1)
      | none => if b = c then some 0 else none

variable {c : UInt8} {s : Bytes} {i : Nat}

theorem indexByte_eq_some :
    indexByte c s = some i ↔ ∃ pre post, s = pre ++ c :: post ∧ pre.length = i ∧ c ∉ pre := by
  induction s generalizing i with
  | nil => simp [indexByte]
  | cons b s ih =>
    simp only [indexByte]
    by_cases hb : b = c
    · subst hb
      simp only [↓reduceIte, Option.some.injEq]
      constructor
      · rintro rfl
        exact ⟨[], s, rfl, rfl, by simp⟩
      · rintro ⟨pre, post, hs, hlen, hpre⟩
        cases pre with
        | nil => exact hlen
        | cons a pre =>
          obtain ⟨rfl, -⟩ := List.cons.inj hs
          exact absurd List.mem_cons_self hpre
    · simp only [if_neg hb, Option.map_eq_some_iff, ih]
      constructor
      · rintro ⟨j, ⟨pre, post, rfl, rfl, hpre⟩, rfl⟩
        refine ⟨b :: pre, post, rfl, rfl, ?_⟩
        simp [hpre, Ne.symm hb]
      · rintro ⟨pre, post, hs, hlen, hpre⟩
        cases pre with
        | nil =>
          obtain ⟨rfl, -⟩ := List.cons.inj hs
          exact absurd rfl hb
        | cons a pre =>
          obtain ⟨rfl, rfl⟩ := List.cons.inj hs
          refine ⟨pre.length, ⟨pre, post, rfl, rfl, ?_⟩, hlen⟩
          exact fun hmem => hpre (List.mem_cons_of_mem _ hmem)

theorem lastIndexByte_eq_none : lastIndexByte c s = none ↔ c ∉ s := by
  induction s with
  | nil => simp [lastIndexByte]
  | cons b s ih =>
    simp only [lastIndexByte, List.mem_cons, not_or]
    cases h : lastIndexByte c s with
    | some i =>
      have hmem : c ∈ s := not_not.mp (mt ih.mpr (by simp [h]))
      simp [hmem]
    | none =>
      have hmem : c ∉ s := ih.mp h
      simp [hmem, eq_comm]

theorem lastIndexByte_eq_some :
    lastIndexByte c s = some i ↔ ∃ pre post, s = pre ++ c :: post ∧ pre.length = i ∧ c ∉ post := by
  induction s generalizing i with
  | nil => simp [lastIndexByte]
  | cons b s ih =>
    simp only [lastIndexByte]
    cases h : lastIndexByte c s with
    | some j =>
      simp only [Option.some.injEq]
      constructor
      · rintro rfl
        obtain ⟨pre, post, hs, hlen, hpost⟩ := ih.mp h
        exact ⟨b :: pre, post, by rw [hs]; rfl, by rw [List.length_cons, hlen], hpost⟩
      · rintro ⟨pre, post, hs, hlen, hpost⟩
        cases pre with
        | nil =>
          -- the last one would be in the rest
          obtain ⟨rfl, rfl⟩ := List.cons.inj hs
          rw [lastIndexByte_eq_none.mpr hpost] at h
          cases h
        | cons a pre =>
          obtain ⟨rfl, rfl⟩ := List.cons.inj hs
          have hlast := ih.mpr ⟨pre, post, rfl, rfl, hpost⟩
          rw [Option.some.inj (h.symm.trans hlast)]
          exact hlen
    | none =>
      have hnot := lastIndexByte_eq_none.mp h
      by_cases hb : b = c
      · subst hb
        simp only [↓reduceIte, Option.some.injEq]
        constructor
        · rintro rfl
          exact ⟨[], s, rfl, rfl, hnot⟩
        · rintro ⟨pre, post, hs, hlen, -⟩
          cases pre with
          | nil => exact hlen
          | cons a pre =>
            obtain ⟨-, rfl⟩ := List.cons.inj hs
            simp at hnot
      · simp only [if_neg hb, reduceCtorEq, false_iff]
        rintro ⟨pre, post, hs, -, -⟩
        have hmem : c ∈ b :: s := by rw [hs]; simp
        rcases List.mem_cons.mp hmem with rfl | hmem
        · exact hb rfl
        · exact hnot hmem

/-! ## `SplitHostPort` -/

def lbracket : UInt8 := 91

def rbracket : UInt8 := 93

/-- The texts of the errors. -/
inductive AddrErrorText where
  /-- `"missing port in address"` -/
  | missingPort
  /-- `"too many colons in address"` -/
  | tooManyColons
  /-- `"missing ']' in address"` -/
  | missingBracket
  /-- `"unexpected '[' in address"` -/
  | unexpectedOpening
  /-- `"unexpected ']' in address"` -/
  | unexpectedClosing
  deriving DecidableEq, Repr

/-- `net.AddrError`. -/
structure AddrError where
  err : AddrErrorText
  addr : Bytes
  deriving DecidableEq, Repr

/-- The end of `SplitHostPort`: there may be no `[` from position `j` on and no `]` from position
`k` on. -/
def splitEnd (hostport host : Bytes) (i j k : Nat) : Except AddrError (Bytes × Bytes) :=
  if lbracket ∈ hostport.drop j then .error ⟨.unexpectedOpening, hostport⟩
  else if rbracket ∈ hostport.drop k then .error ⟨.unexpectedClosing, hostport⟩
  else .ok (host, hostport.drop (i + 1))

def splitHostPort (hostport : Bytes) : Except AddrError (Bytes × Bytes) :=
  -- the port starts after the last colon
  match lastIndexByte colon hostport with
  | none => .error ⟨.missingPort, hostport⟩
  | some i =>
      if hostport.head? = some lbracket then
        match indexByte rbracket hostport with
        | none => .error ⟨.missingBracket, hostport⟩
        | some k =>
            if k + 1 = hostport.length then .error ⟨.missingPort, hostport⟩
            else if k + 1 = i then
              splitEnd hostport ((hostport.take k).drop 1) i 1 (k + 1)
            else if hostport[k + 1]? = some colon then .error ⟨.tooManyColons, hostport⟩
            else .error ⟨.missingPort, hostport⟩
      else if colon ∈ hostport.take i then .error ⟨.tooManyColons, hostport⟩
      else splitEnd hostport (hostport.take i) i 0 0

def joinHostPort (host port : Bytes) : Bytes :=
  if colon ∈ host then [lbracket] ++ host ++ [rbracket, colon] ++ port
  else host ++ [colon] ++ port

/-- No bracket stands in the text. -/
def NoBrackets (s : Bytes) : Prop := lbracket ∉ s ∧ rbracket ∉ s

/-- The texts with host `host` and port `port`. -/
inductive HostPort (host port : Bytes) : Bytes → Prop where
  | plain (hhost : colon ∉ host) : HostPort host port (host ++ [colon] ++ port)
  | bracketed : HostPort host port ([lbracket] ++ host ++ [rbracket, colon] ++ port)

theorem splitEnd_eq_ok {host h p : Bytes} {i j k : Nat} :
    splitEnd s host i j k = .ok (h, p) ↔
      lbracket ∉ s.drop j ∧ rbracket ∉ s.drop k ∧ h = host ∧ p = s.drop (i + 1) := by
  unfold splitEnd
  split
  · rename_i hl
    simp [hl]
  · rename_i hl
    split
    · rename_i hr
      simp [hr]
    · rename_i hr
      simp [hl, hr, eq_comm]

section Split

variable {host port : Bytes}

theorem drop_past (pre : Bytes) (c : UInt8) (post : Bytes) :
    (pre ++ c :: post).drop (pre.length + 1) = post := by
  simp [List.drop_append]

theorem splitHostPort_plain (hhost : NoBrackets host) (hport : NoBrackets port)
    (hcolon : colon ∉ host) (hport' : colon ∉ port) :
    splitHostPort (host ++ [colon] ++ port) = .ok (host, port) := by
  have hlast : lastIndexByte colon (host ++ [colon] ++ port) = some host.length :=
    lastIndexByte_eq_some.mpr ⟨host, port, by simp, rfl, hport'⟩
  have hhead : (host ++ [colon] ++ port).head? ≠ some lbracket := by
    cases host with
    | nil =>
      have hne : colon ≠ lbracket := by decide
      simpa using hne
    | cons b host =>
      intro h
      obtain rfl : b = lbracket := by simpa using h
      exact hhost.1 List.mem_cons_self
  have hbrackets : lbracket ≠ colon ∧ rbracket ≠ colon := by decide
  unfold splitHostPort
  simp only [hlast, if_neg hhead]
  have htake : (host ++ [colon] ++ port).take host.length = host := by
    rw [List.append_assoc, List.take_left]
  rw [htake, if_neg hcolon]
  refine splitEnd_eq_ok.mpr ⟨?_, ?_, rfl, ?_⟩
  · simp [hhost.1, hport.1, hbrackets.1]
  · simp [hhost.2, hport.2, hbrackets.2]
  · rw [List.append_assoc]
    exact (drop_past host colon port).symm

theorem splitHostPort_bracketed (hhost : NoBrackets host) (hport : NoBrackets port)
    (hport' : colon ∉ port) :
    splitHostPort ([lbracket] ++ host ++ [rbracket, colon] ++ port) = .ok (host, port) := by
  have hbrackets : rbracket ≠ lbracket ∧ lbracket ≠ rbracket ∧ lbracket ≠ colon ∧
      rbracket ≠ colon := by decide
  have hlast : lastIndexByte colon ([lbracket] ++ host ++ [rbracket, colon] ++ port) =
      some (host.length + 2) :=
    lastIndexByte_eq_some.mpr ⟨[lbracket] ++ host ++ [rbracket], port, by simp, by simp, hport'⟩
  have hindex : indexByte rbracket ([lbracket] ++ host ++ [rbracket, colon] ++ port) =
      some (host.length + 1) :=
    indexByte_eq_some.mpr
      ⟨[lbracket] ++ host, [colon] ++ port, by simp, by simp, by simp [hhost.2, hbrackets.1]⟩
  have hlen : ¬ host.length + 1 + 1 = ([lbracket] ++ host ++ [rbracket, colon] ++ port).length := by
    simp
  unfold splitHostPort
  have hhead : ([lbracket] ++ host ++ [rbracket, colon] ++ port).head? = some lbracket := rfl
  simp only [hlast, if_pos hhead, hindex, if_neg hlen, ↓reduceIte]
  refine splitEnd_eq_ok.mpr ⟨?_, ?_, ?_, ?_⟩
  · simp [hhost.1, hport.1, hbrackets.2.1, hbrackets.2.2.1]
  · have hdrop : ([lbracket] ++ host ++ [rbracket, colon] ++ port).drop (host.length + 1 + 1) =
        [colon] ++ port := by simp [List.drop_append]
    rw [hdrop]
    simp [hport.2, hbrackets.2.2.2]
  · simp
  · simp [List.drop_append]

/-- What `SplitHostPort` accepts, and what the parts are. -/
theorem splitHostPort_eq_ok :
    splitHostPort s = .ok (host, port) ↔
      HostPort host port s ∧ NoBrackets host ∧ NoBrackets port ∧ colon ∉ port := by
  constructor
  · intro h
    unfold splitHostPort at h
    split at h
    · cases h
    · rename_i i hlast
      obtain ⟨pre, post, hs, hi, hpost⟩ := lastIndexByte_eq_some.mp hlast
      have hdrop : s.drop (i + 1) = post := by
        rw [hs, ← hi]
        exact drop_past pre colon post
      split at h
      · rename_i hhead
        split at h
        · cases h
        · rename_i k hindex
          obtain ⟨pre', post', hs', hk, hpre'⟩ := indexByte_eq_some.mp hindex
          split at h
          · cases h
          · split at h
            · -- the closing bracket stands just before the last colon
              rename_i hki
              obtain ⟨hl, hr, rfl, rfl⟩ := splitEnd_eq_ok.mp h
              obtain ⟨host, rfl⟩ : ∃ host, pre' = lbracket :: host := by
                cases pre' with
                | nil =>
                  rw [hs'] at hhead
                  have hne : rbracket ≠ lbracket := by decide
                  exact absurd (by simpa using hhead) hne
                | cons b host =>
                  rw [hs'] at hhead
                  exact ⟨host, by simpa using hhead⟩
              have hpre : pre = (lbracket :: host) ++ [rbracket] ∧ post' = colon :: post := by
                have heq : pre ++ colon :: post = ((lbracket :: host) ++ [rbracket]) ++ post' := by
                  rw [← hs, hs']
                  simp
                have hlen : pre.length = ((lbracket :: host) ++ [rbracket]).length := by
                  simp only [List.length_append, List.length_singleton]
                  omega
                obtain ⟨h₁, h₂⟩ := List.append_inj heq hlen
                exact ⟨h₁, h₂.symm⟩
              obtain ⟨rfl, rfl⟩ := hpre
              have hshost : (s.take k).drop 1 = host := by
                rw [hs', ← hk, List.take_left]
                rfl
              have hstail : s.drop (k + 1) = [colon] ++ post := by
                rw [hs', ← hk]
                exact drop_past (lbracket :: host) rbracket (colon :: post)
              rw [hshost, hdrop]
              rw [hs'] at hl
              rw [hstail] at hr
              simp only [List.cons_append, List.drop_succ_cons, List.drop_zero, List.mem_append,
                List.mem_cons, not_or] at hl hr hpre'
              refine ⟨?_, ⟨hl.1, hpre'.2⟩, ⟨hl.2.2.2, hr.2.2⟩, hpost⟩
              rw [hs']
              have hform : HostPort host post _ := .bracketed
              simpa using hform
            · split at h <;> cases h
      · split at h
        · cases h
        · rename_i hcolon
          obtain ⟨hl, hr, rfl, rfl⟩ := splitEnd_eq_ok.mp h
          have htake : s.take i = pre := by rw [hs, ← hi, List.take_left]
          rw [htake] at hcolon ⊢
          rw [hdrop]
          rw [List.drop_zero, hs] at hl hr
          simp only [List.mem_append, List.mem_cons, not_or] at hl hr
          refine ⟨?_, ⟨hl.1, hr.1⟩, ⟨hl.2.2, hr.2.2⟩, hpost⟩
          rw [hs, show pre ++ colon :: post = pre ++ [colon] ++ post by simp]
          exact .plain hcolon
  · rintro ⟨hform, hhost, hport, hcolon⟩
    cases hform with
    | plain hplain => exact splitHostPort_plain hhost hport hplain hcolon
    | bracketed => exact splitHostPort_bracketed hhost hport hcolon

/-- Parts without brackets are read back. -/
theorem splitHostPort_joinHostPort (hhost : NoBrackets host) (hport : NoBrackets port)
    (hcolon : colon ∉ port) : splitHostPort (joinHostPort host port) = .ok (host, port) := by
  unfold joinHostPort
  split
  · exact splitHostPort_bracketed hhost hport hcolon
  · rename_i hplain
    exact splitHostPort_plain hhost hport hplain hcolon

end Split

/-! ## Numbers in decimal -/

/-- The errors of `strconv.ParseUint`. -/
inductive NumError where
  /-- `ErrSyntax` -/
  | invalid
  /-- `ErrRange` -/
  | range
  deriving DecidableEq, Repr

/-- The loop of `ParseUint` in base 10. The accumulator stays below `maxVal`, which is far from the
width of the machine's integers. -/
def parseUintLoop (maxVal n : Nat) : Bytes → Except NumError Nat
  | [] => .ok n
  | c :: s =>
      match decDigit c with
      | none => .error .invalid
      | some d => if maxVal < n * 10 + d then .error .range else parseUintLoop maxVal (n * 10 + d) s

/-- `strconv.ParseUint(s, 10, bitSize)` for `maxVal = 2 ^ bitSize - 1`. -/
def parseUint (maxVal : Nat) (s : Bytes) : Except NumError Nat :=
  if s = [] then .error .invalid else parseUintLoop maxVal 0 s

/-- `strconv.Itoa` of a number that is not negative. -/
def itoa (n : Nat) : Bytes :=
  if n = 0 then [digitChar 0] else (Nat.digits 10 n).reverse.map digitChar

theorem parseUintLoop_append {maxVal n : Nat} {s t : Bytes} :
    parseUintLoop maxVal n (s ++ t) =
      (parseUintLoop maxVal n s).bind fun m => parseUintLoop maxVal m t := by
  induction s generalizing n with
  | nil => rfl
  | cons c s ih =>
    simp only [List.cons_append, parseUintLoop]
    split
    · rfl
    · split
      · rfl
      · exact ih

theorem parseUintLoop_digits {maxVal n : Nat} (h : n ≤ maxVal) :
    parseUintLoop maxVal 0 ((Nat.digits 10 n).reverse.map digitChar) = .ok n := by
  induction n using Nat.strongRecOn with
  | _ n ih =>
    by_cases hn : n = 0
    · subst hn
      rfl
    · have hlt : n / 10 < n := Nat.div_lt_self (Nat.pos_of_ne_zero hn) (by omega)
      have hdigit : n % 10 < 10 := Nat.mod_lt _ (by omega)
      have hvalue : n / 10 * 10 + n % 10 = n := by omega
      rw [Nat.digits_def' (by omega) (Nat.pos_of_ne_zero hn), List.reverse_cons, List.map_append,
        parseUintLoop_append, ih _ hlt (by omega)]
      simp only [Except.bind, List.map_cons, List.map_nil, parseUintLoop,
        decDigit_digitChar hdigit, hvalue]
      rw [if_neg (by omega)]

/-- A printed number is read back. -/
theorem parseUint_itoa {maxVal n : Nat} (h : n ≤ maxVal) : parseUint maxVal (itoa n) = .ok n := by
  unfold itoa
  split
  · rename_i hn
    subst hn
    rfl
  · rename_i hn
    have hne : (Nat.digits 10 n).reverse.map digitChar ≠ [] := by
      simp [Nat.digits_ne_nil_iff_ne_zero.mpr hn]
    rw [parseUint, if_neg hne]
    exact parseUintLoop_digits h

theorem parseUintLoop_chars {maxVal n m : Nat} (h : parseUintLoop maxVal n s = .ok m) :
    ∀ c ∈ s, (decDigit c).isSome = true := by
  induction s generalizing n with
  | nil => simp
  | cons b s ih =>
    simp only [parseUintLoop] at h
    intro c hc
    split at h
    · cases h
    · rename_i d hd
      split at h
      · cases h
      · rcases List.mem_cons.mp hc with rfl | hc
        · rw [hd]
          rfl
        · exact ih h c hc

theorem parseUintLoop_le {maxVal n m : Nat} (hn : n ≤ maxVal)
    (h : parseUintLoop maxVal n s = .ok m) : m ≤ maxVal := by
  induction s generalizing n with
  | nil =>
    cases h
    exact hn
  | cons b s ih =>
    simp only [parseUintLoop] at h
    split at h
    · cases h
    · split at h
      · cases h
      · rename_i hle
        exact ih (Nat.not_lt.mp hle) h

/-- What is read is a number within the bounds, and consists of digits. -/
theorem parseUint_ok {maxVal n : Nat} (h : parseUint maxVal s = .ok n) :
    n ≤ maxVal ∧ s ≠ [] ∧ ∀ c ∈ s, (decDigit c).isSome = true := by
  unfold parseUint at h
  split at h
  · cases h
  · rename_i hne
    exact ⟨parseUintLoop_le (Nat.zero_le _) h, hne, parseUintLoop_chars h⟩

/-- Digits are neither brackets nor colons. -/
theorem plain_of_digits (h : ∀ c ∈ s, (decDigit c).isSome = true) : NoBrackets s ∧ colon ∉ s :=
  ⟨⟨fun hc => absurd (h _ hc) (by decide), fun hc => absurd (h _ hc) (by decide)⟩,
    fun hc => absurd (h _ hc) (by decide)⟩

/-- The text of an address has no brackets. -/
theorem noBrackets_of_parseIP {ip : IP} (h : parseIP s = some ip) : NoBrackets s := by
  have hchars := (parseIP_chars h).2
  have hnot : ¬ IPChar lbracket ∧ ¬ IPChar rbracket := by
    simp only [IPChar]
    decide
  exact ⟨fun hc => hnot.1 (hchars _ hc), fun hc => hnot.2 (hchars _ hc)⟩

end PTBridge.Net
