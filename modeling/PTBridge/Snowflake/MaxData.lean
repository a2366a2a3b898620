import PTBridge.Snowflake.Padding

/-!
# `MaxDataForSize`

`MaxDataForSize(n)` takes the prefix of the length `n` for that of the data, which is shorter.

- `prefixLength` is the size of the prefix of each length; `fits_iff` says with it which data fits
  into a budget.
- `maxDataForSize_exact_iff`: the answer is the greatest such length, but for the budgets right
  behind each change of the prefix and those beyond the format.
-/

namespace PTBridge.Snowflake

open PTBridge.Stream

/-- `MaxDataForSize`; `none` is the panic. A negative length has no prefix. -/
def maxDataForSize (n : Int) : Option Int :=
  if n = 0 then none
  else
    match if n < 0 then none else dataPrefixForLength n.toNat with
    | none => some ((1 <<< (6 + 7 + 7)) - 1 - 3)
    | some pre => some (n - pre.length)

/-- `WriteData` accepts any slice of length `m`, and writes `n` bytes at most. -/
def Fits (n m : Nat) : Prop :=
  ∀ data : Bytes, data.length = m →
    ∃ total k, writeDataTo data ⟨[], none⟩ = (total, none, k) ∧ total ≤ n

/-- The answer is the length of the longest slice that fits. -/
def MaxExact (n : Nat) : Prop :=
  ∃ m : Nat, maxDataForSize n = some (m : Int) ∧ IsGreatest {m | Fits n m} m

/-! ## Sizes -/

/-- The number of bytes in the prefix of a length. -/
def prefixLength (m : Nat) : Nat := if m < 64 then 1 else if m < 8192 then 2 else 3

theorem dataPrefixForLength_length {m : Nat} {pre : Bytes} (h : dataPrefixForLength m = some pre) :
    pre.length = prefixLength m := by
  simp only [dataPrefixForLength, Nat.shiftRight_eq_div_pow, and_3f, Nat.reducePow,
    Nat.div_one] at h
  unfold prefixLength
  -- the masks of the source keep a length exactly if it is small enough
  split at h
  · cases h
    rw [if_pos (by omega)]
    rfl
  · rename_i h₁
    rw [if_neg (by omega)]
    split at h
    · cases h
      rw [if_pos (by omega)]
      rfl
    · rename_i h₂
      rw [if_neg (by omega)]
      split at h
      · cases h
        rfl
      · cases h

/-- What fits: a length of the format, with its prefix within the budget. -/
theorem fits_iff {n m : Nat} : Fits n m ↔ m ≤ 0xfffff ∧ prefixLength m + m ≤ n := by
  constructor
  · intro h
    obtain ⟨total, k, hwrite, hle⟩ := h (List.replicate m 0) (by simp)
    cases henc : encodeData (List.replicate m 0) with
    | none =>
      have hpre := Option.map_eq_none_iff.mp henc
      rw [List.length_replicate] at hpre
      simp [writeDataTo, hpre] at hwrite
    | some enc =>
      obtain ⟨k', hwrite', -⟩ := writeDataTo_spec henc (k := ⟨[], none⟩) rfl
      obtain ⟨pre, hpre, rfl⟩ := Option.map_eq_some_iff.mp henc
      rw [List.length_replicate] at hpre
      have hlong : m ≤ 0xfffff := by
        apply Nat.le_of_not_lt
        intro hgt
        rw [dataPrefixForLength_none.mpr hgt] at hpre
        cases hpre
      rw [hwrite', Prod.mk.injEq] at hwrite
      rw [← hwrite.1, List.length_append, List.length_replicate,
        dataPrefixForLength_length hpre] at hle
      exact ⟨hlong, hle⟩
  · rintro ⟨hlong, hle⟩ data rfl
    have henc := encodeData_getD hlong
    obtain ⟨pre, hpre, happ⟩ := Option.map_eq_some_iff.mp henc
    obtain ⟨k, hwrite, -⟩ := writeDataTo_spec henc (k := ⟨[], none⟩) rfl
    refine ⟨_, k, hwrite, ?_⟩
    rw [← happ, List.length_append, dataPrefixForLength_length hpre]
    exact hle

/-- What the source computes. -/
def computed (n : Nat) : Nat := if n ≤ 0xfffff then n - prefixLength n else 0xffffc

theorem maxDataForSize_eq {n : Nat} (h : 1 ≤ n) : maxDataForSize n = some (computed n : Int) := by
  have hzero : ¬ (n : Int) = 0 := by omega
  have hneg : ¬ (n : Int) < 0 := by omega
  simp only [maxDataForSize, if_neg hzero, if_neg hneg, Int.toNat_natCast, computed]
  cases hpre : dataPrefixForLength n with
  | none =>
    have hlong := dataPrefixForLength_none.mp hpre
    rw [if_neg (by omega)]
    rfl
  | some pre =>
    have hshort : n ≤ 0xfffff := by
      apply Nat.le_of_not_lt
      intro hgt
      rw [dataPrefixForLength_none.mpr hgt] at hpre
      cases hpre
    have hle : prefixLength n ≤ n := by
      unfold prefixLength
      split_ifs <;> omega
    simp only [if_pos hshort, dataPrefixForLength_length hpre, Nat.cast_sub hle]

theorem maxExact_iff {n : Nat} (h : 1 ≤ n) :
    MaxExact n ↔ Fits n (computed n) ∧ ∀ m, Fits n m → m ≤ computed n := by
  simp only [MaxExact, maxDataForSize_eq h, Option.some.injEq, Int.natCast_inj, exists_eq_left']
  exact Iff.rfl

/-- `MaxDataForSize` is exact but for three budgets at which the prefix gets longer, and for those
that are larger than any prefix says. -/
theorem maxDataForSize_exact_iff (n : Nat) (h : 1 ≤ n) :
    MaxExact n ↔ n ≠ 64 ∧ n ≠ 8192 ∧ n ≠ 8193 ∧ n < 2 ^ 20 := by
  rw [maxExact_iff h]
  simp only [fits_iff]
  constructor
  · rintro ⟨-, hgreatest⟩
    refine ⟨?_, ?_, ?_, ?_⟩
    · rintro rfl
      exact absurd (hgreatest 63 (by decide)) (by decide)
    · rintro rfl
      exact absurd (hgreatest 8190 (by decide)) (by decide)
    · rintro rfl
      exact absurd (hgreatest 8191 (by decide)) (by decide)
    · by_contra hlong
      have hthree : prefixLength 0xffffd = 3 := by decide
      have hmax := hgreatest 0xffffd (by omega)
      rw [computed, if_neg (by omega)] at hmax
      exact absurd hmax (by decide)
  · rintro ⟨h₁, h₂, h₃, hlt⟩
    have hcomputed : computed n = n - prefixLength n := if_pos (by omega)
    rw [hcomputed]
    -- a shorter length never has the longer prefix, away from the three budgets
    refine ⟨?_, fun m hm => ?_⟩
    · unfold prefixLength
      split_ifs <;> omega
    · unfold prefixLength at hm ⊢
      split_ifs at hm ⊢ <;> omega

/-- The budget of a packet. -/
theorem maxDataForSize_exact_packet : 1 ≤ 1500 ∧ MaxExact 1500 := by
  refine ⟨by decide, (maxDataForSize_exact_iff 1500 (by decide)).mpr ?_⟩
  decide

/-- For 64 bytes the answer is 62, but 63 bytes of data take no more. -/
theorem maxDataForSize_short :
    maxDataForSize 64 = some 62 ∧ Fits 64 63 ∧ ¬ MaxExact 64 := by
  have hfits : Fits 64 63 := fits_iff.mpr (by decide)
  have hmax : maxDataForSize 64 = some 62 := by decide
  refine ⟨hmax, hfits, ?_⟩
  rintro ⟨m, hm, -, hgreatest⟩
  have hle : 63 ≤ m := hgreatest hfits
  rw [show ((64 : Nat) : Int) = 64 from rfl, hmax, Option.some.injEq] at hm
  omega

end PTBridge.Snowflake
