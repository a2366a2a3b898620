import Mathlib

/-!
# Byte strings

Slices with their bounds check, and the big-endian integers of `encoding/binary`.
-/

namespace PTBridge.Stream

abbrev Bytes := List UInt8

/-- `b[lo:hi]`; `none` is the bounds panic. -/
def slice (b : Bytes) (lo hi : Nat) : Option Bytes :=
  if lo ≤ hi ∧ hi ≤ b.length then some ((b.take hi).drop lo) else none

theorem slice_eq_some {b : Bytes} {lo hi : Nat} (h : lo ≤ hi ∧ hi ≤ b.length) :
    slice b lo hi = some ((b.take hi).drop lo) := by
  rw [slice, if_pos h]

theorem slice_eq_none {b : Bytes} {lo hi : Nat} (h : ¬ (lo ≤ hi ∧ hi ≤ b.length)) :
    slice b lo hi = none := by
  rw [slice, if_neg h]

/-- `binary.BigEndian.PutUint16`. -/
def putUint16 (v : UInt16) : Bytes :=
  [UInt8.ofNat (v.toNat / 2 ^ 8), UInt8.ofNat v.toNat]

/-- `binary.BigEndian.Uint16` of a two-byte slice. -/
def uint16 : Bytes → UInt16
  | [b0, b1] => UInt16.ofNat (b0.toNat * 2 ^ 8 + b1.toNat)
  | _ => 0

/-- `binary.BigEndian.PutUint32`. -/
def putUint32 (v : UInt32) : Bytes :=
  [UInt8.ofNat (v.toNat / 2 ^ 24), UInt8.ofNat (v.toNat / 2 ^ 16), UInt8.ofNat (v.toNat / 2 ^ 8),
    UInt8.ofNat v.toNat]

/-- `binary.BigEndian.Uint32` of a four-byte slice. -/
def uint32 : Bytes → UInt32
  | [b0, b1, b2, b3] =>
      UInt32.ofNat (b0.toNat * 2 ^ 24 + b1.toNat * 2 ^ 16 + b2.toNat * 2 ^ 8 + b3.toNat)
  | _ => 0

@[simp] theorem putUint32_length (v : UInt32) : (putUint32 v).length = 4 := rfl

theorem uint32_putUint32 (v : UInt32) : uint32 (putUint32 v) = v := by
  apply UInt32.toNat_inj.mp
  have hv := v.toNat_lt
  simp only [uint32, putUint32, UInt32.toNat_ofNat', UInt8.toNat_ofNat']
  omega

theorem uint16_putUint16 (v : UInt16) : uint16 (putUint16 v) = v := by
  apply UInt16.toNat_inj.mp
  have hv := v.toNat_lt
  simp only [uint16, putUint16, UInt16.toNat_ofNat', UInt8.toNat_ofNat']
  omega

theorem putUint16_uint16 (a b : UInt8) : putUint16 (uint16 [a, b]) = [a, b] := by
  have ha := a.toNat_lt
  have hb := b.toNat_lt
  simp only [putUint16, uint16, UInt16.toNat_ofNat', List.cons.injEq, and_true]
  constructor
  · apply UInt8.toNat_inj.mp
    rw [UInt8.toNat_ofNat']
    omega
  · apply UInt8.toNat_inj.mp
    rw [UInt8.toNat_ofNat']
    omega

end PTBridge.Stream
