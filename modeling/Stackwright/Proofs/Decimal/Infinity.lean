import Mathlib

/-!
# Positive floats that are not finite

A float is given by its bits.  What is no number compares with nothing, so the
only positive float that is not finite is infinity.

Main result:

- Theorem `isFinite_eq_false_iff_of_pos`: of the positive floats, exactly
  infinity is not finite.
-/

namespace Stackwright
namespace Decimal

open Float.Model UnpackedFloat

/-- The positive infinity. -/
def infinity : Float :=
  1.0 / 0.0

/-- The bits of infinity: ones in the exponent and zeros elsewhere. -/
theorem toBits_infinity : infinity.toModel.toBits = 0x7FF0000000000000 := by
  decide +kernel

theorem unpack_zero : (0.0 : Float).toModel.unpack = .zero .positive := by
  rfl

/-- Sign, exponent and mantissa of infinity belong to one bit pattern only. -/
theorem toNat_of_fields {bits : BitVec Format.binary64.numBits}
    (hexponent : unpackExponent bits = -1#11) (hmantissa : unpackMantissa bits = 0#52)
    (hsign : unpackSign bits = 0#1) : bits.toNat = 0x7FF0000000000000 := by
  have hlt : bits.toNat < 2 ^ 64 := bits.isLt
  have hexp : bits.toNat / 2 ^ 52 % 2 ^ 11 = 2047 := by
    have := congrArg BitVec.toNat hexponent
    simpa [unpackExponent, Nat.shiftRight_eq_div_pow] using this
  have hman : bits.toNat % 2 ^ 52 = 0 := by
    have := congrArg BitVec.toNat hmantissa
    simpa [unpackMantissa, Nat.shiftRight_eq_div_pow] using this
  have hsgn : bits.toNat / 2 ^ 63 % 2 = 0 := by
    have := congrArg BitVec.toNat hsign
    simpa [unpackSign, Nat.shiftRight_eq_div_pow] using this
  omega

/-- A single float stands for infinity. -/
theorem eq_infinity_of_unpack {x : Float} (h : x.toModel.unpack = .infinity .positive) :
    x = infinity := by
  have hbits : x.toModel.toBits.toBitVec.toNat = 0x7FF0000000000000 := by
    unfold Float.Model.unpack UnpackedFloat.unpack at h
    dsimp only at h
    split at h
    · split at h
      · rename_i hexponent hmantissa
        rw [UnpackedFloat.infinity.injEq, Sign.ofBitVec] at h
        split at h
        · rename_i hsign
          exact toNat_of_fields hexponent hmantissa hsign
        · cases h
      · cases h
    · split at h
      · split at h <;> cases h
      · cases h
  have hword : x.toModel.toBits = infinity.toModel.toBits := by
    rw [toBits_infinity]
    exact UInt64.toNat_inj.1 hbits
  have hmodel : x.toModel = infinity.toModel := by
    generalize x.toModel = m at hword
    generalize infinity.toModel = m' at hword
    cases m
    cases m'
    cases hword
    rfl
  cases x
  generalize infinity = y at hmodel
  cases y
  cases hmodel
  rfl

/-- Of the positive floats, exactly infinity is not finite. -/
theorem isFinite_eq_false_iff_of_pos {x : Float} (hpos : 0.0 < x) :
    x.isFinite = false ↔ x = infinity := by
  constructor
  · intro hfinite
    have hlt : (0.0 : Float).toModel.unpack.lt x.toModel.unpack = true :=
      of_decide_eq_true hpos
    rw [unpack_zero] at hlt
    have hunpack : x.toModel.unpack.isFinite = false := hfinite
    apply eq_infinity_of_unpack
    cases hx : x.toModel.unpack with
    | infinity sign =>
        cases sign with
        | positive => rfl
        | negative => simp [hx, UnpackedFloat.lt, UnpackedFloat.compare] at hlt
    | notANumber => simp [hx, UnpackedFloat.lt, UnpackedFloat.compare] at hlt
    | zero sign => simp [hx, UnpackedFloat.isFinite] at hunpack
    | finite sign mantissa exponent hmantissa => simp [hx, UnpackedFloat.isFinite] at hunpack
  · rintro rfl
    decide +kernel

/-- Infinity is positive. -/
theorem infinity_pos : 0.0 < infinity := by
  decide +kernel

end Decimal
end Stackwright
