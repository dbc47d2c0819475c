import Mathlib
import Retrace.Decimal.Binary64
namespace Retrace.Decimal

/-!
# Floats and their bits

A float is taken apart by dividing its bits as a number.  The bits of a finite
float are its sign and the place of its magnitude among all magnitudes: the
significand carries over into the exponent, so that one number counts through
the binary fractions in their order.

The lemmas of Batteries on packed floats are in scope under the whole of Mathlib only.
-/

namespace Binary64

/-- A significand of 53 digits within the exponents of floats; fewer at the least exponent. -/
structure IsCanonical (value : Binary64) : Prop where
  digits : value.significand < 2 * implicitBit
  full : implicitBit ≤ value.significand ∨ value.exponent = leastExponent
  atLeast : leastExponent ≤ value.exponent
  atMost : value.exponent ≤ 971

/-- The place of a magnitude among those of all floats. -/
def place (value : Binary64) : Nat :=
  (value.exponent - leastExponent).toNat * implicitBit + value.significand

/-- The bits that stand for a value. -/
def bits (value : Binary64) : Nat :=
  (if value.negative then signBit else 0) + value.place

section

variable
  {pattern : UInt64}
  {value : Binary64}

/-- The bits that stand for a finite value are its own. -/
theorem ofBits_eq_finite
    (isFinite : ofBits pattern = .finite value) :
    value.IsCanonical ∧ pattern.toNat = value.bits := by
  have bounded := pattern.toNat_lt
  simp only [ofBits] at isFinite
  split at isFinite
  · split at isFinite <;> cases isFinite
  · next notInfinite =>
      split at isFinite
      · next isZero =>
          cases isFinite
          simp only [implicitBit, infiniteField] at isZero
          constructor
          · constructor
            case digits =>
              simp only [implicitBit]
              omega
            case full =>
              exact Or.inr rfl
            case atLeast =>
              exact Int.le_refl leastExponent
            case atMost =>
              simp only [leastExponent]
              omega
          · simp only [bits, place, Int.sub_self, Int.toNat_zero, Nat.zero_mul,
              Nat.zero_add, implicitBit, signBit, beq_iff_eq]
            split <;> omega
      · next notZero =>
          cases isFinite
          simp only [implicitBit, infiniteField] at notInfinite notZero
          constructor
          · constructor
            case digits =>
              simp only [implicitBit]
              omega
            case full =>
              exact Or.inl (Nat.le_add_right _ _)
            case atLeast =>
              simp only [leastExponent, implicitBit, infiniteField]
              omega
            case atMost =>
              simp only [leastExponent, implicitBit, infiniteField]
              omega
          · simp only [bits, place, implicitBit, signBit, infiniteField, leastExponent,
              beq_iff_eq]
            split <;> omega

theorem ofBits_finite_iff :
    (∃ value, ofBits pattern = .finite value) ↔
      pattern.toNat / implicitBit % (infiniteField + 1) ≠ infiniteField := by
  simp only [ofBits]
  split
  · next isInfinite =>
      split <;> simp [isInfinite]
  · next notInfinite =>
      split <;> simp [notInfinite]

end

end Binary64

/-! ## The bits of floats -/

open Float.Model Float.Model.UnpackedFloat

section

variable (pattern : UInt64)

/-- The bits as they are taken apart by the format. -/
def packedBits : BitVec Format.binary64.numBits :=
  pattern.toBitVec

theorem toNat_unpackExponent :
    (unpackExponent (packedBits pattern)).toNat =
      pattern.toNat / Binary64.implicitBit % (Binary64.infiniteField + 1) := by
  rw [unpackExponent_def, BitVec.extractLsb'_toNat, Nat.shiftRight_eq_div_pow]
  rfl

theorem unpackExponent_eq_iff :
    unpackExponent (packedBits pattern) = -1#_ ↔
      pattern.toNat / Binary64.implicitBit % (Binary64.infiniteField + 1) =
        Binary64.infiniteField := by
  rw [← BitVec.toNat_inj, toNat_unpackExponent]
  rfl

/-- Bits below the infinite field are those of a float. -/
theorem toBits_ofBits
    (finite :
      pattern.toNat / Binary64.implicitBit % (Binary64.infiniteField + 1) ≠
        Binary64.infiniteField) :
    (Float.ofBits pattern).toBits = pattern := by
  have noNaN : isNaNBits (packedBits pattern) = false := by
    apply decide_eq_false
    rintro ⟨isInfinite, _⟩
    exact finite ((unpackExponent_eq_iff pattern).mp isInfinite)
  have repacked := pack_unpack (packedBits pattern)
  rw [noNaN] at repacked
  exact UInt64.toBitVec_inj.mp repacked

end

theorem isFinite_unpack_iff (packed : BitVec Format.binary64.numBits) :
    (UnpackedFloat.unpack Format.binary64 packed).isFinite = true ↔
      unpackExponent packed ≠ -1#_ := by
  rw [UnpackedFloat.unpack]
  by_cases isInfinite : unpackExponent packed = -1#_
  · rw [if_pos isInfinite]
    split <;> simp only [isInfinite, UnpackedFloat.isFinite, ne_eq, not_true_eq_false,
      Bool.false_eq_true]
  · rw [if_neg isInfinite]
    split
    · split <;> simp only [isInfinite, UnpackedFloat.isFinite, ne_eq, not_false_eq_true]
    · simp only [isInfinite, UnpackedFloat.isFinite, ne_eq, not_false_eq_true]

/-- A float is finite if it stands for a finite value. -/
theorem isFinite_iff (float : Float) :
    float.isFinite = true ↔ ∃ value, Binary64.ofFloat float = .finite value := by
  have unpacked := isFinite_unpack_iff (packedBits float.toBits)
  rw [Ne, unpackExponent_eq_iff] at unpacked
  rw [Binary64.ofFloat, Binary64.ofBits_finite_iff]
  exact unpacked

/-- Every finite float is that of its value's bits. -/
theorem ofBits_bits
    {float : Float}
    {value : Binary64}
    (isFinite : Binary64.ofFloat float = .finite value) :
    Float.ofBits (UInt64.ofNat value.bits) = float := by
  rw [← (Binary64.ofBits_eq_finite isFinite).2, UInt64.ofNat_toNat]
  exact Float.ofBits_toBits float

/-- Bits below those of an infinity, with either sign, are those of a finite float. -/
theorem isFinite_ofBits
    {magnitude : Nat}
    (finite : magnitude < Binary64.infiniteField * Binary64.implicitBit)
    (negative : Bool) :
    (Float.ofBits
      (UInt64.ofNat
        ((if negative then Binary64.signBit else 0) + magnitude))).isFinite = true := by
  have field :
      (UInt64.ofNat ((if negative then Binary64.signBit else 0) + magnitude)).toNat /
            Binary64.implicitBit % (Binary64.infiniteField + 1) ≠
        Binary64.infiniteField := by
    simp only [Binary64.infiniteField, Binary64.implicitBit, Binary64.signBit,
      UInt64.toNat_ofNat'] at finite ⊢
    split <;> omega
  rw [isFinite_iff, Binary64.ofFloat, toBits_ofBits _ field, Binary64.ofBits_finite_iff]
  exact field

end Retrace.Decimal
