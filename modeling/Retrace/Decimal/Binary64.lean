import Retrace.Decimal.Rounding
namespace Retrace.Decimal

/-!
# Binary fractions of 64 bits

A finite binary fraction is a significand times a power of two.  `Binary64.ofFloat`
takes one apart exactly; `Binary64.nearest?` finds the binary fraction nearest to a
decimal one, and has no answer for a decimal beyond the finite range.
-/

/-- The value `significand * 2 ^ exponent`, with a sign that zero has, too. -/
structure Binary64 where
  negative : Bool
  significand : Nat
  exponent : Int
deriving DecidableEq, Repr

/-- A binary fraction, or what stands for the lack of one. -/
inductive Reading
  | finite (value : Binary64)
  | infinite (negative : Bool)
  | undefined
deriving DecidableEq, Repr

namespace Binary64

/-- The significands below this one have less than 53 digits. -/
def implicitBit : Nat := 4503599627370496

/-- The bit of the sign. -/
def signBit : Nat := 9223372036854775808

/-- The exponent field of what is no finite value. -/
def infiniteField : Nat := 2047

/-- The least exponent of a binary fraction. -/
def leastExponent : Int := -1074

/-- The value that a bit pattern stands for. -/
def ofBits (bits : UInt64) : Reading :=
  let negative := bits.toNat / signBit == 1
  let exponentField : Nat := bits.toNat / implicitBit % (infiniteField + 1)
  let fractionField : Nat := bits.toNat % implicitBit
  if exponentField = infiniteField then
    if fractionField = 0 then .infinite negative else .undefined
  else if exponentField = 0 then
    .finite
      { negative
        significand := fractionField
        exponent := leastExponent }
  else
    .finite
      { negative
        significand := implicitBit + fractionField
        exponent := leastExponent + (exponentField : Int) - 1 }

/-- The value that a float stands for. -/
def ofFloat (float : Float) : Reading :=
  ofBits float.toBits

/-- The magnitude as a quotient of natural numbers. -/
def magnitude (value : Binary64) : Nat × Nat :=
  if 0 ≤ value.exponent then
    (value.significand * Nat.pow 2 value.exponent.toNat, 1)
  else
    (value.significand, Nat.pow 2 (-value.exponent).toNat)

/-- A quotient divided by a power of two. -/
def scaleDown (numerator denominator : Nat) (exponent : Int) : Nat × Nat :=
  if 0 ≤ exponent then
    (numerator, denominator * Nat.pow 2 exponent.toNat)
  else
    (numerator * Nat.pow 2 (-exponent).toNat, denominator)

/-- The exponent of the greatest power of two that is at most a positive quotient. -/
def floorLog (numerator denominator : Nat) : Int :=
  let estimate : Int := (numerator.log2 : Int) - denominator.log2
  let (scaled, unit) := scaleDown numerator denominator estimate
  if unit ≤ scaled then estimate else estimate - 1

/-- The bits of the magnitude nearest to a positive quotient, ties to even. -/
def nearestBits? (numerator denominator : Nat) : Option Nat :=
  let exponent := max leastExponent (floorLog numerator denominator - 52)
  let (scaled, unit) := scaleDown numerator denominator exponent
  let significand := roundQuotient .toEven scaled unit
  let bits := (exponent - leastExponent).toNat * implicitBit + significand
  if bits < infiniteField * implicitBit then some bits else none

/-- Whether `digits * 10 ^ exponent` lies below `10 ^ (-330)`, by its digits alone. -/
def clearlyTooSmall (digits : Nat) (exponent : Int) : Bool :=
  decide (exponent + (digits.log2 / 3 + 1 : Nat) < -330)

/-- Whether `digits * 10 ^ exponent` lies above `10 ^ 310`, by its digits alone. -/
def clearlyTooLarge (digits : Nat) (exponent : Int) : Bool :=
  decide (310 < exponent + (digits.log2 / 10 * 3 : Nat))

/--
The float nearest to `± digits * 10 ^ exponent`, ties to even.

A number that is clearly out of range is not worked out: it is nearest to zero,
or too large for any float.
-/
def nearest? (negative : Bool) (digits : Nat) (exponent : Int) : Option Float :=
  let sign : Nat := if negative then signBit else 0
  if digits = 0 || clearlyTooSmall digits exponent then
    some (Float.ofBits (UInt64.ofNat sign))
  else if clearlyTooLarge digits exponent then
    none
  else
    let bits? :=
      if 0 ≤ exponent then
        nearestBits? (digits * Nat.pow 10 exponent.toNat) 1
      else
        nearestBits? digits (Nat.pow 10 (-exponent).toNat)
    bits?.map fun bits => Float.ofBits (UInt64.ofNat (sign + bits))

end Binary64

end Retrace.Decimal
