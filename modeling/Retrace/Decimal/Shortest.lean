import Retrace.Decimal.Binary64
namespace Retrace.Decimal

/-!
# The fewest digits that read back

Every binary fraction owns the interval of numbers that round to it, its ends
included exactly when its significand is even.  Its shortest decimal is taken
from the coarsest decimal grid that has a point in that interval.  On any grid
only the two neighbours of the value itself can lie nearest, so only these two
are tried; of two hits the nearer one is taken.
-/

/-- The decimal `digits * 10 ^ exponent`. -/
structure Number where
  digits : Nat
  exponent : Int
deriving DecidableEq, Repr

namespace Binary64

/--
A quarter of the unit in the last place, as a quotient.

Measured in it, the value is four significands and the ends of its interval are
whole numbers.
-/
def quarterUnit (value : Binary64) : Nat × Nat :=
  scaleDown 1 1 (2 - value.exponent)

/-- The value, in quarter units. -/
def quarters (value : Binary64) : Nat :=
  4 * value.significand

/--
The lower end of the interval, in quarter units.

Below a power of two binary fractions lie twice as close.
-/
def lowerEnd (value : Binary64) : Nat :=
  if value.significand = implicitBit ∧ leastExponent < value.exponent then
    value.quarters - 1
  else
    value.quarters - 2

/-- The upper end of the interval, in quarter units. -/
def upperEnd (value : Binary64) : Nat :=
  value.quarters + 2

/-- Whether the ends belong to the interval. -/
def ownsEnds (value : Binary64) : Bool :=
  value.significand % 2 == 0

/-- A decimal grid and a number of quarter units, brought to a common unit. -/
structure Grid where
  /-- The distance of two points of the grid. -/
  spacing : Nat
  /-- The length of a quarter unit. -/
  quarter : Nat

/-- The grid of the multiples of `10 ^ exponent`, beside a value. -/
def grid (value : Binary64) (exponent : Int) : Grid :=
  let (numerator, denominator) := value.quarterUnit
  if 0 ≤ exponent then
    { spacing := Nat.pow 10 exponent.toNat * denominator
      quarter := numerator }
  else
    { spacing := denominator
      quarter := numerator * Nat.pow 10 (-exponent).toNat }

/-- Whether a point of the grid reads back as the value. -/
def owns (value : Binary64) (grid : Grid) (point : Nat) : Bool :=
  let place := point * grid.spacing
  let lower := value.lowerEnd * grid.quarter
  let upper := value.upperEnd * grid.quarter
  if value.ownsEnds then
    decide (lower ≤ place) && decide (place ≤ upper)
  else
    decide (lower < place) && decide (place < upper)

/-- The nearest point of a grid, if one of the two around the value reads back as it. -/
def hit? (tie : Tie) (value : Binary64) (grid : Grid) : Option Nat :=
  let place := value.quarters * grid.quarter
  let below := place / grid.spacing
  match value.owns grid below, value.owns grid (below + 1) with
  | true, true => some (roundQuotient tie place grid.spacing)
  | true, false => some below
  | false, true => some (below + 1)
  | false, false => none

/-- The first hit on ever finer grids. -/
def search (tie : Tie) (value : Binary64) : Nat → Int → Number
  | 0, exponent =>
      let grid := value.grid exponent
      ⟨roundQuotient tie (value.quarters * grid.quarter) grid.spacing, exponent⟩
  | finer + 1, exponent =>
      match value.hit? tie (value.grid exponent) with
      | some point => ⟨point, exponent⟩
      | none => search tie value finer (exponent - 1)

/-- An exponent of ten whose power is above a positive value. -/
def coarseExponent (value : Binary64) : Int :=
  ((value.significand.log2 : Int) + value.exponent + 1) * 30103 / 100000 + 1

/-- The grids worth trying: seventeen digits always read back. -/
def gridCount : Nat := 24

/-- The shortest decimal that reads back as a positive value. -/
def shortest (tie : Tie) (value : Binary64) : Number :=
  search tie value gridCount value.coarseExponent

end Binary64

end Retrace.Decimal
