import Mathlib.Algebra.Order.Field.Power
import Mathlib.Algebra.Order.Field.Rat
import Mathlib.Tactic.FieldSimp
import Mathlib.Tactic.Linarith
import Mathlib.Tactic.NormNum
import Mathlib.Tactic.Positivity
import Retrace.Decimal.Shortest
import Retrace.Proofs.Decimal.Bits
namespace Retrace.Decimal

/-!
# The nearest float

Every value owns an interval of numbers.  `Binary64.nearest?_eq` says what owning means:
from any decimal in the interval, `Binary64.nearest?` comes back to the bits of the value.

Two cases differ in the grid on which the number is rounded.  Mostly it is the value's own
grid.  Just below a power of two floats lie twice as close, so there a number that the power
owns is rounded on the finer grid, to twice the least full significand.
-/

/-- A quotient within one half of a whole number, ties only around even ones, rounds to it. -/
theorem roundQuotient_eq
    {numerator denominator whole : Nat}
    (positive : 0 < denominator)
    (notAbove : 2 * numerator ≤ 2 * whole * denominator + denominator)
    (notBelow : 2 * whole * denominator ≤ 2 * numerator + denominator)
    (tieAbove :
      2 * numerator = 2 * whole * denominator + denominator → whole % 2 = 0)
    (tieBelow :
      2 * whole * denominator = 2 * numerator + denominator → whole % 2 = 0) :
    roundQuotient .toEven numerator denominator = whole := by
  have parts := Nat.div_add_mod numerator denominator
  have small := Nat.mod_lt numerator positive
  simp only [roundQuotient, Tie.goesUp, beq_iff_eq]
  generalize numerator % denominator = rest at *
  generalize numerator / denominator = floor at *
  subst parts
  have atMost : whole ≤ floor + 1 := by
    by_contra above
    have far : (floor + 2) * denominator ≤ whole * denominator :=
      Nat.mul_le_mul_right _ (by omega)
    nlinarith
  have atLeast : floor ≤ whole := by
    by_contra below
    have far : (whole + 1) * denominator ≤ floor * denominator :=
      Nat.mul_le_mul_right _ (by omega)
    nlinarith
  rcases Nat.eq_or_lt_of_le atLeast with isFloor | above
  · subst whole
    have within : 2 * rest ≤ denominator := by
      nlinarith
    split
    · rfl
    split
    · omega
    split
    · next tie odd =>
        have := tieAbove (by nlinarith)
        omega
    · rfl
  · obtain rfl : whole = floor + 1 := by
      omega
    have beyond : denominator ≤ 2 * rest := by
      nlinarith
    split
    · omega
    split
    · rfl
    split
    · rfl
    · next tie even =>
        have := tieBelow (by nlinarith)
        omega

/-- A quotient below a power of two rounds to a significand that is not above it. -/
theorem roundQuotient_le
    {numerator denominator power : Nat}
    (positive : 0 < denominator)
    (below : (numerator / denominator : ℚ) < 2 ^ power) :
    roundQuotient .toEven numerator denominator ≤ 2 ^ power := by
  have unitCast : (0 : ℚ) < denominator := by
    exact_mod_cast positive
  rw [div_lt_iff₀ unitCast] at below
  have small : numerator < 2 ^ power * denominator := by
    exact_mod_cast below
  have near := (@roundQuotient_near .toEven numerator denominator positive).2
  by_contra above
  have far :
      (2 ^ power + 1) * denominator ≤ roundQuotient .toEven numerator denominator * denominator :=
    Nat.mul_le_mul_right _ (Nat.lt_of_not_le above)
  nlinarith

namespace Binary64

variable {numerator denominator : Nat}

theorem scaleDown_pos
    (positive : 0 < denominator)
    (exponent : Int) :
    0 < (scaleDown numerator denominator exponent).2 := by
  rw [scaleDown]
  split
  · exact Nat.mul_pos positive (Nat.pow_pos (by decide))
  · exact positive

/-- Dividing by a power of two divides the quotient by it. -/
theorem scaleDown_eq (exponent : Int) :
    ((scaleDown numerator denominator exponent).1 : ℚ) /
        (scaleDown numerator denominator exponent).2 =
      numerator / denominator / 2 ^ exponent := by
  rw [scaleDown]
  split
  · next nonnegative =>
      obtain ⟨power, rfl⟩ := Int.eq_ofNat_of_zero_le nonnegative
      simp only [Int.toNat_natCast, Nat.pow_eq, zpow_natCast]
      push_cast
      rw [div_div]
  · next negative =>
      obtain ⟨power, rfl⟩ : ∃ power : Nat, exponent = -power :=
        ⟨(-exponent).toNat, by omega⟩
      simp only [neg_neg, Int.toNat_natCast, Nat.pow_eq, zpow_neg, zpow_natCast]
      push_cast
      rw [div_inv_eq_mul]
      ring

theorem log2_spec
    {number : Nat}
    (positive : 0 < number) :
    (2 : ℚ) ^ (number.log2 : Int) ≤ number ∧ (number : ℚ) < 2 ^ (number.log2 + 1 : Int) := by
  constructor
  · rw [zpow_natCast]
    exact_mod_cast Nat.log2_self_le (Nat.ne_of_gt positive)
  · exact_mod_cast Nat.lt_log2_self

/-- The lengths of its parts tell a quotient up to a factor of four. -/
theorem log2_sub_spec
    (numeratorPos : 0 < numerator)
    (denominatorPos : 0 < denominator) :
    (2 : ℚ) ^ ((numerator.log2 : Int) - denominator.log2 - 1) < numerator / denominator ∧
      (numerator / denominator : ℚ) <
        2 ^ ((numerator.log2 : Int) - denominator.log2 + 1) := by
  obtain ⟨numeratorLow, numeratorHigh⟩ := log2_spec numeratorPos
  obtain ⟨denominatorLow, denominatorHigh⟩ := log2_spec denominatorPos
  have denominatorCast : (0 : ℚ) < denominator := by
    exact_mod_cast denominatorPos
  constructor
  · rw [lt_div_iff₀ denominatorCast]
    calc
      (2 : ℚ) ^ ((numerator.log2 : Int) - denominator.log2 - 1) * denominator <
          2 ^ ((numerator.log2 : Int) - denominator.log2 - 1) *
            2 ^ (denominator.log2 + 1 : Int) := by
          gcongr
      _ = 2 ^ (numerator.log2 : Int) := by
          rw [← zpow_add₀ two_ne_zero]
          congr 1
          omega
      _ ≤ numerator := numeratorLow
  · rw [div_lt_iff₀ denominatorCast]
    calc
      (numerator : ℚ) < 2 ^ (numerator.log2 + 1 : Int) := numeratorHigh
      _ = 2 ^ ((numerator.log2 : Int) - denominator.log2 + 1) *
            2 ^ (denominator.log2 : Int) := by
          rw [← zpow_add₀ two_ne_zero]
          congr 1
          omega
      _ ≤ 2 ^ ((numerator.log2 : Int) - denominator.log2 + 1) * denominator := by
          gcongr

/-- A quotient lies from the power of two with its exponent up to the next one. -/
theorem floorLog_spec
    (numeratorPos : 0 < numerator)
    (denominatorPos : 0 < denominator) :
    (2 : ℚ) ^ floorLog numerator denominator ≤ numerator / denominator ∧
      (numerator / denominator : ℚ) < 2 ^ (floorLog numerator denominator + 1) := by
  obtain ⟨low, high⟩ := log2_sub_spec numeratorPos denominatorPos
  rw [floorLog]
  generalize (numerator.log2 : Int) - denominator.log2 = estimate at low high ⊢
  have scaled := @scaleDown_eq numerator denominator estimate
  have unitPos := @scaleDown_pos numerator denominator denominatorPos estimate
  generalize scaleDown numerator denominator estimate = quotient at scaled unitPos ⊢
  have unitCast : (0 : ℚ) < quotient.2 := by
    exact_mod_cast unitPos
  have atLeastOne :
      quotient.2 ≤ quotient.1 ↔ (2 : ℚ) ^ estimate ≤ numerator / denominator := by
    rw [← one_le_div₀ (zpow_pos two_pos _), ← scaled, one_le_div₀ unitCast]
    exact Nat.cast_le.symm
  simp only
  split
  · next reached =>
      exact ⟨atLeastOne.mp reached, high⟩
  · next notReached =>
      refine ⟨low.le, ?_⟩
      rw [Int.sub_add_cancel]
      exact not_le.mp fun reached => notReached (atLeastOne.mpr reached)

/-- Between two powers of two the exponent is that of the lower one. -/
theorem floorLog_eq
    (numeratorPos : 0 < numerator)
    (denominatorPos : 0 < denominator)
    {exponent : Int}
    (low : (2 : ℚ) ^ exponent ≤ numerator / denominator)
    (high : (numerator / denominator : ℚ) < 2 ^ (exponent + 1)) :
    floorLog numerator denominator = exponent := by
  obtain ⟨floorLow, floorHigh⟩ := floorLog_spec numeratorPos denominatorPos
  have notBelow : exponent < floorLog numerator denominator + 1 :=
    (zpow_lt_zpow_iff_right₀ one_lt_two).mp (lt_of_le_of_lt low floorHigh)
  have notAbove : floorLog numerator denominator < exponent + 1 :=
    (zpow_lt_zpow_iff_right₀ one_lt_two).mp (lt_of_le_of_lt floorLow high)
  omega

/-- Below a power of two the exponent is less than its own. -/
theorem floorLog_lt
    (numeratorPos : 0 < numerator)
    (denominatorPos : 0 < denominator)
    {exponent : Int}
    (below : (numerator / denominator : ℚ) < 2 ^ exponent) :
    floorLog numerator denominator < exponent :=
  (zpow_lt_zpow_iff_right₀ one_lt_two).mp
    (lt_of_le_of_lt (floorLog_spec numeratorPos denominatorPos).1 below)

/-- What lies within one half of a multiple of a power of two rounds to this multiple. -/
theorem roundQuotient_scaleDown
    (positive : 0 < denominator)
    {whole : Nat}
    {exponent : Int}
    (low : (2 * whole - 1 : ℚ) * 2 ^ (exponent - 1) ≤ numerator / denominator)
    (high : (numerator / denominator : ℚ) ≤ (2 * whole + 1) * 2 ^ (exponent - 1))
    (tieBelow :
      (2 * whole - 1 : ℚ) * 2 ^ (exponent - 1) = numerator / denominator →
        whole % 2 = 0)
    (tieAbove :
      (numerator / denominator : ℚ) = (2 * whole + 1) * 2 ^ (exponent - 1) →
        whole % 2 = 0) :
    roundQuotient .toEven (scaleDown numerator denominator exponent).1
        (scaleDown numerator denominator exponent).2 =
      whole := by
  have scaled := @scaleDown_eq numerator denominator exponent
  have unitPos := @scaleDown_pos numerator denominator positive exponent
  generalize scaleDown numerator denominator exponent = quotient at scaled unitPos ⊢
  have unitCast : (0 : ℚ) < quotient.2 := by
    exact_mod_cast unitPos
  have halfPos : (0 : ℚ) < 2 ^ (exponent - 1) :=
    zpow_pos two_pos _
  have halves :
      (numerator / denominator : ℚ) =
        2 * quotient.1 / quotient.2 * 2 ^ (exponent - 1) := by
    have unit : (2 : ℚ) ^ exponent = 2 * 2 ^ (exponent - 1) := by
      rw [← zpow_one_add₀ two_ne_zero, add_sub_cancel]
    rw [mul_div_assoc, scaled, unit]
    field_simp
  rw [halves] at low high tieBelow tieAbove
  apply roundQuotient_eq unitPos
  · have within := le_of_mul_le_mul_right high halfPos
    rw [div_le_iff₀ unitCast] at within
    have : (2 * quotient.1 : ℚ) ≤ 2 * whole * quotient.2 + quotient.2 := by
      linarith
    exact_mod_cast this
  · have within := le_of_mul_le_mul_right low halfPos
    rw [le_div_iff₀ unitCast] at within
    have : (2 * whole * quotient.2 : ℚ) ≤ 2 * quotient.1 + quotient.2 := by
      linarith
    exact_mod_cast this
  · intro tie
    apply tieAbove
    congr 1
    rw [div_eq_iff unitCast.ne']
    have : (2 * quotient.1 : ℚ) = 2 * whole * quotient.2 + quotient.2 := by
      exact_mod_cast tie
    linarith
  · intro tie
    apply tieBelow
    congr 1
    rw [eq_div_iff unitCast.ne']
    have : (2 * whole * quotient.2 : ℚ) = 2 * quotient.1 + quotient.2 := by
      exact_mod_cast tie
    linarith

/-! ## The interval of a value -/

/-- A quarter of the unit in the last place, as a number. -/
def quarterLength (value : Binary64) : ℚ :=
  2 ^ (value.exponent - 2)

/-- A number lies in the interval that a value owns. -/
@[mk_iff owns_number_iff]
structure Owns (value : Binary64) (number : ℚ) : Prop where
  atLeast : value.lowerEnd * value.quarterLength ≤ number
  atMost : number ≤ value.upperEnd * value.quarterLength
  tieBelow : value.lowerEnd * value.quarterLength = number → value.ownsEnds = true
  tieAbove : number = value.upperEnd * value.quarterLength → value.ownsEnds = true

section

variable {value : Binary64}

theorem quarterLength_pos (value : Binary64) : 0 < value.quarterLength :=
  zpow_pos two_pos _

theorem two_zpow_eq
    {power : Int}
    {places : Nat}
    (same : power + 2 = value.exponent + places) :
    (2 : ℚ) ^ power = 2 ^ places * value.quarterLength := by
  rw [quarterLength, ← zpow_natCast, ← zpow_add₀ two_ne_zero]
  congr 1
  omega

/-- The lower end lies above zero. -/
theorem two_le_lowerEnd
    (positive : 0 < value.significand) :
    2 ≤ value.lowerEnd := by
  simp only [lowerEnd, quarters]
  split <;> omega

theorem place_lt
    (canonical : value.IsCanonical) :
    value.place < infiniteField * implicitBit := by
  obtain ⟨digits, _, atLeast, atMost⟩ := canonical
  simp only [place, infiniteField, implicitBit, leastExponent] at *
  omega

/-- Below the power of two that a value is, floats lie twice as close. -/
theorem nearestBits?_below
    (isPower : value.significand = implicitBit)
    (notLeast : leastExponent < value.exponent)
    (numeratorPos : 0 < numerator)
    (denominatorPos : 0 < denominator)
    (owned : value.Owns (numerator / denominator))
    (below : (numerator / denominator : ℚ) < 2 ^ (value.exponent + 52)) :
    max leastExponent (floorLog numerator denominator - 52) = value.exponent - 1 ∧
      roundQuotient .toEven
          (scaleDown numerator denominator (value.exponent - 1)).1
          (scaleDown numerator denominator (value.exponent - 1)).2 =
        2 * implicitBit := by
  have lower : value.lowerEnd = 4 * implicitBit - 1 := by
    rw [lowerEnd, if_pos ⟨isPower, notLeast⟩, quarters, isPower]
  have atLeast := owned.atLeast
  rw [lower] at atLeast
  have quarterPos := quarterLength_pos value
  have power : (2 : ℚ) ^ (value.exponent + 52) = 2 ^ 54 * value.quarterLength :=
    two_zpow_eq (by omega)
  have lowerPower : (2 : ℚ) ^ (value.exponent + 51) = 2 ^ 53 * value.quarterLength :=
    two_zpow_eq (by omega)
  have floor : floorLog numerator denominator = value.exponent + 51 := by
    apply floorLog_eq numeratorPos denominatorPos
    · rw [lowerPower]
      refine le_trans ?_ atLeast
      gcongr
      norm_num [implicitBit]
    · have next : value.exponent + 51 + 1 = value.exponent + 52 := by
        omega
      rw [next]
      exact below
  constructor
  · rw [floor]
    omega
  · have half : (2 : ℚ) ^ (value.exponent - 1 - 1) = value.quarterLength := by
      rw [quarterLength]
      congr 1
      omega
    rw [power] at below
    apply roundQuotient_scaleDown denominatorPos
    · rw [half]
      refine le_trans (le_of_eq ?_) atLeast
      norm_num [implicitBit]
    · rw [half]
      refine le_trans (le_of_lt below) ?_
      gcongr
      norm_num [implicitBit]
    · intro _
      rfl
    · intro _
      rfl

theorem upperEnd_cast (value : Binary64) :
    (value.upperEnd : ℚ) = 4 * value.significand + 2 := by
  simp [upperEnd, quarters]

theorem lowerEnd_cast_ge
    (positive : 0 < value.significand) :
    (4 * value.significand - 2 : ℚ) ≤ value.lowerEnd := by
  have atLeast : 4 * value.significand ≤ value.lowerEnd + 2 := by
    simp only [lowerEnd, quarters]
    split <;> omega
  have cast : (4 * value.significand : ℚ) ≤ value.lowerEnd + 2 := by
    exact_mod_cast atLeast
  linarith

/-- Where floats lie as close as at the value, the number rounds to its significand. -/
theorem nearestBits?_beside
    (canonical : value.IsCanonical)
    (positive : 0 < value.significand)
    (numeratorPos : 0 < numerator)
    (denominatorPos : 0 < denominator)
    (owned : value.Owns (numerator / denominator))
    (notBelow :
      value.exponent = leastExponent ∨
        (2 : ℚ) ^ (value.exponent + 52) ≤ numerator / denominator) :
    max leastExponent (floorLog numerator denominator - 52) = value.exponent ∧
      roundQuotient .toEven
          (scaleDown numerator denominator value.exponent).1
          (scaleDown numerator denominator value.exponent).2 =
        value.significand := by
  have quarterPos := quarterLength_pos value
  have below : (numerator / denominator : ℚ) < 2 ^ (value.exponent + 53) := by
    have power : (2 : ℚ) ^ (value.exponent + 53) = 2 ^ 55 * value.quarterLength :=
      two_zpow_eq (by omega)
    have digits : (value.upperEnd : ℚ) < 2 ^ 55 := by
      have fits := canonical.digits
      have : value.upperEnd < 2 ^ 55 := by
        simp only [upperEnd, quarters, implicitBit] at *
        omega
      exact_mod_cast this
    rw [power]
    refine lt_of_le_of_lt owned.atMost ?_
    gcongr
  constructor
  · rcases notBelow with isLeast | notBelow
    · have := floorLog_lt numeratorPos denominatorPos below
      omega
    · have next : value.exponent + 52 + 1 = value.exponent + 53 := by
        omega
      have floor : floorLog numerator denominator = value.exponent + 52 :=
        floorLog_eq numeratorPos denominatorPos notBelow (next ▸ below)
      have := canonical.atLeast
      omega
  · have half : (2 : ℚ) ^ (value.exponent - 1) = 2 ^ 1 * value.quarterLength :=
      two_zpow_eq (by omega)
    have upper :
        (2 * value.significand + 1 : ℚ) * 2 ^ (value.exponent - 1) =
          value.upperEnd * value.quarterLength := by
      rw [half, upperEnd_cast]
      ring
    have lower :
        (2 * value.significand - 1 : ℚ) * 2 ^ (value.exponent - 1) ≤
          value.lowerEnd * value.quarterLength := by
      have := lowerEnd_cast_ge positive
      rw [half]
      nlinarith
    have even : value.ownsEnds = true → value.significand % 2 = 0 := by
      intro owns
      simpa [ownsEnds] using owns
    apply roundQuotient_scaleDown denominatorPos
    · exact le_trans lower owned.atLeast
    · rw [upper]
      exact owned.atMost
    · intro tie
      exact even (owned.tieBelow (le_antisymm owned.atLeast (tie ▸ lower)))
    · intro tie
      exact even (owned.tieAbove (tie.trans upper))

/-- What a value owns has the value's magnitude nearest to it. -/
theorem nearestBits?_eq
    (canonical : value.IsCanonical)
    (positive : 0 < value.significand)
    (numeratorPos : 0 < numerator)
    (denominatorPos : 0 < denominator)
    (owned : value.Owns (numerator / denominator)) :
    nearestBits? numerator denominator = some value.place := by
  have fits := place_lt canonical
  rw [nearestBits?]
  by_cases notBelow :
      value.exponent = leastExponent ∨
        (2 : ℚ) ^ (value.exponent + 52) ≤ numerator / denominator
  · obtain ⟨exponent, rounded⟩ :=
      nearestBits?_beside canonical positive numeratorPos denominatorPos owned notBelow
    simp only [exponent, rounded]
    exact if_pos fits
  · rw [not_or, not_le] at notBelow
    obtain ⟨notLeast, below⟩ := notBelow
    have above : leastExponent < value.exponent :=
      lt_of_le_of_ne canonical.atLeast (Ne.symm notLeast)
    have isPower : value.significand = implicitBit := by
      have full := canonical.full.resolve_right notLeast
      by_contra notPower
      have power : (2 : ℚ) ^ (value.exponent + 52) = 2 ^ 54 * value.quarterLength :=
        two_zpow_eq (by omega)
      have reached : 2 ^ 54 * value.quarterLength ≤ (numerator / denominator : ℚ) := by
        have lower : 2 ^ 54 ≤ value.lowerEnd := by
          rw [lowerEnd, if_neg fun isPower => notPower isPower.1, quarters]
          simp only [implicitBit] at full notPower
          omega
        have cast : (2 ^ 54 : ℚ) ≤ value.lowerEnd := by
          exact_mod_cast lower
        exact le_trans
          (mul_le_mul_of_nonneg_right cast (le_of_lt (quarterLength_pos value)))
          owned.atLeast
      rw [← power] at reached
      exact absurd below (not_lt.mpr reached)
    obtain ⟨exponent, rounded⟩ :=
      nearestBits?_below isPower above numeratorPos denominatorPos owned below
    have place :
        (value.exponent - 1 - leastExponent).toNat * implicitBit + 2 * implicitBit =
          value.place := by
      rw [Binary64.place, isPower]
      simp only [implicitBit, leastExponent] at *
      omega
    simp only [exponent, rounded, place]
    exact if_pos fits

/-! ## Decimals of a value -/

theorem Owns.ge
    {number : ℚ}
    (owned : value.Owns number)
    (canonical : value.IsCanonical)
    (positive : 0 < value.significand) :
    (2 : ℚ) ^ (-1075 : Int) ≤ number := by
  have lower : (2 : ℚ) ≤ value.lowerEnd := by
    exact_mod_cast two_le_lowerEnd positive
  have quarter : (2 : ℚ) ^ (-1076 : Int) ≤ value.quarterLength := by
    have atLeast := canonical.atLeast
    rw [leastExponent] at atLeast
    exact zpow_le_zpow_right₀ one_le_two (by omega)
  calc
    (2 : ℚ) ^ (-1075 : Int) = 2 * 2 ^ (-1076 : Int) := by
        rw [← zpow_one_add₀ two_ne_zero]
        norm_num
    _ ≤ value.lowerEnd * value.quarterLength := by
        gcongr
    _ ≤ number := owned.atLeast

theorem Owns.lt
    {number : ℚ}
    (owned : value.Owns number)
    (canonical : value.IsCanonical) :
    number < (2 : ℚ) ^ (1024 : Int) := by
  have upper : (value.upperEnd : ℚ) < 2 ^ (55 : Int) := by
    have digits := canonical.digits
    have atMost : value.upperEnd < 2 ^ 55 := by
      simp only [upperEnd, quarters, implicitBit] at *
      omega
    exact_mod_cast atMost
  have quarter : value.quarterLength ≤ 2 ^ (969 : Int) := by
    have atMost := canonical.atMost
    exact zpow_le_zpow_right₀ one_le_two (by omega)
  calc
    number ≤ value.upperEnd * value.quarterLength := owned.atMost
    _ < 2 ^ (55 : Int) * value.quarterLength :=
        mul_lt_mul_of_pos_right upper (quarterLength_pos value)
    _ ≤ 2 ^ (55 : Int) * 2 ^ (969 : Int) :=
        mul_le_mul_of_nonneg_left quarter (zpow_nonneg zero_le_two _)
    _ = 2 ^ (1024 : Int) := (zpow_add₀ two_ne_zero 55 969).symm

/-- Digits that leave a number below every float's interval are none of a float's. -/
theorem clearlyTooSmall_eq_false
    {digits : Nat}
    {exponent : Int}
    (large : (2 : ℚ) ^ (-1075 : Int) ≤ digits * 10 ^ exponent) :
    clearlyTooSmall digits exponent = false := by
  apply decide_eq_false
  intro small
  have bound : digits < 10 ^ (digits.log2 / 3 + 1) := by
    calc
      digits < 2 ^ (digits.log2 + 1) := Nat.lt_log2_self
      _ ≤ 2 ^ (3 * (digits.log2 / 3 + 1)) :=
          Nat.pow_le_pow_right (by decide) (by omega)
      _ = 8 ^ (digits.log2 / 3 + 1) := by
          rw [Nat.pow_mul]
      _ ≤ 10 ^ (digits.log2 / 3 + 1) := Nat.pow_le_pow_left (by decide) _
  have cast : (digits : ℚ) < 10 ^ ((digits.log2 / 3 + 1 : Nat) : Int) := by
    rw [zpow_natCast]
    exact_mod_cast bound
  have tiny : (digits : ℚ) * 10 ^ exponent < 2 ^ (-1075 : Int) := by
    calc
      (digits : ℚ) * 10 ^ exponent <
          10 ^ ((digits.log2 / 3 + 1 : Nat) : Int) * 10 ^ exponent := by
          gcongr
      _ = 10 ^ (exponent + (digits.log2 / 3 + 1 : Nat)) := by
          rw [← zpow_add₀ (by norm_num), add_comm]
      _ ≤ 10 ^ (-331 : Int) := zpow_le_zpow_right₀ (by norm_num) (by omega)
      _ ≤ 2 ^ (-1075 : Int) := by
          have powers : (2 : ℚ) ^ 1075 ≤ 10 ^ 331 := by
            exact_mod_cast (by decide +kernel : (2 ^ 1075 : Nat) ≤ 10 ^ 331)
          rw [zpow_neg, zpow_neg]
          apply inv_anti₀ (zpow_pos two_pos _)
          exact_mod_cast powers
  exact absurd large (not_le.mpr tiny)

/-- Digits that leave a number above every float's interval are none of a float's. -/
theorem clearlyTooLarge_eq_false
    {digits : Nat}
    {exponent : Int}
    (positive : 0 < digits)
    (small : digits * 10 ^ exponent < (2 : ℚ) ^ (1024 : Int)) :
    clearlyTooLarge digits exponent = false := by
  apply decide_eq_false
  intro large
  have bound : 10 ^ (digits.log2 / 10 * 3) ≤ digits := by
    calc
      10 ^ (digits.log2 / 10 * 3) = 1000 ^ (digits.log2 / 10) := by
          rw [Nat.mul_comm, Nat.pow_mul]
      _ ≤ 1024 ^ (digits.log2 / 10) := Nat.pow_le_pow_left (by decide) _
      _ = 2 ^ (10 * (digits.log2 / 10)) := by
          rw [Nat.pow_mul]
      _ ≤ 2 ^ digits.log2 := Nat.pow_le_pow_right (by decide) (by omega)
      _ ≤ digits := Nat.log2_self_le (Nat.ne_of_gt positive)
  have cast : (10 : ℚ) ^ ((digits.log2 / 10 * 3 : Nat) : Int) ≤ digits := by
    rw [zpow_natCast]
    exact_mod_cast bound
  have huge : (2 : ℚ) ^ (1024 : Int) ≤ digits * 10 ^ exponent := by
    calc
      (2 : ℚ) ^ (1024 : Int) ≤ 10 ^ (311 : Int) := by
          exact_mod_cast (by decide +kernel : (2 ^ 1024 : Nat) ≤ 10 ^ 311)
      _ ≤ 10 ^ (exponent + (digits.log2 / 10 * 3 : Nat)) :=
          zpow_le_zpow_right₀ (by norm_num) (by omega)
      _ = 10 ^ ((digits.log2 / 10 * 3 : Nat) : Int) * 10 ^ exponent := by
          rw [← zpow_add₀ (by norm_num), add_comm]
      _ ≤ digits * 10 ^ exponent := by
          gcongr
  exact absurd small (not_lt.mpr huge)

/-- A decimal that a value owns has the float of the value's bits nearest to it. -/
theorem nearest?_eq
    {digits : Nat}
    {exponent : Int}
    (canonical : value.IsCanonical)
    (positive : 0 < value.significand)
    (digitsPos : 0 < digits)
    (owned : value.Owns (digits * 10 ^ exponent)) :
    nearest? value.negative digits exponent =
      some (Float.ofBits (UInt64.ofNat value.bits)) := by
  have notSmall :=
    clearlyTooSmall_eq_false (owned.ge canonical positive)
  have notLarge :=
    clearlyTooLarge_eq_false digitsPos (owned.lt canonical)
  have notZero : digits ≠ 0 :=
    Nat.ne_of_gt digitsPos
  have found :
      (if 0 ≤ exponent then
          nearestBits? (digits * Nat.pow 10 exponent.toNat) 1
        else
          nearestBits? digits (Nat.pow 10 (-exponent).toNat)) =
        some value.place := by
    by_cases whole : 0 ≤ exponent
    · obtain ⟨power, rfl⟩ := Int.eq_ofNat_of_zero_le whole
      rw [if_pos whole, Int.toNat_natCast]
      apply nearestBits?_eq canonical positive
        (Nat.mul_pos digitsPos (Nat.pow_pos (by decide))) Nat.one_pos
      simpa using owned
    · obtain ⟨power, rfl⟩ : ∃ power : Nat, exponent = -power :=
        ⟨(-exponent).toNat, by omega⟩
      rw [if_neg whole, neg_neg, Int.toNat_natCast]
      apply nearestBits?_eq canonical positive digitsPos (Nat.pow_pos (by decide))
      simpa [div_eq_mul_inv] using owned
  simp only [nearest?, notZero, notSmall, notLarge, found, Bool.or_false, decide_false,
    Bool.false_eq_true, ↓reduceIte]
  rfl

end

theorem lt_of_nearestBits?
    {bits : Nat}
    (nearest : nearestBits? numerator denominator = some bits) :
    bits < infiniteField * implicitBit := by
  simp only [nearestBits?] at nearest
  split at nearest
  · next finite => exact Option.some.inj nearest ▸ finite
  · cases nearest

/-- A nearest float is finite. -/
theorem isFinite_of_nearest?
    {negative : Bool}
    {digits : Nat}
    {exponent : Int}
    {float : Float}
    (nearest : nearest? negative digits exponent = some float) :
    float.isFinite = true := by
  simp only [nearest?] at nearest
  split at nearest
  · obtain rfl := Option.some.inj nearest
    exact isFinite_ofBits (by decide : 0 < infiniteField * implicitBit) negative
  split at nearest
  · cases nearest
  · obtain ⟨bits, found, rfl⟩ := Option.map_eq_some_iff.mp nearest
    apply isFinite_ofBits
    split at found <;> exact lt_of_nearestBits? found

/-! ## Numbers within the range -/

/-- A quotient below `2 ^ 1023` has a magnitude nearest to it. -/
theorem isSome_nearestBits?
    (numeratorPos : 0 < numerator)
    (denominatorPos : 0 < denominator)
    (below : (numerator / denominator : ℚ) < 2 ^ (1023 : Int)) :
    (nearestBits? numerator denominator).isSome = true := by
  have floor := floorLog_lt numeratorPos denominatorPos below
  have high := (floorLog_spec numeratorPos denominatorPos).2
  simp only [nearestBits?]
  have within : floorLog numerator denominator + 1 ≤
      max leastExponent (floorLog numerator denominator - 52) + 53 := by
    omega
  have atMost : max leastExponent (floorLog numerator denominator - 52) ≤ 970 := by
    rw [leastExponent]
    omega
  generalize max leastExponent (floorLog numerator denominator - 52) = exponent at within atMost ⊢
  have full :
      roundQuotient .toEven (scaleDown numerator denominator exponent).1
          (scaleDown numerator denominator exponent).2 ≤
        2 ^ 53 := by
    apply roundQuotient_le (scaleDown_pos denominatorPos exponent)
    rw [scaleDown_eq, div_lt_iff₀ (zpow_pos two_pos _), ← zpow_natCast, ← zpow_add₀ two_ne_zero]
    exact lt_of_lt_of_le high (zpow_le_zpow_right₀ one_le_two (by omega))
  rw [if_pos, Option.isSome_some]
  simp only [infiniteField, implicitBit, leastExponent] at full ⊢
  omega

/-- A decimal below `2 ^ 1023` has a float nearest to it. -/
theorem isSome_nearest?
    {digits : Nat}
    {exponent : Int}
    (negative : Bool)
    (below : digits * 10 ^ exponent < (2 : ℚ) ^ (1023 : Int)) :
    (nearest? negative digits exponent).isSome = true := by
  simp only [nearest?]
  split
  · rfl
  · next notTiny =>
      simp only [Bool.or_eq_true, decide_eq_true_eq, not_or] at notTiny
      have digitsPos : 0 < digits :=
        Nat.pos_of_ne_zero notTiny.1
      have notLarge : clearlyTooLarge digits exponent = false :=
        clearlyTooLarge_eq_false digitsPos
          (lt_trans below (zpow_lt_zpow_right₀ one_lt_two (by decide)))
      rw [notLarge, if_neg Bool.false_ne_true, Option.isSome_map]
      by_cases whole : 0 ≤ exponent
      · obtain ⟨power, rfl⟩ := Int.eq_ofNat_of_zero_le whole
        rw [if_pos whole, Int.toNat_natCast]
        apply isSome_nearestBits? (Nat.mul_pos digitsPos (Nat.pow_pos (by decide))) Nat.one_pos
        simpa using below
      · obtain ⟨power, rfl⟩ : ∃ power : Nat, exponent = -power :=
          ⟨(-exponent).toNat, by omega⟩
        rw [if_neg whole, neg_neg, Int.toNat_natCast]
        apply isSome_nearestBits? digitsPos (Nat.pow_pos (by decide))
        simpa [div_eq_mul_inv] using below

end Binary64

end Retrace.Decimal
