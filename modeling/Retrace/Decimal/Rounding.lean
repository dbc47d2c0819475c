namespace Retrace.Decimal

/-!
# Rounding quotients

Decimal and binary fractions meet as quotients of natural numbers.  A quotient
is rounded to the nearest whole number; which of two equally near numbers is
taken is a matter of convention.
-/

/-- Which of two equally near numbers is taken. -/
inductive Tie
  | toEven
  | up
deriving DecidableEq, Repr

/-- Whether a half above `whole` goes up. -/
def Tie.goesUp (tie : Tie) (whole : Nat) : Bool :=
  match tie with
  | .toEven => whole % 2 == 1
  | .up => true

/-- The whole number nearest to a quotient. -/
def roundQuotient (tie : Tie) (numerator denominator : Nat) : Nat :=
  let whole := numerator / denominator
  let rest := numerator % denominator
  if 2 * rest < denominator then
    whole
  else if denominator < 2 * rest then
    whole + 1
  else if tie.goesUp whole then
    whole + 1
  else
    whole

/-- Rounding changes a quotient by at most one half. -/
theorem roundQuotient_near
    (tie : Tie)
    {numerator denominator : Nat}
    (positive : 0 < denominator) :
    2 * numerator ≤ (2 * roundQuotient tie numerator denominator + 1) * denominator ∧
      2 * roundQuotient tie numerator denominator * denominator ≤
        2 * numerator + denominator := by
  have parts := Nat.div_add_mod numerator denominator
  have small := Nat.mod_lt numerator positive
  simp only [roundQuotient]
  generalize numerator % denominator = rest at *
  generalize numerator / denominator = whole at *
  split
  · grind
  split
  · grind
  split <;> grind

end Retrace.Decimal
