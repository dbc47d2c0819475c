import Retrace.Proofs.Decimal.Nearest
namespace Retrace.Decimal

/-!
# The shortest decimal reads back

A hit of the search is a grid point that the value owns, by definition.  What is left is
the finest grid, whose nearest point is taken without a look: its points lie so close that
the one nearest to the value cannot leave the interval.
-/

/-- A quotient is rounded down or up. -/
theorem roundQuotient_eq_or
    (tie : Tie)
    (numerator denominator : Nat) :
    roundQuotient tie numerator denominator = numerator / denominator ∨
      roundQuotient tie numerator denominator = numerator / denominator + 1 := by
  simp only [roundQuotient]
  split
  · exact .inl rfl
  split
  · exact .inr rfl
  split
  · exact .inr rfl
  · exact .inl rfl

/-- Powers compare where their exponents do, by one ratio above one and another below. -/
theorem ten_zpow_le_two_zpow
    {tens twos : Int}
    (aboveOne : 10 * tens ≤ 3 * twos)
    (belowOne : 43 * tens ≤ 13 * twos) :
    (10 : ℚ) ^ tens ≤ 2 ^ twos := by
  have twosPos : (0 : ℚ) < 2 ^ twos :=
    zpow_pos two_pos _
  rcases le_or_gt 0 tens with large | small
  · have cubes : ((10 : ℚ) ^ tens) ^ 3 ≤ (2 ^ twos) ^ 3 := by
      calc
        ((10 : ℚ) ^ tens) ^ 3 = (10 ^ 3) ^ tens := by
            rw [← zpow_natCast, ← zpow_natCast, zpow_comm]
        _ ≤ (2 ^ 10) ^ tens := zpow_le_zpow_left₀ large (by norm_num) (by norm_num)
        _ = 2 ^ (10 * tens) := by
            rw [zpow_mul]
            rfl
        _ ≤ 2 ^ (twos * 3) := zpow_le_zpow_right₀ one_le_two (by omega)
        _ = (2 ^ twos) ^ 3 := zpow_mul _ _ _
    exact le_of_pow_le_pow_left₀ (by decide) twosPos.le cubes
  · obtain ⟨power, rfl⟩ : ∃ power : Nat, tens = -power :=
      ⟨(-tens).toNat, by omega⟩
    have powers : ((10 : ℚ) ^ (-power : Int)) ^ 13 ≤ (2 ^ twos) ^ 13 := by
      calc
        ((10 : ℚ) ^ (-power : Int)) ^ 13 = ((10 ^ 13) ^ power)⁻¹ := by
            rw [zpow_neg, zpow_natCast, inv_pow, ← pow_mul, ← pow_mul, Nat.mul_comm]
        _ ≤ ((2 ^ 43) ^ power)⁻¹ :=
            inv_anti₀ (by positivity) (pow_le_pow_left₀ (by norm_num) (by norm_num) _)
        _ = 2 ^ (43 * -power : Int) := by
            rw [mul_neg, zpow_neg, zpow_mul, zpow_natCast]
            rfl
        _ ≤ 2 ^ (twos * 13) := zpow_le_zpow_right₀ one_le_two (by omega)
        _ = (2 ^ twos) ^ 13 := zpow_mul _ _ _
    exact le_of_pow_le_pow_left₀ (by decide) twosPos.le powers

namespace Binary64

variable {value : Binary64}

/-- The lengths of a grid are those of its decimal and of a quarter, in some unit. -/
theorem exists_unit
    (value : Binary64)
    (exponent : Int) :
    ∃ unit : ℚ, 0 < unit ∧
      10 ^ exponent = (value.grid exponent).spacing * unit ∧
      value.quarterLength = (value.grid exponent).quarter * unit := by
  have quarter : value.quarterLength = value.quarterUnit.1 / value.quarterUnit.2 := by
    rw [quarterUnit, scaleDown_eq, quarterLength, ← neg_sub 2 value.exponent, zpow_neg]
    simp
  have denominatorPos : (0 : ℚ) < value.quarterUnit.2 := by
    exact_mod_cast scaleDown_pos Nat.one_pos _
  rw [grid]
  generalize value.quarterUnit = fraction at quarter denominatorPos ⊢
  obtain ⟨numerator, denominator⟩ := fraction
  rcases le_or_gt 0 exponent with whole | fractional
  · obtain ⟨power, rfl⟩ := Int.eq_ofNat_of_zero_le whole
    refine ⟨1 / denominator, by positivity, ?_, ?_⟩
    · simp [denominatorPos.ne']
    · simp [quarter, div_eq_mul_inv]
  · obtain ⟨power, rfl⟩ : ∃ power : Nat, exponent = -power :=
      ⟨(-exponent).toNat, by omega⟩
    simp only [not_le.mpr fractional, ↓reduceIte]
    refine ⟨10 ^ (-power : Int) / denominator, by positivity, ?_, ?_⟩
    · field_simp
    · rw [quarter]
      simp only [neg_neg, Int.toNat_natCast, Nat.pow_eq, zpow_neg, zpow_natCast]
      push_cast
      field_simp

/-- The search takes a grid point for a hit where the value owns its decimal. -/
theorem owns_iff
    {exponent : Int}
    {point : Nat} :
    value.owns (value.grid exponent) point = true ↔
      value.Owns (point * 10 ^ exponent) := by
  obtain ⟨unit, unitPos, spacing, quarter⟩ := exists_unit value exponent
  have quarters (count : Nat) :
      count * value.quarterLength =
        (count * (value.grid exponent).quarter : Nat) * unit := by
    rw [quarter]
    push_cast
    ring
  have place :
      (point * 10 ^ exponent : ℚ) =
        (point * (value.grid exponent).spacing : Nat) * unit := by
    rw [spacing]
    push_cast
    ring
  have unitNe : unit ≠ 0 :=
    unitPos.ne'
  rw [owns_number_iff, quarters, quarters, place, mul_le_mul_iff_left₀ unitPos,
    mul_le_mul_iff_left₀ unitPos, mul_left_inj' unitNe, mul_left_inj' unitNe,
    Nat.cast_le, Nat.cast_le, Nat.cast_inj, Nat.cast_inj, owns]
  cases value.ownsEnds
  · simp only [Bool.false_eq_true, ↓reduceIte, Bool.and_eq_true, decide_eq_true_eq,
      imp_false]
    omega
  · simp

/-- A hit reads back as the value. -/
theorem owns_of_hit?
    {tie : Tie}
    {grid : Grid}
    {point : Nat}
    (hit : value.hit? tie grid = some point) :
    value.owns grid point = true := by
  rw [hit?] at hit
  split at hit
  · next below above =>
      obtain rfl := Option.some.inj hit
      rcases roundQuotient_eq_or tie (value.quarters * grid.quarter) grid.spacing with
        down | up
      · rw [down]
        exact below
      · rw [up]
        exact above
  · next below _ => exact Option.some.inj hit ▸ below
  · next _ above => exact Option.some.inj hit ▸ above
  · simp at hit

/-- On a grid finer than two quarter units, the point nearest to the value is owned. -/
theorem owns_of_fine
    (tie : Tie)
    {grid : Grid}
    (spacingPos : 0 < grid.spacing)
    (fine : grid.spacing < 2 * grid.quarter)
    (positive : 0 < value.significand) :
    value.owns grid
      (roundQuotient tie (value.quarters * grid.quarter) grid.spacing) = true := by
  obtain ⟨above, below⟩ :=
    @roundQuotient_near tie (value.quarters * grid.quarter) grid.spacing spacingPos
  generalize roundQuotient tie (value.quarters * grid.quarter) grid.spacing = point
    at above below ⊢
  have lower : value.lowerEnd * grid.quarter < point * grid.spacing := by
    have end_le : value.lowerEnd + 1 ≤ value.quarters := by
      simp only [lowerEnd, quarters]
      split <;> omega
    nlinarith
  have upper : point * grid.spacing < value.upperEnd * grid.quarter := by
    rw [upperEnd]
    nlinarith
  simp [owns, lower, upper, lower.le, upper.le]

/-- The search ends with a decimal that the value owns, if its last grid is fine enough. -/
theorem search_owned
    (tie : Tie)
    (positive : 0 < value.significand)
    {finer : Nat}
    {exponent : Int}
    (fine : (10 : ℚ) ^ (exponent - finer) < 2 * value.quarterLength) :
    value.Owns
      ((value.search tie finer exponent).digits *
        10 ^ (value.search tie finer exponent).exponent) := by
  induction finer generalizing exponent with
  | zero =>
      apply owns_iff.mp
      obtain ⟨unit, unitPos, spacing, quarter⟩ := exists_unit value exponent
      rw [Nat.cast_zero, sub_zero, spacing, quarter, ← mul_assoc,
        mul_lt_mul_iff_left₀ unitPos] at fine
      have spacingPos : (0 : ℚ) < (value.grid exponent).spacing * unit :=
        spacing ▸ zpow_pos (by norm_num) exponent
      apply owns_of_fine tie _ _ positive
      · exact_mod_cast pos_of_mul_pos_left spacingPos unitPos.le
      · exact_mod_cast fine
  | succ finer inductionHypothesis =>
      rw [search]
      split
      · next hit => exact owns_iff.mp (owns_of_hit? hit)
      · apply inductionHypothesis
        rwa [sub_sub, add_comm, ← Nat.cast_succ]

/-- The last grid of the search is fine enough. -/
theorem finest_lt
    (canonical : value.IsCanonical)
    (positive : 0 < value.significand) :
    (10 : ℚ) ^ (value.coarseExponent - gridCount) < 2 * value.quarterLength := by
  obtain ⟨digits, _, atLeast, atMost⟩ := canonical
  have length : value.significand.log2 < 53 := by
    rw [Nat.log2_lt (Nat.ne_of_gt positive)]
    exact digits
  calc
    (10 : ℚ) ^ (value.coarseExponent - gridCount) ≤ value.quarterLength := by
        apply ten_zpow_le_two_zpow
        · simp only [coarseExponent, gridCount, leastExponent] at *
          omega
        · simp only [coarseExponent, gridCount, leastExponent] at *
          omega
    _ < 2 * value.quarterLength := by
        have := quarterLength_pos value
        linarith

/-- The shortest decimal of a value reads back as the value. -/
theorem shortest_owned
    (tie : Tie)
    (canonical : value.IsCanonical)
    (positive : 0 < value.significand) :
    value.Owns
      ((value.shortest tie).digits * 10 ^ (value.shortest tie).exponent) :=
  search_owned tie positive (finest_lt canonical positive)

/-- No value but zero owns zero. -/
theorem Owns.digits_pos
    {digits : Nat}
    {exponent : Int}
    (owned : value.Owns (digits * 10 ^ exponent))
    (positive : 0 < value.significand) :
    0 < digits := by
  by_contra zero
  have lower : (0 : ℚ) < value.lowerEnd * value.quarterLength := by
    have endPos : (2 : ℚ) ≤ value.lowerEnd := by
      exact_mod_cast two_le_lowerEnd positive
    exact mul_pos (by linarith) (quarterLength_pos value)
  have atLeast := owned.atLeast
  simp only [Nat.eq_zero_of_not_pos zero, Nat.cast_zero, zero_mul] at atLeast
  exact absurd lower (not_lt.mpr atLeast)

end Binary64

end Retrace.Decimal
