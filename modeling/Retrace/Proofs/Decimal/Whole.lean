import Mathlib
namespace Retrace.Decimal

/-!
# Whole numbers as floats

A count becomes a float before it is compared or subtracted.  Below `2 ^ 53`
nothing is lost in that: the digits of the number are padded with zeros to a
full significand, the padding is undone wherever a result has fewer digits, and
no step of the rounding drops a digit that is not zero.

The lemmas of Batteries on packed floats are in scope under the whole of Mathlib only.
-/

open Float.Model Float.Model.UnpackedFloat

section

variable {number : Nat}

theorem log2_mul_two_pow
    (positive : 0 < number)
    (places : Nat) :
    (number * 2 ^ places).log2 = number.log2 + places := by
  induction places with
  | zero =>
      simp
  | succ fewer inductionHypothesis =>
      have notZero : number * 2 ^ fewer ≠ 0 :=
        Nat.ne_of_gt (Nat.mul_pos positive (Nat.two_pow_pos fewer))
      calc
        (number * 2 ^ (fewer + 1)).log2 = (2 * (number * 2 ^ fewer)).log2 := by
            congr 1
            ring
        _ = (number * 2 ^ fewer).log2 + 1 := Nat.log2_two_mul notZero
        _ = number.log2 + (fewer + 1) := by
            rw [inductionHypothesis, Nat.add_assoc]

theorem log2_le_of_fits
    (positive : 0 < number)
    (fits : number < 2 ^ 53) :
    number.log2 ≤ 52 :=
  Nat.le_of_lt_succ ((Nat.log2_lt (Nat.ne_of_gt positive)).mpr fits)

end

/-! ## Rounding what needs none -/

section

variable
  {significand places : Nat}
  {exponent : Int}

/-- Zeros at the end are dropped without a rest. -/
theorem shiftRight_exact (significand places : Nat) :
    (⟨significand * 2 ^ places, false, false⟩ : ExtendedMantissa) >>> places =
      ⟨significand, false, false⟩ := by
  induction places generalizing significand with
  | zero =>
      simp [HShiftRight.hShiftRight, Nat.repeat]
  | succ fewer inductionHypothesis =>
      have doubled : significand * 2 ^ (fewer + 1) = significand * 2 * 2 ^ fewer := by
        ring
      have dropped := inductionHypothesis (significand * 2)
      rw [doubled]
      simp only [HShiftRight.hShiftRight, Nat.repeat] at dropped ⊢
      rw [dropped]
      simp [ExtendedMantissa.shiftRightOne]

theorem shiftToTargetExponent_exact
    (positive : 0 < significand)
    (full : significand.log2 = 52)
    (normal : -1074 ≤ exponent + places) :
    shiftToTargetExponent Format.binary64 (significand * 2 ^ places) exponent .exact =
      (⟨significand, false, false⟩, exponent + places) := by
  have target :
      Format.binary64.targetExponent
          (totalExponent (significand * 2 ^ places) exponent) =
        exponent + places := by
    rw [totalExponent, log2_mul_two_pow positive, full, Format.targetExponent]
    simp only [Format.mantissaBits, Format.minExponent]
    omega
  have amount : (exponent + (places : Int) - exponent).toNat = places := by
    omega
  rw [shiftToTargetExponent, target, shiftToExponent, amount,
    ExtendedMantissa.ofMantissaAndAccuracy, shiftRight_exact]

/-- A full significand is kept, and zeros behind it go to the exponent. -/
theorem roundWithAccuracy_exact
    (sign : Sign)
    (positive : 0 < significand)
    (full : significand.log2 = 52)
    (normal : -1074 ≤ exponent + places) :
    roundWithAccuracy Format.binary64 sign (significand * 2 ^ places) exponent .exact =
      .finite sign significand (exponent + places) positive := by
  have rounded :
      (⟨significand, false, false⟩ : ExtendedMantissa).roundedMantissa = significand :=
    rfl
  have again :
      shiftToTargetExponent Format.binary64 significand (exponent + places) .exact =
        (⟨significand, false, false⟩, exponent + places) := by
    have kept := @shiftToTargetExponent_exact significand 0 (exponent + places)
    simp only [Nat.pow_zero, Nat.mul_one, Nat.cast_zero, Int.add_zero] at kept
    exact kept positive full normal
  rw [roundWithAccuracy, shiftToTargetExponent_exact positive full normal]
  simp only [rounded, again, Nat.ne_of_gt positive, ↓reduceDIte]

end

/-! ## Packing and unpacking -/

/-- A full significand within the range of exponents survives packing. -/
theorem unpack_pack_full
    {sign : Sign}
    {significand : Nat}
    {exponent : Int}
    (positive : 0 < significand)
    (full : significand.log2 = 52)
    (notTooSmall : -1074 ≤ exponent)
    (notTooLarge : exponent ≤ 971) :
    (Float.Model.pack (.finite sign significand exponent positive)).unpack =
      .finite sign significand exponent positive := by
  obtain ⟨field, rfl⟩ : ∃ field : Nat, exponent = (field : Int) - 1075 :=
    ⟨(exponent + 1075).toNat, by omega⟩
  have bounds := (Nat.log2_eq_iff (Nat.ne_of_gt positive)).mp full
  have bias : Format.binary64.exponentBias = 1023 :=
    rfl
  have biased : ((field : Int) - 1075 + (1023 : Nat) + (52 : Nat)).toNat = field := by
    omega
  have notAllOnes : BitVec.ofNat 11 field ≠ -1#11 := by
    intro same
    have sameNumber := congrArg BitVec.toNat same
    simp only [BitVec.toNat_ofNat, BitVec.reduceNeg] at sameNumber
    omega
  have notZero : BitVec.ofNat 11 field ≠ 0#11 := by
    intro same
    have sameNumber := congrArg BitVec.toNat same
    simp only [BitVec.toNat_ofNat] at sameNumber
    omega
  have digits : (1#1 ++ BitVec.ofNat 52 significand).toNat = significand := by
    rw [BitVec.toNat_append, BitVec.toNat_ofNat, BitVec.toNat_ofNat,
      ← Nat.shiftLeft_add_eq_or_of_lt (Nat.mod_lt _ (Nat.two_pow_pos 52)),
      Nat.shiftLeft_eq]
    omega
  have value : ((BitVec.ofNat 11 field).toNat : Int) - ((1023 : Nat) + (52 : Nat)) =
      field - 1075 := by
    rw [BitVec.toNat_ofNat]
    omega
  change
    UnpackedFloat.unpack Format.binary64
        (UnpackedFloat.pack Format.binary64 (.finite sign significand _ positive)) =
      _
  rw [UnpackedFloat.pack]
  simp only [bias, biased]
  rw [if_neg (by omega), if_pos (by rw [full]; rfl), UnpackedFloat.unpack]
  simp only [unpackMantissa_packComponents, unpackExponent_packComponents,
    unpackSign_packComponents, Sign.ofBitVec_toBitVec, bias]
  rw [if_neg notAllOnes, if_neg notZero]
  simp only [digits, value]

/-! ## Whole numbers -/

/-- The significand of a positive number below `2 ^ 53`, with all its 53 digits. -/
def fullSignificand (number : Nat) : Nat :=
  number * 2 ^ (52 - number.log2)

/-- The float that a whole number below `2 ^ 53` is, unpacked. -/
def unpackedWhole (number : Nat) : UnpackedFloat :=
  if positive : 0 < number then
    .finite .positive (fullSignificand number) (number.log2 - 52)
      (Nat.mul_pos positive (Nat.two_pow_pos _))
  else
    .zero .positive

section

variable {number : Nat}

theorem fullSignificand_pos (positive : 0 < number) : 0 < fullSignificand number :=
  Nat.mul_pos positive (Nat.two_pow_pos _)

theorem log2_fullSignificand
    (positive : 0 < number)
    (fits : number < 2 ^ 53) :
    (fullSignificand number).log2 = 52 := by
  have within := log2_le_of_fits positive fits
  rw [fullSignificand, log2_mul_two_pow positive]
  omega

theorem fullSignificand_mul_two_pow (number places : Nat) :
    fullSignificand number * 2 ^ places = number * 2 ^ (52 - number.log2 + places) := by
  rw [fullSignificand, Nat.mul_assoc, ← Nat.pow_add]

theorem roundWithAccuracy_whole
    {places : Nat}
    (positive : 0 < number)
    (fits : number < 2 ^ 53)
    (enough : 52 ≤ number.log2 + places) :
    roundWithAccuracy Format.binary64 .positive (number * 2 ^ places) (-places) .exact =
      unpackedWhole number := by
  have within := log2_le_of_fits positive fits
  have normal : -1074 ≤ -(places : Int) + (number.log2 + places - 52 : Nat) := by
    omega
  have digits :
      number * 2 ^ places =
        fullSignificand number * 2 ^ (number.log2 + places - 52) := by
    rw [fullSignificand_mul_two_pow]
    congr 2
    omega
  rw [digits, roundWithAccuracy_exact _ (fullSignificand_pos positive)
    (log2_fullSignificand positive fits) normal, unpackedWhole, dif_pos positive]
  congr 1
  omega

/-- However many binary places a whole number is given with, it is that number. -/
theorem round_whole
    (positive : 0 < number)
    (fits : number < 2 ^ 53)
    (places : Nat) :
    UnpackedFloat.round Format.binary64 .positive (number * 2 ^ places) (-places) =
      unpackedWhole number := by
  have within := log2_le_of_fits positive fits
  have target :
      Format.binary64.targetExponent (totalExponent (number * 2 ^ places) (-places)) =
        number.log2 - 52 := by
    rw [totalExponent, log2_mul_two_pow positive, Format.targetExponent]
    simp only [Format.mantissaBits, Format.minExponent]
    omega
  rw [UnpackedFloat.round, target, decreaseExponent]
  by_cases enough : 52 ≤ number.log2 + places
  · have amount : (-(places : Int) - (number.log2 - 52)).toNat = 0 := by
      omega
    simp only [amount, Nat.shiftLeft_zero, Nat.cast_zero, Int.sub_zero]
    exact roundWithAccuracy_whole positive fits enough
  · have amount :
        (-(places : Int) - (number.log2 - 52)).toNat = 52 - number.log2 - places := by
      omega
    have digits :
        (number * 2 ^ places) <<< (52 - number.log2 - places) =
          number * 2 ^ (52 - number.log2) := by
      rw [Nat.shiftLeft_eq, Nat.mul_assoc, ← Nat.pow_add]
      congr 2
      omega
    have exponents :
        -(places : Int) - (52 - number.log2 - places : Nat) =
          -((52 - number.log2 : Nat) : Int) := by
      omega
    simp only [amount, digits, exponents]
    exact roundWithAccuracy_whole positive fits (by omega)

theorem normalize_whole
    (fits : number < 2 ^ 53)
    (places : Nat) :
    UnpackedFloat.normalize Format.binary64 (number * 2 ^ places : Nat) (-places) .positive =
      unpackedWhole number := by
  rcases Nat.eq_zero_or_pos number with isZero | positive
  · subst number
    simp [UnpackedFloat.normalize, unpackedWhole]
  · have above : compare ((number * 2 ^ places : Nat) : Int) 0 = .gt :=
      Int.compare_eq_gt.mpr
        (Int.natCast_pos.mpr (Nat.mul_pos positive (Nat.two_pow_pos places)))
    rw [UnpackedFloat.normalize, above, Int.toNat_natCast]
    exact round_whole positive fits places

theorem unpack_pack_whole (fits : number < 2 ^ 53) :
    (Float.Model.pack (unpackedWhole number)).unpack = unpackedWhole number := by
  rcases Nat.eq_zero_or_pos number with isZero | positive
  · subst number
    rfl
  · have within := log2_le_of_fits positive fits
    rw [unpackedWhole, dif_pos positive]
    exact unpack_pack_full (fullSignificand_pos positive)
      (log2_fullSignificand positive fits) (by omega) (by omega)

theorem toFloat_whole (fits : number < 2 ^ 53) :
    number.toUInt64.toFloat = Float.ofModel (Float.Model.pack (unpackedWhole number)) := by
  have same : number.toUInt64.toNat = number :=
    Nat.mod_eq_of_lt (Nat.lt_trans fits (by decide))
  have rounded := normalize_whole fits 0
  rw [Nat.pow_zero, Nat.mul_one] at rounded
  change
    Float.ofModel
        (Float.Model.pack
          (UnpackedFloat.normalize Format.binary64 (number.toUInt64.toNat : Int) 0 .positive)) =
      _
  rw [same]
  exact congrArg (fun unpacked => Float.ofModel (Float.Model.pack unpacked)) rounded

/-- One times a whole number is that number. -/
theorem mul_one_whole (fits : number < 2 ^ 53) :
    UnpackedFloat.mul Format.binary64 (unpackedWhole number)
        (.finite .positive (2 ^ 52) (-52) (Nat.two_pow_pos 52)) =
      unpackedWhole number := by
  rcases Nat.eq_zero_or_pos number with isZero | positive
  · subst number
    rfl
  · have within := log2_le_of_fits positive fits
    have places : 52 - number.log2 + 52 = 104 - number.log2 := by
      omega
    have exponents :
        (number.log2 : Int) - 52 + -52 = -((104 - number.log2 : Nat) : Int) := by
      omega
    calc
      UnpackedFloat.mul Format.binary64 (unpackedWhole number)
            (.finite .positive (2 ^ 52) (-52) (Nat.two_pow_pos 52)) =
          roundWithAccuracy Format.binary64 .positive (fullSignificand number * 2 ^ 52)
            (number.log2 - 52 + -52) .exact := by
          rw [unpackedWhole, dif_pos positive]
          rfl
      _ = unpackedWhole number := by
          rw [fullSignificand_mul_two_pow, places, exponents]
          exact roundWithAccuracy_whole positive fits (by omega)

/-- A whole number below `2 ^ 53` is a float. -/
theorem ofNat_whole (fits : number < 2 ^ 53) :
    Float.ofNat number = Float.ofModel (Float.Model.pack (unpackedWhole number)) := by
  have one :
      (Float.ofBits 0x3FF0000000000000).toModel.unpack =
        .finite .positive (2 ^ 52) (-52) (Nat.two_pow_pos 52) :=
    rfl
  change Float.ofScientific number false 0 = _
  rw [Float.ofScientific, dif_pos ⟨fits, Nat.zero_le 22⟩]
  change number.toUInt64.toFloat * Float.ofBits 0x3FF0000000000000 = _
  rw [toFloat_whole fits]
  change Float.ofModel (Float.Model.pack (UnpackedFloat.mul Format.binary64 _ _)) = _
  rw [one, unpack_pack_whole fits, mul_one_whole fits]

end

/-! ## Differences -/

section

variable {first second : Nat}

/-- The digits of a number at the places of one with no more digits. -/
theorem decreaseExponent_whole
    (ordered : second.log2 ≤ first.log2)
    (within : first.log2 ≤ 52) :
    (decreaseExponent (fullSignificand first) (first.log2 - 52) (second.log2 - 52)).1 =
      first * 2 ^ (52 - second.log2) := by
  have amount :
      ((first.log2 : Int) - 52 - (second.log2 - 52)).toNat =
        first.log2 - second.log2 := by
    omega
  rw [decreaseExponent, amount]
  change fullSignificand first <<< (first.log2 - second.log2) = _
  rw [Nat.shiftLeft_eq, fullSignificand_mul_two_pow]
  congr 2
  omega

theorem sub_whole
    (ordered : second ≤ first)
    (fits : first < 2 ^ 53) :
    UnpackedFloat.sub Format.binary64 (unpackedWhole first) (unpackedWhole second) =
      unpackedWhole (first - second) := by
  rcases Nat.eq_zero_or_pos second with isZero | secondPositive
  · subst second
    rcases Nat.eq_zero_or_pos first with isZero | firstPositive
    · subst first
      rfl
    · simp only [Nat.sub_zero, unpackedWhole, firstPositive, ↓reduceDIte]
      rfl
  · have firstPositive : 0 < first :=
      Nat.lt_of_lt_of_le secondPositive ordered
    have within := log2_le_of_fits firstPositive fits
    have logs : second.log2 ≤ first.log2 :=
      (Nat.le_log2 (Nat.ne_of_gt firstPositive)).mpr
        (Nat.le_trans (Nat.log2_self_le (Nat.ne_of_gt secondPositive)) ordered)
    have smaller :
        min ((first.log2 : Int) - 52) (second.log2 - 52) = second.log2 - 52 := by
      omega
    have places : (second.log2 : Int) - 52 = -((52 - second.log2 : Nat) : Int) := by
      omega
    have difference :
        ((first * 2 ^ (52 - second.log2) : Nat) : Int) -
            (second * 2 ^ (52 - second.log2) : Nat) =
          ((first - second) * 2 ^ (52 - second.log2) : Nat) := by
      rw [Nat.sub_mul, Nat.cast_sub (Nat.mul_le_mul_right _ ordered)]
    have firstDigits := decreaseExponent_whole logs within
    have secondDigits :=
      decreaseExponent_whole (Nat.le_refl second.log2) (Nat.le_trans logs within)
    rw [unpackedWhole, dif_pos firstPositive, unpackedWhole, dif_pos secondPositive]
    change
      UnpackedFloat.normalize Format.binary64
          (((decreaseExponent (fullSignificand first) (first.log2 - 52)
                (min ((first.log2 : Int) - 52) (second.log2 - 52))).1 : Int) -
            (decreaseExponent (fullSignificand second) (second.log2 - 52)
                (min ((first.log2 : Int) - 52) (second.log2 - 52))).1)
          (min ((first.log2 : Int) - 52) (second.log2 - 52)) .positive =
        _
    rw [smaller, firstDigits, secondDigits, difference, places]
    exact normalize_whole (Nat.lt_of_le_of_lt (Nat.sub_le first second) fits) _

/-- Whole numbers below `2 ^ 53` are subtracted exactly. -/
theorem ofNat_sub
    (ordered : second ≤ first)
    (fits : first < 2 ^ 53) :
    Float.ofNat first - Float.ofNat second = Float.ofNat (first - second) := by
  have secondFits : second < 2 ^ 53 :=
    Nat.lt_of_le_of_lt ordered fits
  have differenceFits : first - second < 2 ^ 53 :=
    Nat.lt_of_le_of_lt (Nat.sub_le first second) fits
  rw [ofNat_whole fits, ofNat_whole secondFits, ofNat_whole differenceFits]
  change Float.ofModel (Float.Model.pack (UnpackedFloat.sub Format.binary64 _ _)) = _
  rw [unpack_pack_whole fits, unpack_pack_whole secondFits, sub_whole ordered fits]

end

end Retrace.Decimal
