import Retrace.Json.Fields
import Retrace.Proofs.Decimal.Shortest
import Retrace.Proofs.Json.Printer
namespace Retrace

/-!
# Floats written and read back

However a float is laid out, with or without an exponent, its spelling names the
shortest decimal of the float, and the float is the one nearest to that decimal.
-/

namespace Numeral

theorem ofDigits_append
    (front back : List Char) :
    ofDigits (front ++ back) = ofDigits front * 10 ^ back.length + ofDigits back := by
  induction back using List.reverseRecOn with
  | nil => simp [ofDigits]
  | append_singleton back digit inductionHypothesis =>
      have concat (digits : List Char) :
          ofDigits (digits ++ [digit]) = ofDigits digits * 10 + (digit.toNat - 48) := by
        simp [ofDigits]
      rw [← List.append_assoc, concat, concat, inductionHypothesis, List.length_append,
        List.length_singleton, pow_succ]
      ring

theorem ofDigits_zeros (count : Nat) :
    ofDigits (List.replicate count '0') = 0 := by
  induction count with
  | zero => rfl
  | succ count inductionHypothesis =>
      rw [List.replicate_succ', ofDigits_append, inductionHypothesis]
      rfl

/-! ## Laying out digits -/

section

open Decimal

variable
  (significant : Significant)
  (negative : Bool)

theorem signText_toList :
    (signText negative).toList = if negative then ['-'] else [] := by
  cases negative <;> rfl

/-- Whole numbers end in a point and a zero. -/
theorem text_padded (count : Nat) :
    ((significant.padded (count + 1)).pointed negative (significant.digits.length + count)
        none (by have := List.length_pos_of_ne_nil significant.nonempty; omega)).text =
      (signText negative ++
        Layout.json.writePositional significant.digits count).toList := by
  have taken :
      (significant.digits ++ List.replicate (count + 1) '0').take
          (significant.digits.length + count) =
        significant.digits ++ List.replicate count '0' := by
    rw [List.take_length_add_append]
    simp
  have left :
      (significant.digits ++ List.replicate (count + 1) '0').drop
          (significant.digits.length + count) =
        ['0'] := by
    rw [List.drop_length_add_append]
    simp
  simp [Significant.pointed, Significant.padded, Spelling.text, Spelling.minus,
    Spelling.fractionText, Spelling.powerText, taken, left, signText_toList,
    Layout.writePositional, zeros, Layout.json]

/-- A point stands among the digits. -/
theorem text_inside
    {before : Nat}
    (positive : 0 < before)
    (inside : before < significant.digits.length) :
    (significant.pointed negative before none positive).text =
      (signText negative ++
        Layout.json.writePositional significant.digits
          (before - significant.digits.length)).toList := by
  have written :
      Layout.json.writePositional significant.digits (before - significant.digits.length) =
        String.ofList (significant.digits.take before) ++ "." ++
          String.ofList (significant.digits.drop before) := by
    have fractional : ¬ (0 : Int) ≤ before - significant.digits.length := by
      omega
    have place :
        (significant.digits.length + (before - significant.digits.length) : Int) = before := by
      omega
    simp only [Layout.writePositional, place, if_neg fractional, Int.natCast_pos, if_pos positive,
      Int.toNat_natCast]
  have some : significant.digits.drop before ≠ [] := by
    simp [List.drop_eq_nil_iff, inside]
  obtain ⟨first, others, dropped⟩ := List.exists_cons_of_ne_nil some
  simp [written, Significant.pointed, Spelling.text, Spelling.minus, Spelling.fractionText,
    Spelling.powerText, signText_toList, dropped]

/-- Digits behind the point follow zeros. -/
theorem text_belowOne (count : Nat) :
    (significant.belowOne negative count).text =
      (signText negative ++
        Layout.json.writePositional significant.digits
          (-count - significant.digits.length)).toList := by
  have some := List.length_pos_of_ne_nil significant.nonempty
  have written :
      Layout.json.writePositional significant.digits (-count - significant.digits.length) =
        "0." ++ zeros count ++ String.ofList significant.digits := by
    have fractional : ¬ (0 : Int) ≤ -count - significant.digits.length := by
      omega
    have place :
        (significant.digits.length + (-count - significant.digits.length) : Int) = -count := by
      omega
    have below : ¬ (0 : Int) < -count := by
      omega
    simp only [Layout.writePositional, place, if_neg fractional, if_neg below, neg_neg,
      Int.toNat_natCast]
  have fraction : List.replicate count '0' ++ significant.digits ≠ [] := by
    simp [significant.nonempty]
  obtain ⟨first, others, fractionEq⟩ := List.exists_cons_of_ne_nil fraction
  simp [written, Significant.belowOne, Spelling.text, Spelling.minus, Spelling.fractionText,
    Spelling.powerText, signText_toList, fractionEq, zeros]

/-- One digit stands before the point. -/
theorem text_scientific (exponent : Int) :
    (significant.pointed negative 1
        (some (.ofInt (significant.digits.length + exponent - 1))) Nat.one_pos).text =
      (signText negative ++
        Layout.writeScientific significant.digits exponent).toList := by
  generalize spelled : significant.pointed negative 1
    (some (.ofInt (significant.digits.length + exponent - 1))) Nat.one_pos = spelling
  have power :
      (if significant.digits.length + exponent - 1 < 0 then "-" else "+").toList =
        [if significant.digits.length + exponent - 1 < 0 then '-' else '+'] := by
    split <;> rfl
  have fraction :
      (if significant.digits.length ≤ 1 then ""
        else "." ++ String.ofList (significant.digits.drop 1)).toList =
      spelling.fractionText := by
    rw [← spelled, Spelling.fractionText, Significant.pointed]
    split
    · next short => simp [List.drop_eq_nil_of_le short]
    · next long =>
        have some : significant.digits.drop 1 ≠ [] :=
          fun none => long (List.drop_eq_nil_iff.mp none)
        obtain ⟨first, others, dropped⟩ := List.exists_cons_of_ne_nil some
        simp [dropped]
  simp only [Layout.writeScientific, String.toList_append, fraction, power]
  simp [← spelled, Significant.pointed, Spelling.text, Spelling.minus, Spelling.powerText,
    signText_toList, Power.text, Power.ofInt, digitsOf]

theorem digits_pointed
    (before : Nat)
    (power : Option Power)
    (positive : 0 < before) :
    (significant.pointed negative before power positive).digits =
      ofDigits significant.digits := by
  simp [Spelling.digits, Significant.pointed]

theorem digits_padded (count : Nat) :
    ofDigits (significant.padded count).digits =
      ofDigits significant.digits * 10 ^ count := by
  simp [Significant.padded, ofDigits_append, ofDigits_zeros]

theorem digits_belowOne (count : Nat) :
    (significant.belowOne negative count).digits = ofDigits significant.digits := by
  have zeros : ofDigits (['0'] ++ List.replicate count '0') = 0 :=
    ofDigits_zeros (count + 1)
  rw [Spelling.digits, Significant.belowOne, ← List.append_assoc, ofDigits_append, zeros]
  omega

/-- Every decimal is written as a spelling of it. -/
theorem exists_spelling
    {number : Number}
    (positive : 0 < number.digits) :
    ∃ spelling : Spelling,
      spelling.text = (signText negative ++ Layout.json.writeNumber number).toList ∧
        spelling.negative = negative ∧
        0 < spelling.digits ∧
        (spelling.digits * 10 ^ spelling.exponent : ℚ) =
          number.digits * 10 ^ number.exponent := by
  obtain ⟨number, exponent⟩ := number
  have spelled : ofDigits (Significant.ofNat number positive).digits = number :=
    ofDigits_toDigits number
  have written : digitsOf number = (Significant.ofNat number positive).digits :=
    rfl
  simp only [Layout.writeNumber, written]
  generalize Significant.ofNat number positive = significant at spelled ⊢
  have some := List.length_pos_of_ne_nil significant.nonempty
  split
  · rcases le_or_gt 0 exponent with whole | fractional
    · obtain ⟨count, rfl⟩ := Int.eq_ofNat_of_zero_le whole
      refine ⟨_, text_padded significant negative count, rfl, ?_, ?_⟩
      · rw [digits_pointed, digits_padded, spelled]
        positivity
      · have power :
            ((significant.padded (count + 1)).pointed negative
              (significant.digits.length + count) none (by omega)).exponent = -1 := by
          simp only [Spelling.exponent, Significant.pointed, Significant.padded]
          simp
        rw [digits_pointed, digits_padded, spelled, power]
        push_cast
        rw [pow_succ, zpow_natCast]
        norm_num
        ring
    · rcases lt_or_ge 0 (significant.digits.length + exponent) with inside | below
      · obtain ⟨before, place⟩ := Int.eq_ofNat_of_zero_le inside.le
        obtain rfl : exponent = before - significant.digits.length := by
          omega
        refine ⟨_, text_inside significant negative (by omega) (by omega), rfl, ?_, ?_⟩
        · rwa [digits_pointed, spelled]
        · rw [digits_pointed, spelled]
          congr 2
          simp only [Spelling.exponent, Significant.pointed, List.length_drop]
          simp
          omega
      · obtain ⟨count, place⟩ :=
          Int.eq_ofNat_of_zero_le (Int.neg_nonneg_of_nonpos below)
        obtain rfl : exponent = -count - significant.digits.length := by
          omega
        refine ⟨_, text_belowOne significant negative count, rfl, ?_, ?_⟩
        · rwa [digits_belowOne, spelled]
        · rw [digits_belowOne, spelled]
          congr 2
          simp only [Spelling.exponent, Significant.belowOne, List.length_append,
            List.length_replicate]
          simp
          omega
  · refine ⟨_, text_scientific significant negative exponent, rfl, ?_, ?_⟩
    · rwa [digits_pointed, spelled]
    · rw [digits_pointed, spelled]
      congr 2
      simp only [Spelling.exponent, Significant.pointed, Option.elim_some, Power.value_ofInt,
        List.length_drop]
      omega

end

theorem Spelling.text_zero (negative : Bool) :
    (Spelling.zero negative).text =
      (Decimal.signText negative ++ Decimal.Layout.json.writeNumber ⟨0, 0⟩).toList := by
  cases negative <;> rfl

/-- Digits alone are within the range of floats where the number fits into 64 bits. -/
theorem isSome_float?_toDigits
    {number : Nat}
    (fits : number < 2 ^ 64) :
    (float? (Nat.toDigits 10 number)).isSome = true := by
  rw [← Spelling.text_ofNat, Spelling.float?_text]
  apply Decimal.Binary64.isSome_nearest?
  have digits : (Spelling.ofNat number).digits = number := by
    simp [Spelling.digits, Spelling.ofNat, ofDigits_toDigits]
  have exponent : (Spelling.ofNat number).exponent = 0 :=
    rfl
  rw [digits, exponent, zpow_zero, mul_one]
  calc
    (number : ℚ) < 2 ^ (64 : Int) := by
        exact_mod_cast fits
    _ ≤ 2 ^ (1023 : Int) := zpow_le_zpow_right₀ one_le_two (by decide)

end Numeral

namespace Json

open Decimal

/-- The spelling of a finite float reads back as the float. -/
theorem exists_spelling_ofFloat
    {float : Float}
    (finite : float.isFinite = true) :
    ∃ spelling : Numeral.Spelling,
      ofFloat float = .number (String.ofList spelling.text) ∧
        Numeral.float? spelling.text = some float := by
  obtain ⟨value, reading⟩ := (isFinite_iff float).mp finite
  have canonical := (Binary64.ofBits_eq_finite reading).1
  have bits := ofBits_bits reading
  simp only [ofFloat, finite, ↓reduceIte, Layout.write, reading]
  by_cases zero : value.significand = 0
  · refine ⟨.zero value.negative, ?_, ?_⟩
    · rw [Numeral.Spelling.text_zero, String.ofList_toList, if_pos zero]
    · have least : value.exponent = Binary64.leastExponent := by
        apply canonical.full.resolve_left
        simp [zero, Binary64.implicitBit]
      have place : value.place = 0 := by
        simp [Binary64.place, zero, least]
      rw [Binary64.bits, place] at bits
      rw [Numeral.Spelling.float?_text, ← bits]
      rfl
  · have positive : 0 < value.significand :=
      Nat.pos_of_ne_zero zero
    have owned := Binary64.shortest_owned Layout.json.tie canonical positive
    obtain ⟨spelling, text, negative, digits, number⟩ :=
      Numeral.exists_spelling value.negative (owned.digits_pos positive)
    refine ⟨spelling, ?_, ?_⟩
    · rw [text, String.ofList_toList, if_neg zero]
    · rw [Numeral.Spelling.float?_text, negative, ← bits]
      exact Binary64.nearest?_eq canonical positive digits (number ▸ owned)

theorem float?_ofFloat
    {float : Float}
    (finite : float.isFinite = true) :
    float? (ofFloat float) = some float := by
  obtain ⟨spelling, spelled, readBack⟩ := exists_spelling_ofFloat finite
  rw [spelled, float?, String.toList_ofList, readBack]

theorem isSpelled_ofFloat (float : Float) : IsSpelled (ofFloat float) := by
  by_cases finite : float.isFinite = true
  · obtain ⟨spelling, spelled, _⟩ := exists_spelling_ofFloat finite
    exact spelled ▸ .number spelling
  · rw [ofFloat, if_neg finite]
    exact .null

/-- Whatever number is read as a float, the float is finite. -/
theorem isFinite_of_float?
    {value : Json}
    {float : Float}
    (read : value.float? = some float) :
    float.isFinite = true := by
  cases value with
  | number spelling => exact Binary64.isFinite_of_nearest? read
  | null | bool | string | array | object => cases read

end Json

end Retrace
