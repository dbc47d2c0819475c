import Mathlib.Algebra.Group.Nat.Defs
import Mathlib.Data.List.Basic
import Retrace.Proofs.Text.Digits
namespace Retrace.Numeral

/-!
# Spelled numbers

A `Spelling` has the parts of a number as the grammar has them.  `scan` cuts
exactly the text of a spelling off the front, as long as nothing follows that
would go on with the number, and `float?` reads its parts back.
-/

/-- Nothing at the front of a text goes on with a number. -/
def EndsNumber (text : List Char) : Prop :=
  ∀ character ∈ text.head?,
    isDigit character = false ∧ character ∉ ['.', 'e', 'E']

/-- Nothing at the front of a text goes on with a run of digits. -/
def EndsDigits (text : List Char) : Prop :=
  ∀ character ∈ text.head?, isDigit character = false

theorem EndsNumber.endsDigits
    {text : List Char}
    (ends : EndsNumber text) :
    EndsDigits text :=
  fun character first => (ends character first).1

/-- Digits, and nothing else. -/
def AreDigits (text : List Char) : Prop :=
  ∀ character ∈ text, isDigit character = true

/-- The signed digits of an exponent. -/
structure Power where
  negative : Bool
  digits : List Char
  nonempty : digits ≠ []
  areDigits : AreDigits digits

/-- The parts of a number. -/
structure Spelling where
  negative : Bool
  whole : List Char
  /-- The digits behind the point; without any there is no point. -/
  fraction : List Char
  power : Option Power
  wholeNonempty : whole ≠ []
  wholeDigits : AreDigits whole
  noLeadingZero : whole.head? = some '0' → whole = ['0']
  fractionDigits : AreDigits fraction

namespace Power

variable (power : Power)

/-- The exponent after its mark. -/
def text : List Char :=
  (if power.negative then '-' else '+') :: power.digits

/-- The exponent as a number. -/
def value : Int :=
  if power.negative then -(ofDigits power.digits : Int) else ofDigits power.digits

end Power

namespace Spelling

variable (spelling : Spelling)

/-- The minus sign, if there is one. -/
def minus : List Char :=
  if spelling.negative then ['-'] else []

/-- The point and the digits behind it, if there are any. -/
def fractionText : List Char :=
  match spelling.fraction with
  | [] => []
  | digits => '.' :: digits

/-- The exponent, if there is one. -/
def powerText : List Char :=
  match spelling.power with
  | none => []
  | some power => 'e' :: power.text

/-- The number as it is spelled. -/
def text : List Char :=
  spelling.minus ++ spelling.whole ++ spelling.fractionText ++ spelling.powerText

/-- All digits of the number without its exponent. -/
def digits : Nat :=
  ofDigits (spelling.whole ++ spelling.fraction)

/-- The power of ten that belongs to the digits. -/
def exponent : Int :=
  (spelling.power.elim 0 Power.value) - spelling.fraction.length

end Spelling

/-! ## Runs of characters -/

section

variable
  {keep : Char → Bool}
  {front rest : List Char}
  (kept : ∀ character ∈ front, keep character = true)
  (ends : ∀ character ∈ rest.head?, keep character = false)

include kept ends

theorem takeWhile_append_of_ends :
    (front ++ rest).takeWhile keep = front := by
  rw [List.takeWhile_append_of_pos kept]
  cases rest with
  | nil => simp
  | cons character _ => simp [ends character rfl]

theorem dropWhile_append_of_ends :
    (front ++ rest).dropWhile keep = rest := by
  rw [List.dropWhile_append_of_pos kept]
  cases rest with
  | nil => rfl
  | cons character _ => simp [ends character rfl]

end

theorem someDigits?_append
    {digits rest : List Char}
    (areDigits : AreDigits digits)
    (nonempty : digits ≠ [])
    (ends : EndsDigits rest) :
    someDigits? (digits ++ rest) = some (digits, rest) := by
  rw [someDigits?, digitRun, takeWhile_append_of_ends areDigits ends,
    dropWhile_append_of_ends areDigits ends]
  cases digits with
  | nil => exact absurd rfl nonempty
  | cons _ _ => rfl

/-! ## Cutting a number off -/

namespace Spelling

variable
  (spelling : Spelling)
  {rest : List Char}

/-- The first digit, and those after it. -/
theorem exists_whole_eq :
    ∃ first others, spelling.whole = first :: others ∧ isDigit first = true := by
  cases whole : spelling.whole with
  | nil => exact absurd whole spelling.wholeNonempty
  | cons first others =>
      refine ⟨first, others, rfl, spelling.wholeDigits first ?_⟩
      simp [whole]

theorem scanMinus_minus (rest : List Char) :
    scanMinus (spelling.minus ++ (spelling.whole ++ rest)) =
      (spelling.minus, spelling.whole ++ rest) := by
  cases negative : spelling.negative with
  | true => simp [minus, negative, scanMinus]
  | false =>
      obtain ⟨first, others, whole, digit⟩ := spelling.exists_whole_eq
      rw [minus, negative, whole]
      simp only [Bool.false_eq_true, ↓reduceIte, List.nil_append, List.cons_append]
      rw [scanMinus]
      rintro rest ⟨rfl, _⟩
      simp [isDigit] at digit

theorem scanWhole?_whole (ends : EndsDigits rest) :
    scanWhole? (spelling.whole ++ rest) = some (spelling.whole, rest) := by
  by_cases zero : spelling.whole.head? = some '0'
  · rw [spelling.noLeadingZero zero]
    rfl
  · rw [scanWhole?]
    · exact someDigits?_append spelling.wholeDigits spelling.wholeNonempty ends
    · intro after starts
      obtain ⟨first, others, whole, _⟩ := spelling.exists_whole_eq
      rw [whole] at starts zero
      simp_all

theorem scanFraction?_fraction
    (ends : EndsDigits rest)
    (noPoint : rest.head? ≠ some '.') :
    scanFraction? (spelling.fractionText ++ rest) =
      some (spelling.fractionText, rest) := by
  cases fraction : spelling.fraction with
  | nil =>
      rw [fractionText, fraction, List.nil_append, scanFraction?]
      rintro after rfl
      exact noPoint rfl
  | cons first others =>
      have areDigits : AreDigits (first :: others) :=
        fraction ▸ spelling.fractionDigits
      have scanned :=
        someDigits?_append areDigits (List.cons_ne_nil first others) ends
      simp only [fractionText, fraction, List.cons_append, scanFraction?] at scanned ⊢
      rw [scanned]
      rfl

theorem scanExponentSign_text
    (power : Power)
    (rest : List Char) :
    scanExponentSign (power.text ++ rest) =
      ([if power.negative then '-' else '+'], power.digits ++ rest) := by
  cases negative : power.negative <;> simp [Power.text, negative, scanExponentSign]

theorem scanMarked?_text
    (mark : Char)
    (power : Power)
    (ends : EndsDigits rest) :
    scanMarked? mark (power.text ++ rest) = some (mark :: power.text, rest) := by
  rw [scanMarked?, scanExponentSign_text]
  simp only [someDigits?_append power.areDigits power.nonempty ends]
  rfl

theorem scanExponent?_power (ends : EndsNumber rest) :
    scanExponent? (spelling.powerText ++ rest) = some (spelling.powerText, rest) := by
  rw [powerText]
  split
  · rw [List.nil_append, scanExponent?]
    · rintro after rfl
      simpa using (ends 'e' rfl).2
    · rintro after rfl
      simpa using (ends 'E' rfl).2
  · exact scanMarked?_text 'e' _ ends.endsDigits

/-- An exponent goes on with no digits, and with no point. -/
theorem endsDigits_power (ends : EndsNumber rest) :
    EndsDigits (spelling.powerText ++ rest) ∧
      (spelling.powerText ++ rest).head? ≠ some '.' := by
  rw [powerText]
  split
  · refine ⟨ends.endsDigits, fun point => ?_⟩
    simpa using (ends '.' point).2
  · refine ⟨?_, by simp⟩
    rintro _ ⟨⟩
    rfl

/-- A fraction goes on with no digits. -/
theorem endsDigits_fraction (ends : EndsDigits rest) :
    EndsDigits (spelling.fractionText ++ rest) := by
  rw [fractionText]
  split
  · exact ends
  · rintro _ ⟨⟩
    rfl

/-- A spelling is cut off whole where the number ends. -/
theorem scan_text (ends : EndsNumber rest) :
    scan (spelling.text ++ rest) = some (spelling.text, rest) := by
  obtain ⟨endsPower, noPoint⟩ := spelling.endsDigits_power ends
  simp [scan, text, scanMinus_minus,
    spelling.scanWhole?_whole (spelling.endsDigits_fraction endsPower),
    spelling.scanFraction?_fraction endsPower noPoint, spelling.scanExponent?_power ends]

/-! ## Reading a number -/

theorem exponentValue_text (power : Power) :
    exponentValue power.text = power.value := by
  cases negative : power.negative <;>
    simp [exponentValue, Power.text, Power.value, negative]

/-- The mantissa reaches up to the mark of the exponent. -/
theorem takeWhile_mantissa :
    (spelling.whole ++ spelling.fractionText ++ spelling.powerText).takeWhile
        (fun character => character != 'e' && character != 'E') =
      spelling.whole ++ spelling.fractionText := by
  have noMark (character : Char) (digit : isDigit character = true) :
      (character != 'e' && character != 'E') = true := by
    simp only [Bool.and_eq_true, bne_iff_ne]
    constructor <;> rintro rfl <;> simp [isDigit] at digit
  apply takeWhile_append_of_ends
  · intro character member
    rcases List.mem_append.mp member with isWhole | isFraction
    · exact noMark character (spelling.wholeDigits character isWhole)
    · rw [fractionText] at isFraction
      split at isFraction
      · simp at isFraction
      · rcases List.mem_cons.mp isFraction with rfl | isDigit
        · rfl
        · exact noMark character (spelling.fractionDigits character isDigit)
  · rw [powerText]
    split
    · simp
    · rintro _ ⟨⟩
      rfl

/-- The float of a spelling is the one nearest to its digits and exponent. -/
theorem float?_text :
    float? spelling.text =
      Decimal.Binary64.nearest? spelling.negative spelling.digits spelling.exponent := by
  have unsigned :
      scanMinus spelling.text =
        (spelling.minus, spelling.whole ++ spelling.fractionText ++ spelling.powerText) := by
    rw [text, List.append_assoc, List.append_assoc, scanMinus_minus, List.append_assoc]
  have whole : (spelling.whole ++ spelling.fractionText).takeWhile isDigit = spelling.whole := by
    apply takeWhile_append_of_ends spelling.wholeDigits
    rw [fractionText]
    split
    · simp
    · rintro _ ⟨⟩
      rfl
  have behind (front back : List Char) :
      (front ++ back).drop (front.length + 1) = back.drop 1 := by
    simp [List.drop_append]
  have fraction : spelling.fractionText.drop 1 = spelling.fraction := by
    cases digits : spelling.fraction <;> simp [fractionText, digits]
  have power :
      exponentValue (spelling.powerText.drop 1) = spelling.power.elim 0 Power.value := by
    cases present : spelling.power with
    | none => simp [powerText, present, exponentValue, ofDigits]
    | some power => simp [powerText, present, exponentValue_text]
  have minus : (!spelling.minus.isEmpty) = spelling.negative := by
    cases negative : spelling.negative <;> simp [Spelling.minus, negative]
  simp only [float?, unsigned, takeWhile_mantissa, behind, power, whole, fraction, minus]
  rfl

/-! ## Spellings of numbers -/

/-- The digits of a natural number. -/
def ofNat (number : Nat) : Spelling where
  negative := false
  whole := Nat.toDigits 10 number
  fraction := []
  power := none
  wholeNonempty := Nat.toDigits_ne_nil
  wholeDigits := fun _ member => isDigit_of_mem_toDigits member
  noLeadingZero := by
    intro startsWithZero
    rcases Nat.eq_zero_or_pos number with rfl | positive
    · rfl
    · exact absurd startsWithZero (head?_toDigits_ne_zero (by decide) positive)
  fractionDigits := by simp [AreDigits]

theorem text_ofNat (number : Nat) :
    (Spelling.ofNat number).text = Nat.toDigits 10 number := by
  simp [text, ofNat, minus, fractionText, powerText]

end Spelling

/-- The exponent as it is written. -/
def Power.ofInt (exponent : Int) : Power where
  negative := decide (exponent < 0)
  digits := Nat.toDigits 10 exponent.natAbs
  nonempty := Nat.toDigits_ne_nil
  areDigits := fun _ member => isDigit_of_mem_toDigits member

theorem Power.value_ofInt (exponent : Int) :
    (Power.ofInt exponent).value = exponent := by
  rw [value, ofInt, ofDigits_toDigits]
  simp only [decide_eq_true_eq]
  split <;> omega

/-- A zero, and a zero behind the point. -/
def Spelling.zero (negative : Bool) : Spelling where
  negative := negative
  whole := ['0']
  fraction := ['0']
  power := none
  wholeNonempty := by simp
  wholeDigits := by simp [AreDigits, isDigit]
  noLeadingZero := fun _ => rfl
  fractionDigits := by simp [AreDigits, isDigit]

/-- Digits of which the first is no zero. -/
structure Significant where
  digits : List Char
  nonempty : digits ≠ []
  areDigits : AreDigits digits
  noZero : digits.head? ≠ some '0'

namespace Significant

/-- The digits of a positive number. -/
def ofNat (number : Nat) (positive : 0 < number) : Significant where
  digits := Nat.toDigits 10 number
  nonempty := Nat.toDigits_ne_nil
  areDigits := fun _ member => isDigit_of_mem_toDigits member
  noZero := head?_toDigits_ne_zero (by decide) positive

/-- So many zeros behind the digits. -/
def padded (significant : Significant) (count : Nat) : Significant where
  digits := significant.digits ++ List.replicate count '0'
  nonempty := by simp [significant.nonempty]
  areDigits := by
    intro character member
    rcases List.mem_append.mp member with isEarlier | isZero
    · exact significant.areDigits character isEarlier
    · rw [List.eq_of_mem_replicate isZero]
      rfl
  noZero := by
    rw [List.head?_append_of_ne_nil _ significant.nonempty]
    exact significant.noZero

/-- The digits with a point behind the first few of them. -/
def pointed
    (significant : Significant)
    (negative : Bool)
    (before : Nat)
    (power : Option Power)
    (positive : 0 < before) :
    Spelling where
  negative := negative
  whole := significant.digits.take before
  fraction := significant.digits.drop before
  power := power
  wholeNonempty := by
    simp [List.take_eq_nil_iff, significant.nonempty, Nat.ne_of_gt positive]
  wholeDigits := fun character member =>
    significant.areDigits character (List.mem_of_mem_take member)
  noLeadingZero := fun zero =>
    absurd (by rwa [List.head?_take, if_neg (Nat.ne_of_gt positive)] at zero)
      significant.noZero
  fractionDigits := fun character member =>
    significant.areDigits character (List.mem_of_mem_drop member)

/-- The digits behind a point, after so many zeros. -/
def belowOne
    (significant : Significant)
    (negative : Bool)
    (count : Nat) :
    Spelling where
  negative := negative
  whole := ['0']
  fraction := List.replicate count '0' ++ significant.digits
  power := none
  wholeNonempty := by simp
  wholeDigits := by simp [AreDigits, isDigit]
  noLeadingZero := fun _ => rfl
  fractionDigits := by
    intro character member
    rcases List.mem_append.mp member with isZero | isLater
    · rw [List.eq_of_mem_replicate isZero]
      rfl
    · exact significant.areDigits character isLater

end Significant

end Retrace.Numeral
