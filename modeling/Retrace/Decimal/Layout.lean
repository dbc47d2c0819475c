import Retrace.Decimal.Shortest
namespace Retrace.Decimal

/-!
# Writing numbers

A `Layout` holds the decisions by which one way of writing floats differs from
another; `Layout.write` writes the fewest digits that read back.  `writeFixed`
writes a fixed number of decimal places instead.
-/

/-- The decisions of one way to write floats. -/
structure Layout where
  /-- Which of two equally short and equally near decimals is written. -/
  tie : Tie
  /-- Whether a number with so many digits before its point is written without exponent. -/
  positional : Int → Bool
  /-- What follows the digits of a whole number. -/
  wholeTail : String
  /-- The text for an infinity of either sign. -/
  infinite : Bool → String
  /-- The text where there is no number at all. -/
  undefined : String

/-- The sign of a negative number. -/
def signText (negative : Bool) : String :=
  if negative then "-" else ""

/-- So many zeros. -/
def zeros (count : Nat) : String :=
  String.ofList (List.replicate count '0')

/-- The decimal digits of a number. -/
def digitsOf (number : Nat) : List Char :=
  Nat.toDigits 10 number

namespace Layout

/-- The digits with the point where it belongs. -/
def writePositional (layout : Layout) (digits : List Char) (exponent : Int) : String :=
  let before : Int := digits.length + exponent
  if 0 ≤ exponent then
    String.ofList digits ++ zeros exponent.toNat ++ layout.wholeTail
  else if 0 < before then
    String.ofList (digits.take before.toNat) ++ "." ++
      String.ofList (digits.drop before.toNat)
  else
    "0." ++ zeros (-before).toNat ++ String.ofList digits

/-- One digit before the point, and a signed exponent. -/
def writeScientific (digits : List Char) (exponent : Int) : String :=
  let power : Int := digits.length + exponent - 1
  let fraction :=
    if digits.length ≤ 1 then "" else "." ++ String.ofList (digits.drop 1)
  let powerSign := if power < 0 then "-" else "+"
  String.ofList (digits.take 1) ++ fraction ++ "e" ++ powerSign ++
    String.ofList (digitsOf power.natAbs)

/-- The magnitude of a number. -/
def writeNumber (layout : Layout) (number : Number) : String :=
  let digits := digitsOf number.digits
  if layout.positional (digits.length + number.exponent) then
    layout.writePositional digits number.exponent
  else
    writeScientific digits number.exponent

/-- A float in the fewest digits that read back. -/
def write (layout : Layout) (float : Float) : String :=
  match Binary64.ofFloat float with
  | .undefined => layout.undefined
  | .infinite negative => layout.infinite negative
  | .finite value =>
      let number :=
        if value.significand = 0 then ⟨0, 0⟩ else value.shortest layout.tie
      signText value.negative ++ layout.writeNumber number

/-- Metric values are never written with an exponent, and whole ones without a point. -/
def plain : Layout where
  tie := .up
  positional _ := true
  wholeTail := ""
  infinite negative := signText negative ++ "inf"
  undefined := "NaN"

/--
JSON numbers from a hundred-thousandth to ten to the sixteenth have no exponent,
whole ones end in `.0`, and what is no number is `null`.
-/
def json : Layout where
  tie := .toEven
  positional before := decide (-5 < before) && decide (before ≤ 16)
  wholeTail := ".0"
  infinite _ := "null"
  undefined := "null"

end Layout

/-- The magnitude of a binary fraction, rounded to so many decimal places. -/
def writeFixedMagnitude (places : Nat) (value : Binary64) : String :=
  let (numerator, denominator) := value.magnitude
  let unit := Nat.pow 10 places
  let scaled := roundQuotient .toEven (numerator * unit) denominator
  let fraction := digitsOf (scaled % unit)
  String.ofList (digitsOf (scaled / unit)) ++ "." ++
    zeros (places - fraction.length) ++ String.ofList fraction

/-- A float with a fixed, positive number of decimal places, rounded from its exact value. -/
def writeFixed (places : Nat) (float : Float) : String :=
  match Binary64.ofFloat float with
  | .undefined => Layout.plain.undefined
  | .infinite negative => Layout.plain.infinite negative
  | .finite value => signText value.negative ++ writeFixedMagnitude places value

end Retrace.Decimal
