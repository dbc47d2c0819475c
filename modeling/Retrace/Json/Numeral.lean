import Retrace.Decimal.Binary64
namespace Retrace.Numeral

/-!
# The spelling of numbers

A JSON number is an optional minus sign, a whole part without leading zeros, an
optional fraction and an optional exponent.  `scan` cuts the longest number off
the front of a text; `natural?` and `float?` say what a spelling stands for.
-/

/-- Whether a character is one of the ten digits. -/
def isDigit (character : Char) : Bool :=
  '0' ≤ character && character ≤ '9'

/-- A spelling split from what follows it. -/
abbrev Split := List Char × List Char

/-- The digits at the front. -/
def digitRun (text : List Char) : Split :=
  (text.takeWhile isDigit, text.dropWhile isDigit)

/-- At least one digit at the front. -/
def someDigits? (text : List Char) : Option Split :=
  match digitRun text with
  | ([], _) => none
  | split => some split

/-- The minus sign, if there is one. -/
def scanMinus : List Char → Split
  | '-' :: rest => (['-'], rest)
  | text => ([], text)

/-- A lone zero, or digits that do not start with one. -/
def scanWhole? : List Char → Option Split
  | '0' :: rest => some (['0'], rest)
  | text => someDigits? text

/-- A point and the digits behind it, if there is one. -/
def scanFraction? : List Char → Option Split
  | '.' :: rest => (someDigits? rest).map fun split => ('.' :: split.1, split.2)
  | text => some ([], text)

/-- The sign of an exponent, if there is one. -/
def scanExponentSign : List Char → Split
  | '+' :: rest => (['+'], rest)
  | '-' :: rest => (['-'], rest)
  | text => ([], text)

/-- The exponent after its mark. -/
def scanMarked? (mark : Char) (text : List Char) : Option Split :=
  let (sign, unsigned) := scanExponentSign text
  (someDigits? unsigned).map fun split => (mark :: (sign ++ split.1), split.2)

/-- An exponent, if there is one. -/
def scanExponent? : List Char → Option Split
  | 'e' :: rest => scanMarked? 'e' rest
  | 'E' :: rest => scanMarked? 'E' rest
  | text => some ([], text)

/-- The longest number at the front. -/
def scan (text : List Char) : Option Split := do
  let (minus, unsigned) := scanMinus text
  let (whole, afterWhole) ← scanWhole? unsigned
  let (fraction, afterFraction) ← scanFraction? afterWhole
  let (exponent, rest) ← scanExponent? afterFraction
  return (minus ++ whole ++ fraction ++ exponent, rest)

/-- The number that digits spell. -/
def ofDigits (digits : List Char) : Nat :=
  digits.foldl (fun number digit => number * 10 + (digit.toNat - 48)) 0

/-- The number spelled by digits alone, if it is not above a bound. -/
def natural? (bound : Nat) (spelling : List Char) : Option Nat :=
  if !spelling.isEmpty && spelling.all isDigit then
    let number := ofDigits spelling
    if number ≤ bound then some number else none
  else
    none

/-- The exponent after its mark, as a number. -/
def exponentValue (text : List Char) : Int :=
  match text with
  | '-' :: digits => -(ofDigits digits : Int)
  | '+' :: digits => ofDigits digits
  | digits => ofDigits digits

/-- The float nearest to a spelled number, if it lies within the finite range. -/
def float? (spelling : List Char) : Option Float :=
  let (minus, unsigned) := scanMinus spelling
  let mantissa := unsigned.takeWhile fun character => character != 'e' && character != 'E'
  let exponent := exponentValue (unsigned.drop (mantissa.length + 1))
  let whole := mantissa.takeWhile isDigit
  let fraction := mantissa.drop (whole.length + 1)
  Decimal.Binary64.nearest? (!minus.isEmpty) (ofDigits (whole ++ fraction))
    (exponent - fraction.length)

end Retrace.Numeral
