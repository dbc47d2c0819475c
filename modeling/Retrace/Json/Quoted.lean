namespace Retrace.Quoted

/-!
# Quoted text

Between its quotes a string may name characters by escapes.  A character beyond
the sixteen-bit range is named by two escapes in a row, one half of a surrogate
pair each; half a pair on its own names nothing.
-/

/-- The text read so far. -/
structure Progress where
  /-- The characters, newest first. -/
  reversed : List Char
  /-- The first half of a surrogate pair that still lacks its second half. -/
  half : Option Nat
  /-- Whether some half of a pair stood alone. -/
  broken : Bool

namespace Progress

/-- Nothing was read yet. -/
def start : Progress where
  reversed := []
  half := none
  broken := false

/-- A character follows. -/
def push (progress : Progress) (character : Char) : Progress where
  reversed := character :: progress.reversed
  half := none
  broken := progress.broken || progress.half.isSome

/-- A sixteen-bit unit follows, named by an escape. -/
def pushUnit (progress : Progress) (unit : Nat) : Progress :=
  if 0xD800 ≤ unit ∧ unit < 0xDC00 then
    { progress with
      half := some unit
      broken := progress.broken || progress.half.isSome }
  else if 0xDC00 ≤ unit ∧ unit < 0xE000 then
    match progress.half with
    | none => { progress with broken := true }
    | some first =>
        { progress with
          reversed :=
            Char.ofNat (0x10000 + (first - 0xD800) * 0x400 + (unit - 0xDC00)) ::
              progress.reversed
          half := none }
  else
    progress.push (Char.ofNat unit)

/-- The text, once the closing quote is reached. -/
def text? (progress : Progress) : Option String :=
  if progress.broken || progress.half.isSome then
    none
  else
    some (String.ofList progress.reversed.reverse)

end Progress

/-- The value of a hexadecimal digit. -/
def hexDigit? (character : Char) : Option Nat :=
  if '0' ≤ character ∧ character ≤ '9' then some (character.toNat - 48)
  else if 'a' ≤ character ∧ character ≤ 'f' then some (character.toNat - 87)
  else if 'A' ≤ character ∧ character ≤ 'F' then some (character.toNat - 55)
  else none

/-- The unit that four hexadecimal digits name. -/
def unit? (first second third fourth : Char) : Option Nat := do
  let first ← hexDigit? first
  let second ← hexDigit? second
  let third ← hexDigit? third
  let fourth ← hexDigit? fourth
  return ((first * 16 + second) * 16 + third) * 16 + fourth

/-- The character that a one-letter escape names. -/
def escaped? : Char → Option Char
  | '"' => some '"'
  | '\\' => some '\\'
  | '/' => some '/'
  | 'b' => some '\x08'
  | 'f' => some '\x0c'
  | 'n' => some '\n'
  | 'r' => some '\r'
  | 't' => some '\t'
  | _ => none

/-- The text up to the closing quote, and what follows the quote. -/
def scanFrom (progress : Progress) : List Char → Option (Option String × List Char)
  | [] => none
  | '"' :: rest => some (progress.text?, rest)
  | '\\' :: 'u' :: first :: second :: third :: fourth :: rest =>
      match unit? first second third fourth with
      | some unit => scanFrom (progress.pushUnit unit) rest
      | none => none
  | '\\' :: letter :: rest =>
      match escaped? letter with
      | some character => scanFrom (progress.push character) rest
      | none => none
  | ['\\'] => none
  | character :: rest =>
      if character < ' ' then
        none
      else
        scanFrom (progress.push character) rest

/-- The text after an opening quote, and what follows the closing quote. -/
def scan (text : List Char) : Option (Option String × List Char) :=
  scanFrom Progress.start text

/-- One of the sixteen hexadecimal digits. -/
def hexDigit (value : Nat) : Char :=
  Nat.digitChar value

/-- A character as it stands between quotes. -/
def escape (character : Char) : List Char :=
  if character = '"' then ['\\', '"']
  else if character = '\\' then ['\\', '\\']
  else if character = '\x08' then ['\\', 'b']
  else if character = '\x0c' then ['\\', 'f']
  else if character = '\n' then ['\\', 'n']
  else if character = '\r' then ['\\', 'r']
  else if character = '\t' then ['\\', 't']
  else if character < ' ' then
    ['\\', 'u', '0', '0', hexDigit (character.toNat / 16), hexDigit (character.toNat % 16)]
  else
    [character]

/-- A text between quotes. -/
def write (text : String) : String :=
  "\"" ++ String.ofList (text.toList.flatMap escape) ++ "\""

end Retrace.Quoted
