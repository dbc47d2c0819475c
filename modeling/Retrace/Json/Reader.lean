import Retrace.Json.Numeral
import Retrace.Json.Quoted
import Retrace.Json.Value
namespace Retrace.Json

/-!
# Reading JSON

The reader accepts exactly the texts of the standard grammar: one value, blanks
around every token, nothing else.  Values of any depth are accepted; the reader
only needs to know an upper bound for the number of its steps, which the length
of the text gives.

Where a value is to be kept whole, nothing in it is passed over: all its strings
and numbers have to make sense, and it may not be nested too deep.
-/

/-- The blanks that may stand between two tokens. -/
def isBlank (character : Char) : Bool :=
  character == ' ' || character == '\n' || character == '\r' || character == '\t'

/-- The text from its first character that is no blank. -/
def skipBlanks (text : List Char) : List Char :=
  text.dropWhile isBlank

mutual

/-- One value at the front of a text, and what follows it. -/
def scanValue : Nat → List Char → Option (Json × List Char)
  | 0, _ => none
  | fuel + 1, text =>
      match skipBlanks text with
      | 'n' :: 'u' :: 'l' :: 'l' :: rest => some (.null, rest)
      | 't' :: 'r' :: 'u' :: 'e' :: rest => some (.bool true, rest)
      | 'f' :: 'a' :: 'l' :: 's' :: 'e' :: rest => some (.bool false, rest)
      | '"' :: rest => (Quoted.scan rest).map fun scanned => (.string scanned.1, scanned.2)
      | '[' :: rest =>
          match skipBlanks rest with
          | ']' :: rest => some (.array [], rest)
          | rest => scanItems fuel [] rest
      | '\x7b' :: rest =>
          match skipBlanks rest with
          | '\x7d' :: rest => some (.object [], rest)
          | rest => scanMembers fuel [] rest
      | unblanked =>
          (Numeral.scan unblanked).map fun scanned =>
            (.number (String.ofList scanned.1), scanned.2)

/-- The items of an array from the next one on; those before it are given newest first. -/
def scanItems : Nat → List Json → List Char → Option (Json × List Char)
  | 0, _, _ => none
  | fuel + 1, reversed, text =>
      match scanValue fuel text with
      | none => none
      | some (item, rest) =>
          match skipBlanks rest with
          | ',' :: rest => scanItems fuel (item :: reversed) rest
          | ']' :: rest => some (.array (item :: reversed).reverse, rest)
          | _ => none

/-- The members of an object from the next one on; those before it are given newest first. -/
def scanMembers :
    Nat → List (Option String × Json) → List Char → Option (Json × List Char)
  | 0, _, _ => none
  | fuel + 1, reversed, text =>
      match skipBlanks text with
      | '"' :: rest =>
          match Quoted.scan rest with
          | none => none
          | some (name, rest) =>
              match skipBlanks rest with
              | ':' :: rest =>
                  match scanValue fuel rest with
                  | none => none
                  | some (value, rest) =>
                      match skipBlanks rest with
                      | ',' :: rest => scanMembers fuel ((name, value) :: reversed) rest
                      | '\x7d' :: rest =>
                          some (.object ((name, value) :: reversed).reverse, rest)
                      | _ => none
              | _ => none
      | _ => none

end

/-- Steps enough for a text: every character takes at most two. -/
def stepBound (text : List Char) : Nat :=
  2 * text.length + 2

/-- The value that a text spells. -/
def ofChars? (text : List Char) : Option Json :=
  match scanValue (stepBound text) text with
  | some (value, rest) => if (skipBlanks rest).isEmpty then some value else none
  | none => none

/-- The value that a text spells. -/
def parse? (text : String) : Option Json :=
  ofChars? text.toList

mutual

/-- Whether all strings of a value have a text and all its numbers are within range. -/
def isPlain : Json → Bool
  | .number spelling => (Numeral.float? spelling.toList).isSome
  | .string text? => text?.isSome
  | .array items => itemsPlain items
  | .object members => membersPlain members
  | .null | .bool _ => true

/-- Whether all items are plain. -/
def itemsPlain : List Json → Bool
  | [] => true
  | item :: rest => isPlain item && itemsPlain rest

/-- Whether all names and values of members are plain. -/
def membersPlain : List (Option String × Json) → Bool
  | [] => true
  | (name, value) :: rest => name.isSome && isPlain value && membersPlain rest

end

/-- A value that is kept whole has to be nested less deep than this. -/
def depthLimit : Nat := 128

/-- The value that a text spells, if it can be kept whole. -/
def parseWhole? (text : String) : Option Json :=
  (parse? text).filter fun value => isPlain value && decide (value.depth < depthLimit)

end Retrace.Json
