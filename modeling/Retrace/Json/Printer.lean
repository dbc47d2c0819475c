import Retrace.Decimal.Layout
import Retrace.Json.Quoted
import Retrace.Json.Value
namespace Retrace.Json

/-!
# Writing JSON

A value is written either in one line without blanks, or over several lines with
every item and member on a line of its own, indented by two blanks per level.
-/

/-- A float, or `null` where there is no finite number. -/
def ofFloat (float : Float) : Json :=
  if float.isFinite then .number (Decimal.Layout.json.write float) else .null

/-- A string; one that has no text is written as the half of a pair that it is. -/
def stringText : Option String → String
  | some text => Quoted.write text
  | none => "\"\\ud800\""

mutual

/-- The pieces of a value in one line. -/
def compactPieces : Json → List String
  | .null => ["null"]
  | .bool value => [if value then "true" else "false"]
  | .number spelling => [spelling]
  | .string text? => [stringText text?]
  | .array [] => ["[]"]
  | .array (first :: rest) =>
      "[" :: (first.compactPieces ++ compactItems rest)
  | .object [] => ["\x7b\x7d"]
  | .object ((name, first) :: rest) =>
      "\x7b" :: stringText name :: ":" :: (first.compactPieces ++ compactMembers rest)

/-- The pieces of the items after the first, and of the closing bracket. -/
def compactItems : List Json → List String
  | [] => ["]"]
  | item :: rest => "," :: (item.compactPieces ++ compactItems rest)

/-- The pieces of the members after the first, and of the closing brace. -/
def compactMembers : List (Option String × Json) → List String
  | [] => ["\x7d"]
  | (name, value) :: rest =>
      "," :: stringText name :: ":" :: (value.compactPieces ++ compactMembers rest)

end

/-- A value in one line, without blanks. -/
def compact (value : Json) : String :=
  String.join value.compactPieces

/-- The start of a line at a level of indentation. -/
def newLine (level : Nat) : String :=
  "\n" ++ String.ofList (List.replicate (2 * level) ' ')

mutual

/-- The pieces of a value over several lines, at a level of indentation. -/
def prettyPieces (level : Nat) : Json → List String
  | .null => ["null"]
  | .bool value => [if value then "true" else "false"]
  | .number spelling => [spelling]
  | .string text? => [stringText text?]
  | .array [] => ["[]"]
  | .array (first :: rest) =>
      "[" :: newLine (level + 1) ::
        (prettyPieces (level + 1) first ++ prettyItems level rest)
  | .object [] => ["\x7b\x7d"]
  | .object ((name, first) :: rest) =>
      "\x7b" :: newLine (level + 1) :: stringText name :: ": " ::
        (prettyPieces (level + 1) first ++ prettyMembers level rest)

/-- The pieces of the items after the first, and of the closing bracket. -/
def prettyItems (level : Nat) : List Json → List String
  | [] => [newLine level, "]"]
  | item :: rest =>
      "," :: newLine (level + 1) ::
        (prettyPieces (level + 1) item ++ prettyItems level rest)

/-- The pieces of the members after the first, and of the closing brace. -/
def prettyMembers (level : Nat) : List (Option String × Json) → List String
  | [] => [newLine level, "\x7d"]
  | (name, value) :: rest =>
      "," :: newLine (level + 1) :: stringText name :: ": " ::
        (prettyPieces (level + 1) value ++ prettyMembers level rest)

end

/-- A value over several lines, indented by two blanks per level. -/
def pretty (value : Json) : String :=
  String.join (prettyPieces 0 value)

end Retrace.Json
