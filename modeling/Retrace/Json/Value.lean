namespace Retrace

/-!
# JSON values

A number is kept as it is spelled, because an integer and the same number with
a fraction or an exponent are different things to a reader.  Members of an
object keep their order and may repeat a name, because a reader has to see that.
A string whose escapes name half of a surrogate pair is well formed, but has no
text.
-/

/-- A JSON value. -/
inductive Json
  | null
  | bool (value : Bool)
  | number (spelling : String)
  | string (text? : Option String)
  | array (items : List Json)
  | object (members : List (Option String × Json))

namespace Json

/-- A string. -/
def ofText (text : String) : Json :=
  .string (some text)

/-- An integer. -/
def ofNat (number : Nat) : Json :=
  .number (String.ofList (Nat.toDigits 10 number))

/-- An object with the given members, in order. -/
def ofMembers (members : List (String × Json)) : Json :=
  .object (members.map fun member => (some member.1, member.2))

mutual

/-- How deep arrays and objects are nested in a value; a scalar has depth zero. -/
def depth : Json → Nat
  | .array items => itemsDepth items + 1
  | .object members => membersDepth members + 1
  | _ => 0

/-- The depth of the deepest item. -/
def itemsDepth : List Json → Nat
  | [] => 0
  | item :: rest => max item.depth (itemsDepth rest)

/-- The depth of the deepest member. -/
def membersDepth : List (Option String × Json) → Nat
  | [] => 0
  | (_, value) :: rest => max value.depth (membersDepth rest)

end

end Json

end Retrace
