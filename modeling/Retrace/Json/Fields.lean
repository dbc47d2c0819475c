import Retrace.Address.Text
import Retrace.Json.Layer
import Retrace.Json.Printer
import Retrace.Json.Reader
namespace Retrace

/-!
# Records in JSON

A record is written as an object whose members are its fields.  It may also be
read from an array that lists the fields in their order.  Names are compared
exactly; members that no field is named after are skipped unread, while a field
given twice makes the record unreadable.

With this the values of `Json`, their reader and their printers are the library
that the program runs on.  It reads every float correctly rounded.  What packets
and event logs need of a library is asked of any, by `JsonLayer.ReadsBack`.
-/

namespace Json

/-- A reader of one kind of value. -/
abbrev Decoder (α : Type) := Json → Option α

/-- An integer from zero to a bound, spelled by digits alone. -/
def natural? (bound : Nat) : Decoder Nat
  | .number spelling => Numeral.natural? bound spelling.toList
  | _ => none

/-- A 64-bit number. -/
def uint64? (value : Json) : Option UInt64 :=
  (value.natural? 18446744073709551615).map UInt64.ofNat

/-- A 32-bit number. -/
def uint32? (value : Json) : Option UInt32 :=
  (value.natural? 4294967295).map UInt32.ofNat

/-- A 16-bit number. -/
def uint16? (value : Json) : Option UInt16 :=
  (value.natural? 65535).map UInt16.ofNat

/-- A number within the finite range of floats, however it is spelled. -/
def float? : Decoder Float
  | .number spelling => Numeral.float? spelling.toList
  | _ => none

/-- A truth value. -/
def bool? : Decoder Bool
  | .bool value => some value
  | _ => none

/-- A string that has a text. -/
def text? : Decoder String
  | .string text? => text?
  | _ => none

/-- Every item of an array. -/
def list? {α : Type} (item? : Decoder α) : Decoder (List α)
  | .array items => items.mapM item?
  | _ => none

/-- Exactly two items. -/
def pair? {α β : Type} (first? : Decoder α) (second? : Decoder β) : Decoder (α × β)
  | .array [first, second] => do
      let first ← first? first
      let second ← second? second
      return (first, second)
  | _ => none

/-- A value, or none for `null`. -/
def nullable? {α : Type} (value? : Decoder α) : Decoder (Option α)
  | .null => some none
  | value => (value? value).map some

/-- The members of an object whose names all have a text. -/
def namedMembers? : Json → Option (List (String × Json))
  | .object members =>
      members.mapM fun member => member.1.map fun name => (name, member.2)
  | _ => none

/-- The fields of a record, in the order of their names; those missing are none. -/
def fields? (names : List String) : Json → Option (List (Option Json))
  | .array items =>
      if items.length ≤ names.length then
        some ((items.map some) ++ List.replicate (names.length - items.length) none)
      else
        none
  | value => do
      let members ← value.namedMembers?
      names.mapM (field? members)

/-- A member of an object. -/
def member? (name : String) (value : Json) : Option (Option Json) :=
  value.namedMembers?.bind fun members => field? members name

/-- One of some names, given as it is or by its place among them, from zero on. -/
def name? (names : List String) : Decoder String
  | .string text? => text?.filter fun name => names.contains name
  | value => (value.natural? 18446744073709551615).bind fun place => names[place]?

end Json

/-- An address, as its text. -/
def Address.decode? (value : Json) : Option Address :=
  value.text?.bind Address.parse?

/-- An address, as its text. -/
def Address.encode (address : Address) : Json :=
  .ofText address.write

instance : JsonLayer Json where
  ofNat := .ofNat
  ofFloat := .ofFloat
  ofBool := .bool
  ofText := .ofText
  ofAddress := Address.encode
  ofItems := .array
  ofMembers := .ofMembers
  uint16? := Json.uint16?
  uint32? := Json.uint32?
  uint64? := Json.uint64?
  float? := Json.float?
  bool? := Json.bool?
  name? := Json.name?
  address? := Address.decode?
  list? := Json.list?
  pair? := Json.pair?
  nullable? := Json.nullable?
  fields? := Json.fields?
  member? := Json.member?
  compact := Json.compact
  pretty := Json.pretty
  parse? := Json.parse?
  parseWhole? := Json.parseWhole?

end Retrace
