import Retrace.Address
namespace Retrace

/-!
# JSON libraries

Packets and event logs are written to JSON and read from it by a library.
`JsonLayer` is all that they use of it: a writer and a reader for each kind of
value they consist of, and the texts of whole documents.  `ReadsBack` is what
they rely on.  Each of its laws speaks of one writer and one reader, or of the
text of a document, and none of packets or logs.
-/

namespace Json

/-- The value of a field, if it is present; unreadable if it is present twice. -/
def field? {Value : Type} (members : List (String × Value)) (name : String) :
    Option (Option Value) :=
  match members.filter fun member => member.1 == name with
  | [] => some none
  | [member] => some (some member.2)
  | _ => none

/-- A field that has to be present. -/
def required? {Value α : Type} (value? : Value → Option α) (field : Option Value) : Option α :=
  field.bind value?

/-- A field that may be missing. -/
def optional? {Value α : Type} (missing : α) (value? : Value → Option α) :
    Option Value → Option α
  | none => some missing
  | some value => value? value

end Json

/-- A JSON library that has its documents in a type. -/
class JsonLayer (Value : Type) where
  /-- An integer that is not negative. -/
  ofNat : Nat → Value
  /-- A float, or whatever stands where there is no finite number. -/
  ofFloat : Float → Value
  /-- A truth value. -/
  ofBool : Bool → Value
  /-- A string. -/
  ofText : String → Value
  /-- An internet address. -/
  ofAddress : Address → Value
  /-- An array. -/
  ofItems : List Value → Value
  /-- An object with the given members, in order. -/
  ofMembers : List (String × Value) → Value
  /-- A 16-bit number. -/
  uint16? : Value → Option UInt16
  /-- A 32-bit number. -/
  uint32? : Value → Option UInt32
  /-- A 64-bit number. -/
  uint64? : Value → Option UInt64
  /-- A number within the finite range of floats. -/
  float? : Value → Option Float
  /-- A truth value. -/
  bool? : Value → Option Bool
  /-- One of the given names. -/
  name? : List String → Value → Option String
  /-- An internet address. -/
  address? : Value → Option Address
  /-- Every item of an array. -/
  list? {α : Type} : (Value → Option α) → Value → Option (List α)
  /-- Exactly two items. -/
  pair? {α β : Type} : (Value → Option α) → (Value → Option β) → Value → Option (α × β)
  /-- A value, or none for `null`. -/
  nullable? {α : Type} : (Value → Option α) → Value → Option (Option α)
  /-- The fields of a record, in the order of their names; those missing are none. -/
  fields? : List String → Value → Option (List (Option Value))
  /-- One member of an object, where what the others are for is not known yet. -/
  member? : String → Value → Option (Option Value)
  /-- The text of a document in one line. -/
  compact : Value → String
  /-- The text of a document over several lines. -/
  pretty : Value → String
  /-- The document that a text holds. -/
  parse? : String → Option Value
  /-- The document that a text holds, if all of it can be kept before any is used. -/
  parseWhole? : String → Option Value

namespace JsonLayer

section

variable {Value : Type} [JsonLayer Value]

/-- A document that was put together by the writers, and is nested at most so deep. -/
inductive IsWritten : Nat → Value → Prop
  | ofNat {levels number : Nat}
      (fits : number < UInt64.size) :
      IsWritten levels (ofNat number)
  | ofFloat {levels : Nat} (float : Float) : IsWritten levels (ofFloat float)
  | ofBool {levels : Nat} (value : Bool) : IsWritten levels (ofBool value)
  | ofText {levels : Nat} (text : String) : IsWritten levels (ofText text)
  | ofAddress {levels : Nat} (address : Address) : IsWritten levels (ofAddress address)
  | ofItems {levels : Nat} {items : List Value}
      (each : ∀ item ∈ items, IsWritten levels item) :
      IsWritten (levels + 1) (ofItems items)
  | ofMembers {levels : Nat} {members : List (String × Value)}
      (each : ∀ member ∈ members, IsWritten levels member.2) :
      IsWritten (levels + 1) (ofMembers members)

theorem IsWritten.uint16 (levels : Nat) (number : UInt16) :
    IsWritten levels (JsonLayer.ofNat number.toNat : Value) :=
  .ofNat (Nat.lt_trans number.toNat_lt (by decide))

theorem IsWritten.uint32 (levels : Nat) (number : UInt32) :
    IsWritten levels (JsonLayer.ofNat number.toNat : Value) :=
  .ofNat (Nat.lt_trans number.toNat_lt (by decide))

theorem IsWritten.uint64 (levels : Nat) (number : UInt64) :
    IsWritten levels (JsonLayer.ofNat number.toNat : Value) :=
  .ofNat number.toNat_lt_size

/-- A text that one of the printers writes for a document. -/
inductive IsText (value : Value) : String → Prop
  | compact : IsText value (compact value)
  | pretty : IsText value (pretty value)

/-- A document that is nested deeper need not be read from its text. -/
def deepest : Nat := 127

end

/--
What was written is read back.

Integers, truth values, names and addresses come back, and so does every finite
float; any other float is written as something that no float is read from, and
only finite ones are read from anything.  Arrays are read item by item, and none
of them is `null`.  The field of a record is found by its name, wherever it
stands: it may be missing, it must not be given twice, and members that no field
is named after make no difference.  The text of a document holds the document.
-/
structure ReadsBack (Value : Type) [JsonLayer Value] : Prop where
  uint16 :
    ∀ number : UInt16, uint16? (ofNat number.toNat : Value) = some number
  uint32 :
    ∀ number : UInt32, uint32? (ofNat number.toNat : Value) = some number
  uint64 :
    ∀ number : UInt64, uint64? (ofNat number.toNat : Value) = some number
  float :
    ∀ float : Float, float.isFinite = true → float? (ofFloat float : Value) = some float
  noFloat :
    ∀ float : Float, float.isFinite = false → float? (ofFloat float : Value) = none
  isFinite :
    ∀ (value : Value) (float : Float), float? value = some float → float.isFinite = true
  truth :
    ∀ truth : Bool, bool? (ofBool truth : Value) = some truth
  name :
    ∀ (names : List String), ∀ name ∈ names, name? names (ofText name : Value) = some name
  address :
    ∀ address : Address, address? (ofAddress address : Value) = some address
  list :
    ∀ {α : Type} (item? : Value → Option α) (values : List Value),
      list? item? (ofItems values) = values.mapM item?
  item :
    ∀ {α : Type} (item? : Value → Option α) (value : Value) (items : List α),
      list? item? value = some items →
      ∀ item ∈ items, ∃ part, item? part = some item
  pair :
    ∀ {α β : Type} (first? : Value → Option α) (second? : Value → Option β)
      (first second : Value),
      pair? first? second? (ofItems [first, second]) = do
        let one ← first? first
        let other ← second? second
        return (one, other)
  notNull :
    ∀ {α : Type} (value? : Value → Option α) (values : List Value),
      nullable? value? (ofItems values) = (value? (ofItems values)).map some
  fields :
    ∀ (names : List String) (members : List (String × Value)),
      fields? names (ofMembers members) = names.mapM (Json.field? members)
  member :
    ∀ (name : String) (members : List (String × Value)),
      member? name (ofMembers members) = Json.field? members name
  parse :
    ∀ (value : Value) (text : String),
      IsWritten deepest value → IsText value text → parse? text = some value
  parseWhole :
    ∀ (value : Value) (text : String),
      IsWritten deepest value → IsText value text → parseWhole? text = some value

end JsonLayer

end Retrace
