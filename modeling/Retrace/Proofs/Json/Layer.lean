import Mathlib.Algebra.Group.Nat.Defs
import Mathlib.Data.List.Forall2
import Retrace.Json.Fields
import Retrace.Proofs.Address.Text
import Retrace.Proofs.Json.Float
import Retrace.Proofs.Json.Printer
namespace Retrace

/-!
# The library at hand

The JSON library that the program runs on reads back what it writes.  Its reader
of whole documents also looks at what is skipped later: all numbers have to be
within the range of floats, and nothing may be nested too deep.  `IsKept` carries
both bounds, and that the printers' texts are read back, from the parts of a
document to the whole.
-/

theorem Address.decode?_encode (address : Address) :
    decode? address.encode = some address :=
  parse?_write address

namespace Json

/-! ## Numbers -/

theorem natural?_ofNat
    {bound number : Nat}
    (within : number ≤ bound) :
    (ofNat number).natural? bound = some number := by
  rw [ofNat, natural?, String.toList_ofList]
  exact Numeral.natural?_toDigits within

theorem uint64?_ofNat (number : UInt64) :
    (ofNat number.toNat).uint64? = some number := by
  have within : number.toNat ≤ 18446744073709551615 :=
    Nat.le_of_lt_succ number.toNat_lt
  simp [uint64?, natural?_ofNat within]

theorem uint32?_ofNat (number : UInt32) :
    (ofNat number.toNat).uint32? = some number := by
  have within : number.toNat ≤ 4294967295 :=
    Nat.le_of_lt_succ number.toNat_lt
  simp [uint32?, natural?_ofNat within]

theorem uint16?_ofNat (number : UInt16) :
    (ofNat number.toNat).uint16? = some number := by
  have within : number.toNat ≤ 65535 :=
    Nat.le_of_lt_succ number.toNat_lt
  simp [uint16?, natural?_ofNat within]

theorem name?_ofText
    {names : List String}
    {name : String}
    (isName : name ∈ names) :
    name? names (ofText name) = some name := by
  simp [name?, ofText, isName]

/-! ## Parts -/

/-- Whatever list is read, every item of it is read from something. -/
theorem exists_of_mem_list?
    {α : Type}
    {item? : Decoder α}
    {value : Json}
    {items : List α}
    (read : value.list? item? = some items) :
    ∀ item ∈ items, ∃ part, item? part = some item := by
  cases value with
  | array values =>
      have each :
          List.Forall₂
            (fun item value => (∃ part, item? part = some item) ∧ item? value = some item)
            items values :=
        List.Forall₂.flip ((forall₂_of_mapM read).imp fun value _ itemRead =>
          ⟨⟨value, itemRead⟩, itemRead⟩)
      exact ((List.forall₂_and_left items values).mp each).1
  | null | bool | number | string | object => cases read

theorem namedMembers?_ofMembers (members : List (String × Json)) :
    (ofMembers members).namedMembers? = some members := by
  rw [ofMembers, namedMembers?]
  exact mapM_map_eq_some fun member _ => rfl

theorem fields?_ofMembers
    (names : List String)
    (members : List (String × Json)) :
    fields? names (ofMembers members) = names.mapM (field? members) := by
  have named := namedMembers?_ofMembers members
  rw [ofMembers] at named ⊢
  simp only [fields?, named, Option.bind_eq_bind, Option.bind_some]

theorem member?_ofMembers
    (name : String)
    (members : List (String × Json)) :
    member? name (ofMembers members) = field? members name := by
  rw [member?, namedMembers?_ofMembers, Option.bind_some]

/-! ## Whole documents -/

/-- A value that the printers write so that it is read back, and kept whole then. -/
structure IsKept (levels : Nat) (value : Json) : Prop where
  spelled : value.IsSpelled
  plain : value.isPlain = true
  depth : value.depth ≤ levels

section

variable {levels : Nat}

theorem isKept_ofNat
    {number : Nat}
    (fits : number < UInt64.size) :
    IsKept levels (.ofNat number) where
  spelled := isSpelled_ofNat number
  plain := by
    rw [ofNat, isPlain, String.toList_ofList]
    exact Numeral.isSome_float?_toDigits fits
  depth := by
    simp [ofNat, depth]

theorem isKept_ofText (text : String) :
    IsKept levels (.ofText text) where
  spelled := isSpelled_ofText text
  plain := by
    rw [ofText, isPlain, Option.isSome_some]
  depth := by
    simp [ofText, depth]

theorem isKept_ofFloat (float : Float) :
    IsKept levels (.ofFloat float) where
  spelled := isSpelled_ofFloat float
  plain := by
    by_cases finite : float.isFinite = true
    · obtain ⟨spelling, spelled, readBack⟩ := exists_spelling_ofFloat finite
      rw [spelled, isPlain, String.toList_ofList, readBack, Option.isSome_some]
    · rw [ofFloat, if_neg finite, isPlain]
  depth := by
    rw [ofFloat]
    split <;> simp [depth]

theorem isKept_bool (value : Bool) :
    IsKept levels (.bool value) where
  spelled := .bool value
  plain := by rw [isPlain]
  depth := by simp [depth]

theorem itemsPlain_of_isKept
    {items : List Json}
    (each : ∀ item ∈ items, IsKept levels item) :
    itemsPlain items = true ∧ itemsDepth items ≤ levels := by
  induction items with
  | nil => simp [itemsPlain, itemsDepth]
  | cons item rest inductionHypothesis =>
      obtain ⟨first, others⟩ := List.forall_mem_cons.mp each
      obtain ⟨plain, depth⟩ := inductionHypothesis others
      simp [itemsPlain, itemsDepth, first.plain, first.depth, plain, depth]

theorem isKept_array
    {items : List Json}
    (each : ∀ item ∈ items, IsKept levels item) :
    IsKept (levels + 1) (.array items) := by
  obtain ⟨plain, depth⟩ := itemsPlain_of_isKept each
  exact ⟨.array fun item isItem => (each item isItem).spelled, by rwa [isPlain],
    by rw [Json.depth]; omega⟩

theorem membersPlain_of_isKept
    {members : List (String × Json)}
    (each : ∀ member ∈ members, IsKept levels member.2) :
    membersPlain (members.map fun member => (some member.1, member.2)) = true ∧
      membersDepth (members.map fun member => (some member.1, member.2)) ≤ levels := by
  induction members with
  | nil => simp [membersPlain, membersDepth]
  | cons member rest inductionHypothesis =>
      obtain ⟨first, others⟩ := List.forall_mem_cons.mp each
      obtain ⟨plain, depth⟩ := inductionHypothesis others
      simp [membersPlain, membersDepth, first.plain, first.depth, plain, depth]

theorem isKept_ofMembers
    {members : List (String × Json)}
    (each : ∀ member ∈ members, IsKept levels member.2) :
    IsKept (levels + 1) (.ofMembers members) := by
  obtain ⟨plain, depth⟩ := membersPlain_of_isKept each
  refine ⟨isSpelled_ofMembers fun member isMember => (each member isMember).spelled, ?_, ?_⟩
  · rwa [ofMembers, isPlain]
  · rw [ofMembers, Json.depth]
    omega

end

/-- What the writers put together is kept. -/
theorem isKept_of_isWritten
    {levels : Nat}
    {value : Json}
    (written : JsonLayer.IsWritten levels value) :
    IsKept levels value := by
  induction written with
  | ofNat fits => exact isKept_ofNat fits
  | ofFloat float => exact isKept_ofFloat float
  | ofBool value => exact isKept_bool value
  | ofText text => exact isKept_ofText text
  | ofAddress address => exact isKept_ofText address.write
  | ofItems _ inductionHypothesis => exact isKept_array inductionHypothesis
  | ofMembers _ inductionHypothesis => exact isKept_ofMembers inductionHypothesis

section

variable
  {value : Json}
  {text : String}
  (written : JsonLayer.IsWritten JsonLayer.deepest value)
  (isText : JsonLayer.IsText value text)

include written isText

theorem parse?_text : parse? text = some value := by
  have spelled := (isKept_of_isWritten written).spelled
  cases isText with
  | compact => exact parse?_compact spelled
  | pretty => exact parse?_pretty spelled

theorem parseWhole?_text : parseWhole? text = some value := by
  obtain ⟨_, plain, depth⟩ := isKept_of_isWritten written
  have shallow : value.depth < depthLimit :=
    Nat.lt_succ_of_le depth
  simp [parseWhole?, parse?_text written isText, plain, shallow]

end

/-- The library that the program runs on reads back what it writes. -/
theorem readsBack : JsonLayer.ReadsBack Json where
  uint16 := uint16?_ofNat
  uint32 := uint32?_ofNat
  uint64 := uint64?_ofNat
  float _ := float?_ofFloat
  noFloat float notFinite := by
    change float? (ofFloat float) = none
    simp [ofFloat, notFinite, float?]
  isFinite _ _ := isFinite_of_float?
  truth _ := rfl
  name _ _ := name?_ofText
  address := Address.decode?_encode
  list _ _ := rfl
  item _ _ _ := exists_of_mem_list?
  pair _ _ _ _ := rfl
  notNull _ _ := rfl
  fields := fields?_ofMembers
  member := member?_ofMembers
  parse _ _ := parse?_text
  parseWhole _ _ := parseWhole?_text

end Json

end Retrace
