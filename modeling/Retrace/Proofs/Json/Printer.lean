import Retrace.Proofs.Json.Reader
namespace Retrace.Json

/-!
# Printed values read back

Whichever printer has written a value, in one line or over several, the reader
takes what was written for the value, as long as its numbers are spelled as
the grammar has them.
-/

/-- Every number in a value is spelled as the grammar has it. -/
inductive IsSpelled : Json → Prop
  | null : IsSpelled .null
  | bool (value : Bool) : IsSpelled (.bool value)
  | number (spelling : Numeral.Spelling) : IsSpelled (.number (String.ofList spelling.text))
  | string (text? : Option String) : IsSpelled (.string text?)
  | array {items : List Json}
      (each : ∀ item ∈ items, IsSpelled item) :
      IsSpelled (.array items)
  | object {members : List (Option String × Json)}
      (each : ∀ member ∈ members, IsSpelled member.2) :
      IsSpelled (.object members)

theorem isSpelled_ofNat (number : Nat) : IsSpelled (.ofNat number) := by
  rw [ofNat, ← Numeral.Spelling.text_ofNat]
  exact .number _

theorem isSpelled_ofText (text : String) : IsSpelled (.ofText text) :=
  .string (some text)

theorem isSpelled_ofMembers
    {members : List (String × Json)}
    (each : ∀ member ∈ members, member.2.IsSpelled) :
    IsSpelled (.ofMembers members) := by
  apply IsSpelled.object
  intro member isMember
  obtain ⟨named, isNamed, rfl⟩ := List.mem_map.mp isMember
  exact each named isNamed

/-- The characters of pieces of text, one after the other. -/
def piecesText (pieces : List String) : List Char :=
  pieces.flatMap String.toList

theorem areBlanks_newLine (level : Nat) :
    AreBlanks (newLine level).toList := by
  simp only [newLine, String.toList_append, String.toList_ofList]
  intro character member
  rcases List.mem_append.mp member with isBreak | isIndent
  · obtain rfl := List.mem_singleton.mp isBreak
    rfl
  · obtain rfl := List.eq_of_mem_replicate isIndent
    rfl

section

variable
  {item : Json}
  {items : List Json}

theorem readsItems_compact
    (each : ∀ other ∈ item :: items, Reads other (piecesText other.compactPieces)) :
    ReadsItems (item :: items) (piecesText (item.compactPieces ++ compactItems items)) := by
  induction items generalizing item with
  | nil =>
      have last := (each item (List.mem_cons_self ..)).lastItem areBlanks_nil
      simpa [piecesText, compactItems] using last
  | cons next items inductionHypothesis =>
      obtain ⟨first, others⟩ := List.forall_mem_cons.mp each
      have more := first.nextItem areBlanks_nil (inductionHypothesis others)
      simpa [piecesText, compactItems] using more

theorem readsItems_pretty
    {level : Nat}
    (each : ∀ other ∈ item :: items, Reads other (piecesText (prettyPieces (level + 1) other))) :
    ReadsItems (item :: items)
      (piecesText (newLine (level + 1) ::
        (prettyPieces (level + 1) item ++ prettyItems level items))) := by
  induction items generalizing item with
  | nil =>
      have last :=
        ((each item (List.mem_cons_self ..)).afterBlanks (areBlanks_newLine (level + 1))).lastItem
          (areBlanks_newLine level)
      simpa [piecesText, prettyItems] using last
  | cons next items inductionHypothesis =>
      obtain ⟨first, others⟩ := List.forall_mem_cons.mp each
      have more :=
        (first.afterBlanks (areBlanks_newLine (level + 1))).nextItem areBlanks_nil
          (inductionHypothesis others)
      simpa [piecesText, prettyItems] using more

end

section

variable
  {member : Option String × Json}
  {members : List (Option String × Json)}

theorem readsMembers_compact
    (each : ∀ other ∈ member :: members, Reads other.2 (piecesText other.2.compactPieces)) :
    ReadsMembers (member :: members)
      (piecesText (stringText member.1 :: ":" ::
        (member.2.compactPieces ++ compactMembers members))) := by
  induction members generalizing member with
  | nil =>
      have last := (each member (List.mem_cons_self ..)).lastMember member.1 areBlanks_nil
      simpa [piecesText, compactMembers] using last
  | cons next members inductionHypothesis =>
      obtain ⟨first, others⟩ := List.forall_mem_cons.mp each
      have more := first.nextMember member.1 areBlanks_nil (inductionHypothesis others)
      simpa [piecesText, compactMembers] using more

theorem readsMembers_pretty
    {level : Nat}
    (each :
      ∀ other ∈ member :: members,
        Reads other.2 (piecesText (prettyPieces (level + 1) other.2))) :
    ReadsMembers (member :: members)
      (piecesText (newLine (level + 1) :: stringText member.1 :: ": " ::
        (prettyPieces (level + 1) member.2 ++ prettyMembers level members))) := by
  have oneBlank : AreBlanks [' '] := by
    simp [AreBlanks, isBlank]
  induction members generalizing member with
  | nil =>
      have last :=
        (((each member (List.mem_cons_self ..)).afterBlanks oneBlank).lastMember member.1
          (areBlanks_newLine level)).afterBlanks (areBlanks_newLine (level + 1))
      simpa [piecesText, prettyMembers] using last
  | cons next members inductionHypothesis =>
      obtain ⟨first, others⟩ := List.forall_mem_cons.mp each
      have more :=
        ((first.afterBlanks oneBlank).nextMember member.1 areBlanks_nil
          (inductionHypothesis others)).afterBlanks (areBlanks_newLine (level + 1))
      simpa [piecesText, prettyMembers] using more

end

section

variable
  {value : Json}
  (spelled : value.IsSpelled)

include spelled

theorem reads_compact : Reads value (piecesText value.compactPieces) := by
  induction spelled with
  | null => simpa [piecesText, compactPieces] using reads_null
  | bool value => simpa [piecesText, compactPieces] using reads_bool value
  | number spelling => simpa [piecesText, compactPieces] using reads_number spelling
  | string text? => simpa [piecesText, compactPieces] using reads_string text?
  | @array items _ inductionHypothesis =>
      cases items with
      | nil => simpa [piecesText, compactPieces] using reads_emptyArray
      | cons item items =>
          have read := (readsItems_compact inductionHypothesis).array
          simpa [piecesText, compactPieces] using read
  | @object members _ inductionHypothesis =>
      cases members with
      | nil => simpa [piecesText, compactPieces] using reads_emptyObject
      | cons member members =>
          have read := (readsMembers_compact inductionHypothesis).object
          simpa [piecesText, compactPieces] using read

theorem reads_pretty (level : Nat) :
    Reads value (piecesText (prettyPieces level value)) := by
  induction spelled generalizing level with
  | null => simpa [piecesText, prettyPieces] using reads_null
  | bool value => simpa [piecesText, prettyPieces] using reads_bool value
  | number spelling => simpa [piecesText, prettyPieces] using reads_number spelling
  | string text? => simpa [piecesText, prettyPieces] using reads_string text?
  | @array items _ inductionHypothesis =>
      cases items with
      | nil => simpa [piecesText, prettyPieces] using reads_emptyArray
      | cons item items =>
          have read :=
            (readsItems_pretty fun other member =>
              inductionHypothesis other member (level + 1)).array
          simpa [piecesText, prettyPieces] using read
  | @object members _ inductionHypothesis =>
      cases members with
      | nil => simpa [piecesText, prettyPieces] using reads_emptyObject
      | cons member members =>
          have read :=
            (readsMembers_pretty fun other member =>
              inductionHypothesis other member (level + 1)).object
          simpa [piecesText, prettyPieces] using read

/-- A value written in one line is read back. -/
theorem parse?_compact : parse? value.compact = some value := by
  have parsed := (reads_compact spelled).ofChars?_eq areBlanks_nil
  rwa [List.append_nil, piecesText, ← String.toList_join] at parsed

/-- A value written over several lines is read back. -/
theorem parse?_pretty : parse? value.pretty = some value := by
  have parsed := (reads_pretty spelled 0).ofChars?_eq areBlanks_nil
  rwa [List.append_nil, piecesText, ← String.toList_join] at parsed

end

end Retrace.Json
