import Mathlib.Algebra.Group.Nat.Defs
import Retrace.Json.Layer
import Retrace.Proofs.Text.Digits
namespace Retrace.Json

/-!
# Records read back

Among members of different names each field is found under its name, whichever
of the fields are written.  A member more, under a name that was missing, gives
that field and leaves the others as they are.
-/

variable {Value : Type}

/-! ## Fields written -/

/-- A field that is written unless it is absent reads back. -/
theorem optional?_map
    {α : Type}
    {encode : α → Value}
    {value? : Value → Option (Option α)}
    (readBack : ∀ item, value? (encode item) = some (some item))
    (field : Option α) :
    optional? none value? (field.map encode) = some field := by
  cases field with
  | none => rfl
  | some item => exact readBack item

/-- The fields of a record that are written. -/
def written (fields : List (String × Option Value)) : List (String × Value) :=
  fields.filterMap fun field => field.2.map fun value => (field.1, value)

theorem name_mem_of_written
    {fields : List (String × Option Value)}
    {member : String × Value}
    (isWritten : member ∈ written fields) :
    member.1 ∈ fields.map Prod.fst := by
  obtain ⟨field, isField, found⟩ := List.mem_filterMap.mp isWritten
  obtain ⟨value, _, rfl⟩ := Option.map_eq_some_iff.mp found
  exact List.mem_map_of_mem isField

theorem written_cons
    (first : String × Option Value)
    (others : List (String × Option Value)) :
    written (first :: others) =
      (first.2.toList.map fun value => (first.1, value)) ++ written others := by
  obtain ⟨name, value⟩ := first
  cases value <;> simp [written]

/-- Under a field's name nothing is written but the field. -/
theorem filter_written
    {fields : List (String × Option Value)}
    (distinct : (fields.map Prod.fst).Nodup)
    {field : String × Option Value}
    (isField : field ∈ fields) :
    ((written fields).filter fun member => member.1 == field.1) =
      field.2.toList.map fun value => (field.1, value) := by
  induction fields with
  | nil => cases isField
  | cons first others inductionHypothesis =>
      obtain ⟨notAmong, distinctOthers⟩ := List.nodup_cons.mp distinct
      rw [written_cons, List.filter_append]
      rcases List.mem_cons.mp isField with rfl | isOther
      · have itself :
            (field.2.toList.map fun value => (field.1, value)).filter
                (fun member => member.1 == field.1) =
              field.2.toList.map fun value => (field.1, value) := by
          simp
        have noOther :
            (written others).filter (fun member => member.1 == field.1) = [] := by
          simp only [List.filter_eq_nil_iff, beq_iff_eq]
          intro member isWritten same
          exact notAmong (same ▸ name_mem_of_written isWritten)
        rw [itself, noOther, List.append_nil]
      · have differ : first.1 ≠ field.1 :=
          fun same => notAmong (same ▸ List.mem_map_of_mem isOther)
        rw [inductionHypothesis distinctOthers isOther]
        simp [differ]

/-- A field among others of different names is found, or found to be missing. -/
theorem field?_written
    {fields : List (String × Option Value)}
    (distinct : (fields.map Prod.fst).Nodup)
    {field : String × Option Value}
    (isField : field ∈ fields) :
    field? (written fields) field.1 = some field.2 := by
  rw [field?, filter_written distinct isField]
  cases field.2 <;> rfl

/-- A member among others of different names is found. -/
theorem field?_of_mem
    {members : List (String × Value)}
    (distinct : (members.map Prod.fst).Nodup)
    {member : String × Value}
    (isMember : member ∈ members) :
    field? members member.1 = some (some member.2) := by
  let fields := members.map fun other => (other.1, some other.2)
  have allWritten : written fields = members := by
    simp [fields, written, List.filterMap_map]
  have names : fields.map Prod.fst = members.map Prod.fst := by
    simp [fields, Function.comp_def]
  have isField : (member.1, some member.2) ∈ fields :=
    List.mem_map_of_mem isMember
  rw [← allWritten]
  exact field?_written (names ▸ distinct) isField

/-- All fields among different names are found, whichever of them are written. -/
theorem mapM_field?_written
    {fields : List (String × Option Value)}
    (distinct : (fields.map Prod.fst).Nodup) :
    (fields.map Prod.fst).mapM (field? (written fields)) = some (fields.map Prod.snd) :=
  mapM_map_eq_map fun _ isField => field?_written distinct isField

/-- A record of distinct names reads back, whichever of its fields are written. -/
theorem fields?_written
    [JsonLayer Value]
    (readsBack : JsonLayer.ReadsBack Value)
    (fields : List (String × Option Value))
    (distinct : (fields.map Prod.fst).Nodup) :
    JsonLayer.fields? (fields.map Prod.fst) (JsonLayer.ofMembers (written fields)) =
      some (fields.map Prod.snd) := by
  rw [readsBack.fields, mapM_field?_written distinct]

/-! ## Fields added -/

section

variable
  {before after : List (String × Value)}
  {name : String}

theorem field?_eq_none
    {members : List (String × Value)}
    (lacks : ∀ member ∈ members, member.1 ≠ name) :
    field? members name = some none := by
  have absent : members.filter (fun member => member.1 == name) = [] :=
    List.filter_eq_nil_iff.mpr fun member isMember => by simpa using lacks member isMember
  rw [field?, absent]

theorem field?_insert_self
    (lacks : ∀ member ∈ before ++ after, member.1 ≠ name)
    (value : Value) :
    field? (before ++ (name, value) :: after) name = some (some value) := by
  have absent : (before ++ after).filter (fun member => member.1 == name) = [] :=
    List.filter_eq_nil_iff.mpr fun member isMember => by simpa using lacks member isMember
  rw [List.filter_append, List.append_eq_nil_iff] at absent
  simp [field?, List.filter_append, absent.1, absent.2]

theorem field?_insert_other
    {other : String}
    (differ : other ≠ name)
    (value : Value) :
    field? (before ++ (name, value) :: after) other = field? (before ++ after) other := by
  simp [field?, List.filter_append, differ.symm]

end

theorem mapM_field?_insert
    {before after : List (String × Value)}
    {name : String}
    {names : List String}
    (notAmong : name ∉ names)
    (value : Value) :
    names.mapM (field? (before ++ (name, value) :: after)) =
      names.mapM (field? (before ++ after)) := by
  induction names with
  | nil => rfl
  | cons other names inductionHypothesis =>
      have differ : other ≠ name :=
        (List.ne_of_not_mem_cons notAmong).symm
      have others := inductionHypothesis (List.not_mem_of_not_mem_cons notAmong)
      simp [field?_insert_other differ, others]

/-- A member under a missing name gives its field, and leaves the other fields as they are. -/
theorem mapM_field?_insert_self
    {earlier later : List String}
    {name : String}
    (notEarlier : name ∉ earlier)
    (notLater : name ∉ later)
    {before after : List (String × Value)}
    (lacks : ∀ member ∈ before ++ after, member.1 ≠ name)
    (value : Value) :
    ∃ others? : Option (String → Option Value),
      (earlier ++ name :: later).mapM (field? (before ++ (name, value) :: after)) =
        others?.map (fun others => earlier.map others ++ some value :: later.map others) ∧
      (earlier ++ name :: later).mapM (field? (before ++ after)) =
        others?.map (fun others => earlier.map others ++ none :: later.map others) := by
  simp only [Option.bind_eq_bind, Option.bind_some, Option.pure_def, List.mapM_append,
    List.mapM_cons, mapM_field?_insert notEarlier, mapM_field?_insert notLater,
    field?_insert_self lacks, field?_eq_none lacks]
  cases readEarlier : earlier.mapM (field? (before ++ after)) with
  | none => exact ⟨none, by simp⟩
  | some first =>
      cases readLater : later.mapM (field? (before ++ after)) with
      | none => exact ⟨none, by simp⟩
      | some second =>
          refine ⟨some fun other => (field? (before ++ after) other).getD none, ?_, ?_⟩
          · simp [eq_map_of_mapM readEarlier none, eq_map_of_mapM readLater none]
          · simp [eq_map_of_mapM readEarlier none, eq_map_of_mapM readLater none]

end Retrace.Json
