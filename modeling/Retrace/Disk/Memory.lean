import Retrace.Disk.Path
namespace Retrace

/-!
# A disk in memory

Directories and files by the place they lie at.  A path is followed name by
name: whatever it goes through has to be a directory, and the first name that
leads nowhere decides which fault there is.  Writing makes or replaces a file in
a directory that exists; directories are never made.

The law at the end says that a text that was written is what the same path then
reads.
-/

/-- The names that lead from the root to a directory or a file. -/
abbrev Place := List String

/-- What can lie at a place. -/
inductive Entry
  | directory
  | file (bytes : ByteArray)

/-- The directories and files of a disk in memory. -/
structure Files where
  /-- Where the paths begin that do not begin at the root. -/
  workingDirectory : Place
  /-- What lies where, the newest first; the root need not be among it. -/
  entries : List (Place × Entry)

namespace Files

/-- What lies at a place. -/
def lookup? (files : Files) (place : Place) : Option Entry :=
  if place = [] then some .directory else files.entries.lookup place

/-- Whether there is a directory at a place. -/
def hasDirectory (files : Files) (place : Place) : Bool :=
  match files.lookup? place with
  | some .directory => true
  | some (.file _) | none => false

/-- Where a name leads from a place, which has to be a directory. -/
def enter (files : Files) (place : Place) (name : String) : Except DiskFault Place :=
  if !files.hasDirectory place then
    .error .notDirectory
  else if name = "." then
    .ok place
  else if name = ".." then
    .ok place.dropLast
  else if DiskPath.isTooLong name then
    .error .nameTooLong
  else if (files.lookup? (place ++ [name])).isSome then
    .ok (place ++ [name])
  else
    .error .notFound

/-- Where names lead from a place, one after the other. -/
def follow (files : Files) : Place → List String → Except DiskFault Place
  | place, [] => .ok place
  | place, name :: rest =>
      match files.enter place name with
      | .error fault => .error fault
      | .ok next => files.follow next rest

/-- Where the way of a path begins. -/
def startOf (files : Files) (path : DiskPath) : Place :=
  if path.absolute then [] else files.workingDirectory

/-- The contents of the file that a path leads to. -/
def readAt (files : Files) (path : DiskPath) : Except DiskFault ByteArray :=
  match files.follow (files.startOf path) path.names with
  | .error fault => .error fault
  | .ok place =>
      match files.lookup? place with
      | none => .error .notFound
      | some .directory => .error .isDirectory
      | some (.file bytes) =>
          if path.slashed then .error .notDirectory else .ok bytes

/-- The contents of the file at a path. -/
def read (files : Files) (path : String) : Except DiskFault ByteArray :=
  match DiskPath.ofText path with
  | .error fault => .error fault
  | .ok path => files.readAt path

/-- The place of the file that a path would make: in an existing directory, itself none. -/
def placeFor (files : Files) (path : DiskPath) : Except DiskFault Place :=
  match path.names.getLast? with
  | none => .error .isDirectory
  | some name =>
      match files.follow (files.startOf path) path.names.dropLast with
      | .error fault => .error fault
      | .ok parent =>
          if !files.hasDirectory parent then
            .error .notDirectory
          else if DiskPath.isStep name || path.slashed then
            .error .isDirectory
          else if DiskPath.isTooLong name then
            .error .nameTooLong
          else if files.hasDirectory (parent ++ [name]) then
            .error .isDirectory
          else
            .ok (parent ++ [name])

/-- A file is made or replaced. -/
def insert (files : Files) (place : Place) (bytes : ByteArray) : Files :=
  { files with entries := (place, .file bytes) :: files.entries }

/-- The files once a text was written to a path. -/
def write (files : Files) (path text : String) : Except DiskFault Files :=
  match DiskPath.ofText path with
  | .error fault => .error fault
  | .ok path =>
      match files.placeFor path with
      | .error fault => .error fault
      | .ok place => .ok (files.insert place text.toUTF8)

end Files

/-- A disk that keeps its files in a state. -/
def Disk.ofMemory : Disk (StateM Files) where
  read path := do return (← get).read path
  write path text := do
    match (← get).write path text with
    | .ok files =>
        set files
        return .ok ()
    | .error fault => return .error fault

/-! ## Reading what was written -/

namespace Files

variable {files : Files} {place : Place} {bytes : ByteArray}

/-- Only the place of the new file has another entry. -/
theorem lookup?_insert
    (notRoot : place ≠ [])
    (other : Place) :
    (files.insert place bytes).lookup? other =
      if other = place then some (.file bytes) else files.lookup? other := by
  by_cases same : other = place
  · subst other
    simp [lookup?, insert, notRoot]
  · have differ : (other == place) = false := by
      simpa using same
    simp [lookup?, insert, List.lookup_cons, differ, same]

/-- A new file that replaces no directory leaves the directories as they are. -/
theorem hasDirectory_insert
    (notRoot : place ≠ [])
    (noDirectory : files.hasDirectory place = false)
    (other : Place) :
    (files.insert place bytes).hasDirectory other = files.hasDirectory other := by
  by_cases same : other = place
  · subst other
    rw [noDirectory]
    simp [hasDirectory, lookup?_insert notRoot]
  · simp [hasDirectory, lookup?_insert notRoot, same]

/-- A name that led somewhere still leads there. -/
theorem enter_insert
    (notRoot : place ≠ [])
    (noDirectory : files.hasDirectory place = false)
    {start next : Place}
    {name : String}
    (entered : files.enter start name = .ok next) :
    (files.insert place bytes).enter start name = .ok next := by
  unfold enter at entered ⊢
  rw [hasDirectory_insert notRoot noDirectory]
  split at entered
  · simp at entered
  · split at entered
    · simp_all
    · split at entered
      · simp_all
      · split at entered
        · simp at entered
        · split at entered
          · rename_i present
            have stays :
                ((files.insert place bytes).lookup? (start ++ [name])).isSome = true := by
              rw [lookup?_insert notRoot]
              split
              · rfl
              · exact present
            simp_all
          · simp at entered

/-- Names that led somewhere still lead there. -/
theorem follow_insert
    (notRoot : place ≠ [])
    (noDirectory : files.hasDirectory place = false)
    {start stop : Place}
    {names : List String}
    (followed : files.follow start names = .ok stop) :
    (files.insert place bytes).follow start names = .ok stop := by
  induction names generalizing start with
  | nil =>
      exact followed
  | cons name rest inductionHypothesis =>
      unfold follow at followed ⊢
      cases entered : files.enter start name with
      | error fault =>
          simp [entered] at followed
      | ok next =>
          rw [enter_insert notRoot noDirectory entered]
          simp only [entered] at followed
          exact inductionHypothesis followed

/-- Names are followed by following the first ones, then the others. -/
theorem follow_append
    (files : Files)
    (start : Place)
    (first others : List String) :
    files.follow start (first ++ others) =
      match files.follow start first with
      | .error fault => .error fault
      | .ok next => files.follow next others := by
  induction first generalizing start with
  | nil =>
      rfl
  | cons name rest inductionHypothesis =>
      simp only [List.cons_append, follow]
      cases files.enter start name with
      | error fault => rfl
      | ok next => exact inductionHypothesis next

/-- What a path has to be like to make a file. -/
theorem placeFor_eq_ok
    {files : Files}
    {path : DiskPath}
    {place : Place}
    (placed : files.placeFor path = .ok place) :
    ∃ first name parent,
      path.names = first ++ [name] ∧
        files.follow (files.startOf path) first = .ok parent ∧
        files.hasDirectory parent = true ∧
        DiskPath.isStep name = false ∧
        path.slashed = false ∧
        DiskPath.isTooLong name = false ∧
        files.hasDirectory place = false ∧
        place = parent ++ [name] := by
  unfold placeFor at placed
  cases final : path.names.getLast? with
  | none =>
      simp [final] at placed
  | some name =>
      obtain ⟨first, names⟩ := List.getLast?_eq_some_iff.mp final
      have before : path.names.dropLast = first := by
        simp [names]
      cases followed : files.follow (files.startOf path) first with
      | error fault =>
          simp [final, before, followed] at placed
      | ok parent =>
          simp only [final, before, followed] at placed
          split at placed
          · cases placed
          · rename_i inDirectory
            split at placed
            · cases placed
            · rename_i ordinary
              split at placed
              · cases placed
              · rename_i notLong
                split at placed
                · cases placed
                · rename_i noDirectory
                  cases placed
                  have isThere : files.hasDirectory parent = true := by
                    simpa using inDirectory
                  refine ⟨first, name, parent, names, followed, isThere, ?_⟩
                  simpa [notLong, noDirectory] using ordinary

/-- A new file is what the path that made it then reads. -/
theorem readAt_insert
    {files : Files}
    {path : DiskPath}
    {place : Place}
    (placed : files.placeFor path = .ok place)
    (bytes : ByteArray) :
    (files.insert place bytes).readAt path = .ok bytes := by
  obtain ⟨first, name, parent, names, followed, inDirectory, noStep,
    unslashed, notLong, noDirectory, atPlace⟩ := placeFor_eq_ok placed
  have notRoot : place ≠ [] := by
    simp [atPlace]
  have present :
      (files.insert place bytes).lookup? place = some (.file bytes) := by
    simp [lookup?_insert notRoot]
  have noDot : name ≠ "." ∧ name ≠ ".." := by
    simpa [DiskPath.isStep] using noStep
  have entered :
      (files.insert place bytes).enter parent name = .ok place := by
    simp [enter, hasDirectory_insert notRoot noDirectory, inDirectory,
      noDot, notLong, ← atPlace, present]
  have sameStart :
      (files.insert place bytes).startOf path = files.startOf path :=
    rfl
  have reached :
      (files.insert place bytes).follow (files.startOf path) path.names =
        .ok place := by
    rw [names, follow_append, follow_insert notRoot noDirectory followed]
    simp [follow, entered]
  simp [readAt, sameStart, reached, present, unslashed]

/-- A text that was written to a path is what the path then reads. -/
theorem read_of_write
    {files later : Files}
    {path text : String}
    (written : files.write path text = .ok later) :
    later.read path = .ok text.toUTF8 := by
  unfold write at written
  unfold read
  cases parsed : DiskPath.ofText path with
  | error fault =>
      simp [parsed] at written
  | ok way =>
      cases placed : files.placeFor way with
      | error fault =>
          simp [parsed, placed] at written
      | ok place =>
          simp only [parsed, placed, Except.ok.injEq] at written
          subst later
          exact readAt_insert placed text.toUTF8

end Files

end Retrace
