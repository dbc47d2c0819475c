import Mathlib.Data.List.DropRight
import Retrace.Json.Reader
import Retrace.Proofs.Json.Numeral
import Retrace.Proofs.Json.Quoted
namespace Retrace.Json

/-!
# Texts that are read

What the reader makes of a text is said by `Reads`: with steps enough for the
text, and behind it anything that does not go on with a number, the reader
takes exactly the text for the value.  A text put together from texts that are
read, with blanks in between, is read again.
-/

open Numeral (EndsNumber)

/-- The reader takes exactly the text for the value. -/
def Reads (value : Json) (text : List Char) : Prop :=
  ∀ fuel rest,
    2 * text.length ≤ fuel →
    EndsNumber rest →
    scanValue fuel (text ++ rest) = some (value, rest)

/-- The reader takes exactly the text for the items up to the end of an array. -/
def ReadsItems (items : List Json) (text : List Char) : Prop :=
  ∀ fuel reversed rest,
    2 * text.length < fuel →
    scanItems fuel reversed (text ++ rest) = some (.array (reversed.reverse ++ items), rest)

/-- The reader takes exactly the text for the members up to the end of an object. -/
def ReadsMembers (members : List (Option String × Json)) (text : List Char) : Prop :=
  ∀ fuel reversed rest,
    2 * text.length < fuel →
    scanMembers fuel reversed (text ++ rest) =
      some (.object (reversed.reverse ++ members), rest)

/-- Blanks, and nothing else. -/
def AreBlanks (text : List Char) : Prop :=
  ∀ character ∈ text, isBlank character = true

/-! ## Blanks -/

section

variable {blanks : List Char}

theorem areBlanks_nil : AreBlanks [] := by
  simp [AreBlanks]

theorem skipBlanks_append
    (areBlanks : AreBlanks blanks)
    (text : List Char) :
    skipBlanks (blanks ++ text) = skipBlanks text :=
  List.dropWhile_append_of_pos areBlanks

theorem skipBlanks_skipBlanks (text : List Char) :
    skipBlanks (skipBlanks text) = skipBlanks text :=
  List.dropWhile_idempotent _ _

theorem skipBlanks_cons
    {first : Char}
    (notBlank : isBlank first = false)
    (rest : List Char) :
    skipBlanks (first :: rest) = first :: rest := by
  simp [skipBlanks, notBlank]

theorem scanValue_skipBlanks
    (fuel : Nat)
    (text : List Char) :
    scanValue fuel (skipBlanks text) = scanValue fuel text := by
  cases fuel with
  | zero => rfl
  | succ fuel => simp only [scanValue, skipBlanks_skipBlanks]

theorem scanItems_skipBlanks
    (fuel : Nat)
    (reversed : List Json)
    (text : List Char) :
    scanItems fuel reversed (skipBlanks text) = scanItems fuel reversed text := by
  cases fuel with
  | zero => rfl
  | succ fuel => simp only [scanItems, scanValue_skipBlanks]

theorem scanMembers_skipBlanks
    (fuel : Nat)
    (reversed : List (Option String × Json))
    (text : List Char) :
    scanMembers fuel reversed (skipBlanks text) = scanMembers fuel reversed text := by
  cases fuel with
  | zero => rfl
  | succ fuel => simp only [scanMembers, skipBlanks_skipBlanks]

/-- Neither blanks nor a token that is no number go on with a number. -/
theorem endsNumber_blanks
    (areBlanks : AreBlanks blanks)
    {rest : List Char}
    (ends : EndsNumber rest) :
    EndsNumber (blanks ++ rest) := by
  cases blanks with
  | nil => exact ends
  | cons first others =>
      rintro _ ⟨⟩
      have blank := areBlanks first (List.mem_cons_self ..)
      simp only [isBlank, Bool.or_eq_true, beq_iff_eq] at blank
      rcases blank with ((rfl | rfl) | rfl) | rfl <;> decide

end

section

variable
  {value : Json}
  {text blanks : List Char}

theorem Reads.afterBlanks
    (reads : Reads value text)
    (areBlanks : AreBlanks blanks) :
    Reads value (blanks ++ text) := by
  intro fuel rest enough ends
  rw [List.length_append] at enough
  rw [List.append_assoc, ← scanValue_skipBlanks, skipBlanks_append areBlanks,
    scanValue_skipBlanks]
  exact reads fuel rest (by omega) ends

/-- A text that is read is parsed, whatever blanks follow it. -/
theorem Reads.ofChars?_eq
    (reads : Reads value text)
    (areBlanks : AreBlanks blanks) :
    ofChars? (text ++ blanks) = some value := by
  have ends : EndsNumber blanks := by
    simpa using endsNumber_blanks areBlanks (show EndsNumber [] by simp [EndsNumber])
  have read := reads (stepBound (text ++ blanks)) blanks
    (by simp [stepBound]; omega) ends
  have skipped : skipBlanks blanks = [] := by
    simpa [skipBlanks] using skipBlanks_append areBlanks []
  simp [ofChars?, read, skipped]

end

/-! ## Scalars -/

/-- A text that one step takes for a value is read as it. -/
theorem reads_of_step
    {value : Json}
    {text : List Char}
    (nonempty : text ≠ [])
    (step :
      ∀ fuel rest, EndsNumber rest →
        scanValue (fuel + 1) (text ++ rest) = some (value, rest)) :
    Reads value text := by
  intro fuel rest enough ends
  have some := List.length_pos_of_ne_nil nonempty
  obtain ⟨fuel, rfl⟩ : ∃ less, fuel = less + 1 :=
    ⟨fuel - 1, by omega⟩
  exact step fuel rest ends

theorem reads_null : Reads .null "null".toList := by
  apply reads_of_step (by decide)
  intro fuel rest ends
  simp [scanValue, skipBlanks, isBlank]

theorem reads_bool (value : Bool) :
    Reads (.bool value) (if value then "true" else "false").toList := by
  cases value <;>
  · apply reads_of_step (by decide)
    intro fuel rest ends
    simp [scanValue, skipBlanks, isBlank]

theorem exists_stringText_eq (text? : Option String) :
    ∃ body,
      (stringText text?).toList = '"' :: body ∧
        ∀ rest, Quoted.scan (body ++ rest) = some (text?, rest) := by
  cases text? with
  | some text =>
      refine ⟨text.toList.flatMap Quoted.escape ++ ['"'], ?_, fun rest => ?_⟩
      · simp [stringText, Quoted.write]
      · simpa using Quoted.scan_write text rest
  | none =>
      refine ⟨['\\', 'u', 'd', '8', '0', '0', '"'], by decide, fun rest => ?_⟩
      simp [Quoted.scan, Quoted.scanFrom, Quoted.unit?, Quoted.hexDigit?,
        Quoted.Progress.pushUnit, Quoted.Progress.text?, Quoted.Progress.start]

theorem reads_string (text? : Option String) :
    Reads (.string text?) (stringText text?).toList := by
  obtain ⟨body, text, scanned⟩ := exists_stringText_eq text?
  rw [text]
  apply reads_of_step (List.cons_ne_nil _ _)
  intro fuel rest ends
  simp [scanValue, skipBlanks, isBlank, scanned]

theorem exists_text_eq (spelling : Numeral.Spelling) :
    ∃ first others,
      spelling.text = first :: others ∧ (first = '-' ∨ Numeral.isDigit first = true) := by
  obtain ⟨first, others, whole, digit⟩ := spelling.exists_whole_eq
  cases negative : spelling.negative with
  | true => simp [Numeral.Spelling.text, Numeral.Spelling.minus, negative]
  | false => simp [Numeral.Spelling.text, Numeral.Spelling.minus, negative, whole, digit]

theorem reads_number (spelling : Numeral.Spelling) :
    Reads (.number (String.ofList spelling.text)) spelling.text := by
  obtain ⟨first, others, text, starts⟩ := exists_text_eq spelling
  apply reads_of_step (by simp [text])
  intro fuel rest ends
  have scanned := spelling.scan_text ends
  rw [text, List.cons_append] at scanned ⊢
  have notBlank : isBlank first = false := by
    rw [Bool.eq_false_iff]
    intro blank
    simp only [isBlank, Bool.or_eq_true, beq_iff_eq] at blank
    rcases blank with ((rfl | rfl) | rfl) | rfl <;> simp [Numeral.isDigit] at starts
  rw [scanValue, skipBlanks_cons notBlank]
  -- Every case but the last one is that of a first character that starts no number.
  split
  case h_7 => rw [scanned]; rfl
  all_goals
    next start =>
      obtain ⟨rfl, _⟩ := List.cons.inj start
      simp [Numeral.isDigit] at starts

/-! ## Arrays -/

section

variable
  {item : Json}
  {items : List Json}
  {text blanks more : List Char}

theorem reads_emptyArray : Reads (.array []) "[]".toList := by
  apply reads_of_step (by decide)
  intro fuel rest ends
  simp [scanValue, skipBlanks, isBlank]

/-- A closing bracket ends the items. -/
theorem Reads.lastItem
    (reads : Reads item text)
    (areBlanks : AreBlanks blanks) :
    ReadsItems [item] (text ++ (blanks ++ [']'])) := by
  intro fuel reversed rest enough
  obtain ⟨fuel, rfl⟩ : ∃ less, fuel = less + 1 :=
    ⟨fuel - 1, by omega⟩
  simp only [List.length_append] at enough
  have ends : EndsNumber (blanks ++ (']' :: rest)) :=
    endsNumber_blanks areBlanks (by rintro _ ⟨⟩; decide)
  have read := reads fuel _ (by omega) ends
  have closed : skipBlanks (blanks ++ (']' :: rest)) = ']' :: rest :=
    skipBlanks_append areBlanks _
  simp [scanItems, read, closed]

/-- A comma stands between two items. -/
theorem Reads.nextItem
    (reads : Reads item text)
    (areBlanks : AreBlanks blanks)
    (readsMore : ReadsItems items more) :
    ReadsItems (item :: items) (text ++ (blanks ++ ',' :: more)) := by
  intro fuel reversed rest enough
  obtain ⟨fuel, rfl⟩ : ∃ less, fuel = less + 1 :=
    ⟨fuel - 1, by omega⟩
  simp only [List.length_append, List.length_cons] at enough
  have ends : EndsNumber (blanks ++ (',' :: (more ++ rest))) :=
    endsNumber_blanks areBlanks (by rintro _ ⟨⟩; decide)
  have read := reads fuel _ (by omega) ends
  have separated : skipBlanks (blanks ++ (',' :: (more ++ rest))) = ',' :: (more ++ rest) :=
    skipBlanks_append areBlanks _
  have readMore := readsMore fuel (item :: reversed) rest (by omega)
  simp [scanItems, read, separated, readMore]

/-- No item starts with a closing bracket. -/
theorem scanValue_closingBracket
    (fuel : Nat)
    (rest : List Char) :
    scanValue fuel (']' :: rest) = none := by
  cases fuel with
  | zero => rfl
  | succ fuel =>
      simp [scanValue, skipBlanks, isBlank, Numeral.scan, Numeral.scanMinus,
        Numeral.scanWhole?, Numeral.someDigits?, Numeral.digitRun, Numeral.isDigit]

/-- An opening bracket starts an array. -/
theorem ReadsItems.array
    (reads : ReadsItems items text) :
    Reads (.array items) ('[' :: text) := by
  intro fuel rest enough ends
  rw [List.length_cons] at enough
  obtain ⟨fuel, rfl⟩ : ∃ less, fuel = less + 1 :=
    ⟨fuel - 1, by omega⟩
  have read := reads fuel [] rest (by omega)
  rw [← scanItems_skipBlanks] at read
  rw [List.cons_append, scanValue, skipBlanks_cons (by decide)]
  simp only
  split
  · next after closed =>
      rw [closed] at read
      cases fuel <;> simp [scanItems, scanValue_closingBracket] at read
  · exact read

end

/-! ## Objects -/

section

variable
  {value : Json}
  {members : List (Option String × Json)}
  {text blanks more : List Char}

theorem reads_emptyObject : Reads (.object []) "\x7b\x7d".toList := by
  apply reads_of_step (by decide)
  intro fuel rest ends
  simp [scanValue, skipBlanks, isBlank]

theorem ReadsMembers.afterBlanks
    (reads : ReadsMembers members text)
    (areBlanks : AreBlanks blanks) :
    ReadsMembers members (blanks ++ text) := by
  intro fuel reversed rest enough
  rw [List.length_append] at enough
  rw [List.append_assoc, ← scanMembers_skipBlanks, skipBlanks_append areBlanks,
    scanMembers_skipBlanks]
  exact reads fuel reversed rest (by omega)

/-- A closing brace ends the members. -/
theorem Reads.lastMember
    (reads : Reads value text)
    (name : Option String)
    (areBlanks : AreBlanks blanks) :
    ReadsMembers [(name, value)]
      ((stringText name).toList ++ ':' :: (text ++ (blanks ++ ['\x7d']))) := by
  intro fuel reversed rest enough
  obtain ⟨body, nameText, scanned⟩ := exists_stringText_eq name
  obtain ⟨fuel, rfl⟩ : ∃ less, fuel = less + 1 :=
    ⟨fuel - 1, by omega⟩
  simp only [List.length_append, List.length_cons] at enough
  have ends : EndsNumber (blanks ++ ('\x7d' :: rest)) :=
    endsNumber_blanks areBlanks (by rintro _ ⟨⟩; decide)
  have read := reads fuel _ (by omega) ends
  have closed : skipBlanks (blanks ++ ('\x7d' :: rest)) = '\x7d' :: rest :=
    skipBlanks_append areBlanks _
  simp [scanMembers, nameText, skipBlanks_cons (by decide : isBlank '"' = false), scanned,
    skipBlanks_cons (by decide : isBlank ':' = false), read, closed]

/-- A comma stands between two members. -/
theorem Reads.nextMember
    (reads : Reads value text)
    (name : Option String)
    (areBlanks : AreBlanks blanks)
    (readsMore : ReadsMembers members more) :
    ReadsMembers ((name, value) :: members)
      ((stringText name).toList ++ ':' :: (text ++ (blanks ++ ',' :: more))) := by
  intro fuel reversed rest enough
  obtain ⟨body, nameText, scanned⟩ := exists_stringText_eq name
  obtain ⟨fuel, rfl⟩ : ∃ less, fuel = less + 1 :=
    ⟨fuel - 1, by omega⟩
  simp only [List.length_append, List.length_cons] at enough
  have ends : EndsNumber (blanks ++ (',' :: (more ++ rest))) :=
    endsNumber_blanks areBlanks (by rintro _ ⟨⟩; decide)
  have read := reads fuel _ (by omega) ends
  have separated : skipBlanks (blanks ++ (',' :: (more ++ rest))) = ',' :: (more ++ rest) :=
    skipBlanks_append areBlanks _
  have readMore := readsMore fuel ((name, value) :: reversed) rest (by omega)
  simp [scanMembers, nameText, skipBlanks_cons (by decide : isBlank '"' = false), scanned,
    skipBlanks_cons (by decide : isBlank ':' = false), read, separated, readMore]

/-- An opening brace starts an object. -/
theorem ReadsMembers.object
    (reads : ReadsMembers members text) :
    Reads (.object members) ('\x7b' :: text) := by
  intro fuel rest enough ends
  rw [List.length_cons] at enough
  obtain ⟨fuel, rfl⟩ : ∃ less, fuel = less + 1 :=
    ⟨fuel - 1, by omega⟩
  have read := reads fuel [] rest (by omega)
  rw [← scanMembers_skipBlanks] at read
  rw [List.cons_append, scanValue, skipBlanks_cons (by decide)]
  simp only
  split
  · next after closed =>
      rw [closed] at read
      cases fuel <;> simp [scanMembers, skipBlanks, isBlank] at read
  · exact read

end

end Retrace.Json
