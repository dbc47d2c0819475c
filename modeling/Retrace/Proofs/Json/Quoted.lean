import Retrace.Json.Printer
namespace Retrace.Quoted

/-!
# Quoted text read back

A character between quotes is read as itself, escaped or not; so a text is, one
character after the other.
-/

/-- The unit that two hexadecimal digits name after two zeros. -/
theorem unit?_hexDigit :
    ∀ unit < 32,
      unit? '0' '0' (hexDigit (unit / 16)) (hexDigit (unit % 16)) = some unit := by
  decide

theorem pushUnit_of_lt
    (progress : Progress)
    {unit : Nat}
    (small : unit < 32) :
    progress.pushUnit unit = progress.push (Char.ofNat unit) := by
  have notFirst : ¬ (0xD800 ≤ unit ∧ unit < 0xDC00) := by
    omega
  have notSecond : ¬ (0xDC00 ≤ unit ∧ unit < 0xE000) := by
    omega
  rw [Progress.pushUnit, if_neg notFirst, if_neg notSecond]

/-- A written character is read as itself. -/
theorem scanFrom_escape
    (progress : Progress)
    (character : Char)
    (rest : List Char) :
    scanFrom progress (escape character ++ rest) =
      scanFrom (progress.push character) rest := by
  have letter (name : Char) (named : escaped? name = some character) :
      scanFrom progress ('\\' :: name :: rest) =
        scanFrom (progress.push character) rest := by
    rw [scanFrom]
    · rw [named]
    · rintro first second third fourth rest rfl
      simp [escaped?] at named
  rw [escape]
  split
  · next quote =>
      subst quote
      exact letter '"' rfl
  split
  · next backslash =>
      subst backslash
      exact letter '\\' rfl
  split
  · next backspace => exact letter 'b' (backspace ▸ rfl)
  split
  · next formFeed => exact letter 'f' (formFeed ▸ rfl)
  split
  · next lineFeed => exact letter 'n' (lineFeed ▸ rfl)
  split
  · next return_ => exact letter 'r' (return_ ▸ rfl)
  split
  · next tab => exact letter 't' (tab ▸ rfl)
  split
  · next control =>
      have small : character.toNat < 32 :=
        control
      simp only [List.cons_append, List.nil_append, scanFrom, unit?_hexDigit _ small,
        pushUnit_of_lt _ small, Char.ofNat_toNat]
  · next notQuote notBackslash _ _ _ _ _ notControl =>
      rw [List.singleton_append, scanFrom]
      · rw [if_neg notControl]
      · exact notQuote
      · exact fun _ _ _ _ _ backslash _ => notBackslash backslash
      · exact fun _ _ backslash _ => notBackslash backslash
      · exact fun backslash _ => notBackslash backslash

/-- The characters of a text follow. -/
def Progress.pushAll (progress : Progress) (characters : List Char) : Progress :=
  characters.foldl Progress.push progress

theorem scanFrom_escapes
    (progress : Progress)
    (characters rest : List Char) :
    scanFrom progress (characters.flatMap escape ++ rest) =
      scanFrom (progress.pushAll characters) rest := by
  induction characters generalizing progress with
  | nil => rfl
  | cons character characters inductionHypothesis =>
      rw [List.flatMap_cons, List.append_assoc, scanFrom_escape, inductionHypothesis]
      rfl

theorem text?_pushAll
    {progress : Progress}
    (noHalf : progress.half = none)
    (notBroken : progress.broken = false)
    (characters : List Char) :
    (progress.pushAll characters).text? =
      some (String.ofList (progress.reversed.reverse ++ characters)) := by
  induction characters generalizing progress with
  | nil => simp [Progress.pushAll, Progress.text?, noHalf, notBroken]
  | cons character characters inductionHypothesis =>
      have pushed := @inductionHypothesis (progress.push character) rfl
        (by simp [Progress.push, noHalf, notBroken])
      simpa [Progress.pushAll, Progress.push] using pushed

/-- A written text is read as itself, up to its closing quote. -/
theorem scan_write
    (text : String)
    (rest : List Char) :
    scan (text.toList.flatMap escape ++ '"' :: rest) = some (some text, rest) := by
  rw [scan, scanFrom_escapes, scanFrom, text?_pushAll rfl rfl]
  simp [Progress.start]

end Retrace.Quoted
