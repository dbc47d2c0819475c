import Mathlib.Algebra.Group.Nat.Defs
import Mathlib.Data.List.Forall2
import Retrace.Address.Text
import Retrace.Json.Numeral
namespace Retrace

/-!
# Digits read back

The digits of a number in a base spell that number: a reader that takes them one
after the other, multiplying by the base in between, ends with it.  Decimal
digits are read by `Numeral.natural?`, the digits of addresses by
`Address.number?`.
-/

/-- Whatever is read on its own is read in a list. -/
theorem mapM_map_eq_map
    {α β γ : Type}
    {write : α → β}
    {read? : β → Option γ}
    {value : α → γ}
    {items : List α}
    (each : ∀ item ∈ items, read? (write item) = some (value item)) :
    (items.map write).mapM read? = some (items.map value) := by
  induction items with
  | nil =>
      rfl
  | cons item rest inductionHypothesis =>
      obtain ⟨first, others⟩ := List.forall_mem_cons.mp each
      simp [first, inductionHypothesis others]

/-- Whatever is read back on its own is read back in a list. -/
theorem mapM_map_eq_some
    {α β : Type}
    {write : α → β}
    {read? : β → Option α}
    {items : List α}
    (readBack : ∀ item ∈ items, read? (write item) = some item) :
    (items.map write).mapM read? = some items := by
  simpa using mapM_map_eq_map readBack

/-- What is read from a list is read item by item. -/
theorem forall₂_of_mapM
    {α β : Type}
    {read? : α → Option β}
    {items : List α}
    {read : List β}
    (all : items.mapM read? = some read) :
    List.Forall₂ (fun item value => read? item = some value) items read := by
  induction items generalizing read with
  | nil =>
      cases all
      exact .nil
  | cons item items inductionHypothesis =>
      simp only [List.mapM_cons, Option.bind_eq_bind, Option.bind_eq_some_iff, Option.pure_def,
        Option.some.injEq] at all
      obtain ⟨first, readFirst, others, readOthers, rfl⟩ := all
      exact .cons readFirst (inductionHypothesis readOthers)

theorem eq_map_of_mapM
    {α β : Type}
    {read? : α → Option β}
    {items : List α}
    {read : List β}
    (all : items.mapM read? = some read)
    (missing : β) :
    read = items.map fun item => (read? item).getD missing := by
  rw [← List.forall₂_eq_eq_eq, List.forall₂_map_right_iff]
  apply List.Forall₂.flip
  apply (forall₂_of_mapM all).imp
  intro item value readItem
  change value = (read? item).getD missing
  rw [readItem, Option.getD_some]

section

variable {base number : Nat}

/-- Every digit of a number is that of a value below the base. -/
theorem exists_digit_of_mem_toDigits
    (atLeast : 2 ≤ base)
    {character : Char}
    (member : character ∈ Nat.toDigits base number) :
    ∃ digit < base, character = digit.digitChar := by
  induction number using Nat.strongRecOn with
  | ind number inductionHypothesis =>
      by_cases single : number < base
      · rw [Nat.toDigits_of_lt_base single] at member
        exact ⟨number, single, List.mem_singleton.mp member⟩
      · have several : base ≤ number :=
          Nat.not_lt.mp single
        rw [Nat.toDigits_of_base_le (by omega) several] at member
        rcases List.mem_append.mp member with isEarlier | isLast
        · exact inductionHypothesis (number / base)
            (Nat.div_lt_self (by omega) (by omega)) isEarlier
        · exact ⟨number % base, Nat.mod_lt number (by omega),
            List.mem_singleton.mp isLast⟩

/-- Only zero starts with a zero. -/
theorem head?_toDigits_ne_zero
    (atLeast : 2 ≤ base)
    (positive : 0 < number) :
    (Nat.toDigits base number).head? ≠ some '0' := by
  induction number using Nat.strongRecOn with
  | ind number inductionHypothesis =>
      by_cases single : number < base
      · rw [Nat.toDigits_of_lt_base single]
        simpa using Nat.ne_of_gt positive
      · have several : base ≤ number :=
          Nat.not_lt.mp single
        have front := inductionHypothesis (number / base)
          (Nat.div_lt_self positive (by omega)) (Nat.div_pos several (by omega))
        rw [Nat.toDigits_of_base_le (by omega) several]
        cases digits : Nat.toDigits base (number / base) with
        | nil =>
            exact (Nat.toDigits_ne_nil digits).elim
        | cons first rest =>
            simpa [digits] using front

end

namespace Numeral

theorem isDigit_of_mem_toDigits
    {number : Nat}
    {character : Char}
    (member : character ∈ Nat.toDigits 10 number) :
    isDigit character = true := by
  have digit : character.isDigit = true :=
    Nat.isDigit_of_mem_toDigits (by decide) (by decide) member
  simpa [isDigit, Char.isDigit, Char.le_def] using digit

theorem ofDigits_toDigits (number : Nat) :
    ofDigits (Nat.toDigits 10 number) = number := by
  have spelled : Nat.ofDigitChars 10 (Nat.toDigits 10 number) 0 = number :=
    Nat.ofDigitChars_ten_toDigits
  rw [Nat.ofDigitChars_eq_foldl] at spelled
  simpa [ofDigits, Nat.mul_comm] using spelled

/-- The digits of a number up to the bound are read as the number. -/
theorem natural?_toDigits
    {bound number : Nat}
    (within : number ≤ bound) :
    natural? bound (Nat.toDigits 10 number) = some number := by
  have digits : (Nat.toDigits 10 number).all isDigit = true :=
    List.all_eq_true.mpr fun _ member => isDigit_of_mem_toDigits member
  have some : (Nat.toDigits 10 number).isEmpty = false :=
    List.isEmpty_eq_false_iff.mpr Nat.toDigits_ne_nil
  simp [natural?, digits, some, ofDigits_toDigits, within]

end Numeral

namespace Address

theorem ofDigits_concat
    (base : Nat)
    (earlier : List Nat)
    (digit : Nat) :
    ofDigits base (earlier ++ [digit]) = ofDigits base earlier * base + digit := by
  simp [ofDigits]

theorem digit?_digitChar :
    ∀ base ≤ 16, ∀ digit < base, digit? base digit.digitChar = some digit := by
  decide

section

variable
  {base : Nat}
  (atLeast : 2 ≤ base)
  (atMost : base ≤ 16)

include atLeast atMost

/-- The digits of a number have values, and these make up the number. -/
theorem mapM_digit?_toDigits (number : Nat) :
    ∃ values,
      (Nat.toDigits base number).mapM (digit? base) = some values ∧
        ofDigits base values = number := by
  induction number using Nat.strongRecOn with
  | ind number inductionHypothesis =>
      by_cases single : number < base
      · refine ⟨[number], ?_, by simp [ofDigits]⟩
        rw [Nat.toDigits_of_lt_base single]
        simp [digit?_digitChar base atMost number single]
      · have several : base ≤ number :=
          Nat.not_lt.mp single
        have smaller : number / base < number :=
          Nat.div_lt_self (by omega) (by omega)
        obtain ⟨values, valued, spelled⟩ := inductionHypothesis (number / base) smaller
        have lastDigit := digit?_digitChar base atMost (number % base)
          (Nat.mod_lt number (by omega))
        refine ⟨values ++ [number % base], ?_, ?_⟩
        · rw [Nat.toDigits_of_base_le (by omega) several, List.mapM_append]
          simp [valued, lastDigit]
        · rw [ofDigits_concat, spelled, Nat.mul_comm]
          exact Nat.div_add_mod number base

/-- A number is read from its digits where so many are allowed. -/
theorem number?_toDigits
    {longest number : Nat}
    (allowed : 0 < longest)
    (fits : number < base ^ longest) :
    number? base longest (Nat.toDigits base number) = some number := by
  obtain ⟨values, valued, spelled⟩ := mapM_digit?_toDigits atLeast atMost number
  have some : (Nat.toDigits base number).isEmpty = false :=
    List.isEmpty_eq_false_iff.mpr Nat.toDigits_ne_nil
  have short : ¬ longest < (Nat.toDigits base number).length :=
    Nat.not_lt.mpr ((Nat.length_toDigits_le_iff (by omega) allowed).mpr fits)
  simp [number?, some, short, valued, spelled]

end

end Address

end Retrace
