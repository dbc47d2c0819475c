import Mathlib.Data.List.Induction
import Retrace.Offset
namespace Retrace.Offset

/-!
# The larger of offsets

Offsets are words, and the larger of two words is the larger number.  `highest`
is the largest of a list, the way a mark is raised from zero by one offset after
the other.
-/

theorem toNat_max (first second : Offset) :
    (max first second).toNat = max first.toNat second.toNat := by
  change (if first ≤ second then second else first).toNat = _
  rw [apply_ite UInt64.toNat]
  simp only [UInt64.le_iff_toNat_le]
  split <;> omega

theorem max_eq_right
    {first second : Offset}
    (above : first ≤ second) :
    max first second = second :=
  if_pos above

theorem max_eq_left
    {first second : Offset}
    (below : second ≤ first) :
    max first second = first := by
  apply UInt64.toNat_inj.mp
  rw [toNat_max]
  exact Nat.max_eq_left below

theorem eq_zero_or_toNat_pos (offset : Offset) :
    offset = 0 ∨ 0 < offset.toNat := by
  rcases Nat.eq_zero_or_pos offset.toNat with isZero | positive
  · exact Or.inl (UInt64.toNat_inj.mp isZero)
  · exact Or.inr positive

/-- The highest of some offsets, zero if there is none. -/
def highest (offsets : List Offset) : Offset :=
  offsets.foldl max 0

@[simp] theorem highest_nil : highest [] = 0 :=
  rfl

@[simp] theorem highest_singleton (offset : Offset) :
    highest [offset] = offset :=
  max_eq_right UInt64.zero_le

@[simp] theorem highest_concat
    (offsets : List Offset)
    (offset : Offset) :
    highest (offsets ++ [offset]) = max (highest offsets) offset := by
  simp [highest]

theorem le_max_left (first second : Offset) : first ≤ max first second := by
  rw [UInt64.le_iff_toNat_le, toNat_max]
  exact Nat.le_max_left _ _

theorem le_max_right (first second : Offset) : second ≤ max first second := by
  rw [UInt64.le_iff_toNat_le, toNat_max]
  exact Nat.le_max_right _ _

theorem max_le_iff {first second bound : Offset} :
    max first second ≤ bound ↔ first ≤ bound ∧ second ≤ bound := by
  simp only [UInt64.le_iff_toNat_le, toNat_max]
  exact Nat.max_le

/-- No offset of a list lies above the highest. -/
theorem le_highest
    {offsets : List Offset}
    {offset : Offset}
    (member : offset ∈ offsets) :
    offset ≤ highest offsets := by
  induction offsets using List.reverseRecOn with
  | nil =>
      exact (List.not_mem_nil member).elim
  | append_singleton earlier latest inductionHypothesis =>
      rw [highest_concat]
      rcases List.mem_append.mp member with isEarlier | isLatest
      · exact UInt64.le_trans (inductionHypothesis isEarlier)
          (le_max_left _ _)
      · rw [List.mem_singleton.mp isLatest]
        exact le_max_right _ _

/-- The highest of some offsets is one of them. -/
theorem highest_mem
    {offsets : List Offset}
    (notNil : offsets ≠ []) :
    highest offsets ∈ offsets := by
  induction offsets using List.reverseRecOn with
  | nil =>
      exact (notNil rfl).elim
  | append_singleton earlier latest inductionHypothesis =>
      rw [highest_concat]
      by_cases above : highest earlier ≤ latest
      · rw [max_eq_right above]
        exact List.mem_append_right _ (List.mem_singleton_self latest)
      · have below : latest < highest earlier :=
          UInt64.not_le.mp above
        have earlierNotNil : earlier ≠ [] := by
          intro isNil
          rw [isNil] at below
          exact UInt64.not_lt_zero below
        rw [max_eq_left (UInt64.le_of_lt below)]
        exact List.mem_append_left _ (inductionHypothesis earlierNotNil)

/-- The highest lies below a limit if all do, and the limit is not zero. -/
theorem highest_lt_iff
    {offsets : List Offset}
    {limit : Offset} :
    highest offsets < limit ↔ 0 < limit ∧ ∀ offset ∈ offsets, offset < limit := by
  constructor
  · intro below
    constructor
    · exact UInt64.lt_of_le_of_lt UInt64.zero_le below
    · intro offset member
      exact UInt64.lt_of_le_of_lt (le_highest member) below
  · rintro ⟨positive, allBelow⟩
    by_cases isNil : offsets = []
    · subst offsets
      exact positive
    · exact allBelow _ (highest_mem isNil)

/-- Further offsets do not lower the highest. -/
theorem highest_le_append (first second : List Offset) :
    highest first ≤ highest (first ++ second) := by
  by_cases isNil : first = []
  · subst first
    exact UInt64.zero_le
  · have among : highest first ∈ first ++ second :=
      List.mem_append_left second (highest_mem isNil)
    exact le_highest among

end Retrace.Offset
