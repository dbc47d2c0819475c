import Mathlib.Data.List.Basic
import Retrace.Proofs.Segments
namespace Retrace

/-!
# Gaps between acknowledged ranges

The ranges that a packet advertises come by ascending start and hold a byte
each, but they may overlap, and one may lie within another.  This module says
which segments are inferred missing from such ranges, that none is inferred
twice, and when a range of the same packet holds a segment inferred missing.
-/

namespace ByteRange

/-- An offset is one of the bytes of a range. -/
def Holds (range : ByteRange) (offset : Offset) : Prop :=
  range.start ≤ offset ∧ offset < range.stop

instance (range : ByteRange) (offset : Offset) : Decidable (range.Holds offset) :=
  inferInstanceAs (Decidable (_ ∧ _))

/-- Ranges by ascending start, each of which holds a byte. -/
structure Ordered (ranges : List ByteRange) : Prop where
  ascending :
    ranges.Pairwise fun earlier later => earlier.start ≤ later.start
  nonempty :
    ∀ range ∈ ranges, range.start < range.stop

namespace Ordered

variable
  {ranges : List ByteRange}
  {first range : ByteRange}

theorem tail
    (ordered : Ordered (first :: ranges)) :
    Ordered ranges where
  ascending := (List.pairwise_cons.mp ordered.ascending).2
  nonempty range member := ordered.nonempty range (List.mem_cons_of_mem _ member)

theorem first_le
    (ordered : Ordered (first :: ranges))
    (member : range ∈ first :: ranges) :
    first.start ≤ range.start := by
  rcases List.mem_cons.mp member with isFirst | inRest
  · rw [isFirst]
    exact UInt64.le_refl _
  · exact (List.pairwise_cons.mp ordered.ascending).1 range inRest

end Ordered

/-! ## The ranges of a packet -/

theorem mem_insertByStart
    {inserted range : ByteRange}
    {ranges : List ByteRange} :
    range ∈ insertByStart inserted ranges ↔ range = inserted ∨ range ∈ ranges := by
  induction ranges with
  | nil =>
      simp [insertByStart]
  | cons next rest inductionHypothesis =>
      rw [insertByStart]
      split
      · rw [List.mem_cons]
      · rw [List.mem_cons, List.mem_cons, inductionHypothesis, or_left_comm]

theorem mem_sortByStart
    {range : ByteRange}
    {ranges : List ByteRange} :
    range ∈ sortByStart ranges ↔ range ∈ ranges := by
  induction ranges with
  | nil =>
      rfl
  | cons first rest inductionHypothesis =>
      rw [sortByStart, List.foldr_cons, mem_insertByStart, ← sortByStart,
        inductionHypothesis, List.mem_cons]

theorem insertByStart_ascending
    {inserted : ByteRange}
    {ranges : List ByteRange}
    (ascending :
      ranges.Pairwise fun earlier later => earlier.start ≤ later.start) :
    (insertByStart inserted ranges).Pairwise
      fun earlier later => earlier.start ≤ later.start := by
  induction ranges with
  | nil =>
      exact List.pairwise_singleton _ _
  | cons next rest inductionHypothesis =>
      obtain ⟨nextFirst, restAscending⟩ := List.pairwise_cons.mp ascending
      rw [insertByStart]
      split
      · next notLater =>
          refine List.pairwise_cons.mpr ⟨?_, ascending⟩
          intro range member
          rcases List.mem_cons.mp member with isNext | inRest
          · rw [isNext]
            exact notLater
          · exact UInt64.le_trans notLater (nextFirst range inRest)
      · next later =>
          refine List.pairwise_cons.mpr
            ⟨?_, inductionHypothesis restAscending⟩
          intro range member
          rcases mem_insertByStart.mp member with isInserted | inRest
          · rw [isInserted]
            exact UInt64.le_of_lt (UInt64.not_le.mp later)
          · exact nextFirst range inRest

theorem sortByStart_ascending (ranges : List ByteRange) :
    (sortByStart ranges).Pairwise
      fun earlier later => earlier.start ≤ later.start := by
  induction ranges with
  | nil =>
      exact List.Pairwise.nil
  | cons first rest inductionHypothesis =>
      exact insertByStart_ascending inductionHypothesis

end ByteRange

theorem Packet.sackRanges_ordered
    {τ : Type}
    (packet : Packet τ) :
    ByteRange.Ordered packet.sackRanges where
  ascending := ByteRange.sortByStart_ascending _
  nonempty range member := by
    have kept := (List.mem_filter.mp (ByteRange.mem_sortByStart.mp member)).2
    simpa [ByteRange.isEmpty, UInt64.not_le] using kept

/-! ## Neighbours -/

namespace ByteRange

/-- Two ranges stand side by side in a list, behind some others. -/
def Neighbours
    (ranges before : List ByteRange)
    (lower upper : ByteRange) :
    Prop :=
  ∃ after, ranges = before ++ lower :: upper :: after

namespace Neighbours

variable
  {ranges before : List ByteRange}
  {first second lower upper range : ByteRange}
  {offset : Offset}

theorem not_nil : ¬ Neighbours [] before lower upper := by
  rintro ⟨after, shape⟩
  exact List.append_ne_nil_of_right_ne_nil _ (List.cons_ne_nil _ _) shape.symm

theorem not_singleton : ¬ Neighbours [first] before lower upper := by
  rintro ⟨after, shape⟩
  have lengths := congrArg List.length shape
  simp only [List.length_append, List.length_cons, List.length_nil] at lengths
  omega

/-- Neighbours are the first two ranges, or neighbours behind the first. -/
theorem cons_cons_iff :
    Neighbours (first :: second :: ranges) before lower upper ↔
      (before = [] ∧ lower = first ∧ upper = second) ∨
        ∃ rest,
          before = first :: rest ∧
            Neighbours (second :: ranges) rest lower upper := by
  constructor
  · rintro ⟨after, shape⟩
    cases before with
    | nil =>
        cases shape
        exact Or.inl ⟨rfl, rfl, rfl⟩
    | cons head rest =>
        rw [List.cons_append, List.cons.injEq] at shape
        obtain ⟨rfl, shape⟩ := shape
        exact Or.inr ⟨rest, rfl, after, shape⟩
  · rintro (⟨rfl, rfl, rfl⟩ | ⟨rest, rfl, after, shape⟩)
    · exact ⟨ranges, rfl⟩
    · exact ⟨after, congrArg (first :: ·) shape⟩

theorem mem_before
    (beside : Neighbours ranges before lower upper)
    (member : range ∈ before) :
    range ∈ ranges := by
  obtain ⟨after, rfl⟩ := beside
  exact List.mem_append_left _ member

theorem lower_mem
    (beside : Neighbours ranges before lower upper) :
    lower ∈ ranges := by
  obtain ⟨after, rfl⟩ := beside
  exact List.mem_append_right _ List.mem_cons_self

theorem start_le_lower
    (ordered : Ordered ranges)
    (beside : Neighbours ranges before lower upper)
    (member : range ∈ before) :
    range.start ≤ lower.start := by
  obtain ⟨after, rfl⟩ := beside
  exact (List.pairwise_append.mp ordered.ascending).2.2 range member lower
    List.mem_cons_self

/-- A range comes before the neighbours, is the lower one, or starts with the upper one or later. -/
theorem cases_of_mem
    (ordered : Ordered ranges)
    (beside : Neighbours ranges before lower upper)
    (member : range ∈ ranges) :
    range ∈ before ∨ range = lower ∨ upper.start ≤ range.start := by
  obtain ⟨after, rfl⟩ := beside
  have behind := (List.pairwise_append.mp ordered.ascending).2.1
  have afterUpper := (List.pairwise_cons.mp (List.pairwise_cons.mp behind).2).1
  rcases List.mem_append.mp member with isBefore | isBehind
  · exact Or.inl isBefore
  · rcases List.mem_cons.mp isBehind with isLower | isAbove
    · exact Or.inr (Or.inl isLower)
    · rcases List.mem_cons.mp isAbove with isUpper | isAfter
      · rw [isUpper]
        exact Or.inr (Or.inr (UInt64.le_refl _))
      · exact Or.inr (Or.inr (afterUpper range isAfter))

/-- Between two neighbours no range holds an offset if those before them end below it. -/
theorem spared_iff
    (ordered : Ordered ranges)
    (beside : Neighbours ranges before lower upper)
    (fromLower : lower.stop ≤ offset)
    (belowUpper : offset < upper.start) :
    (∀ range ∈ ranges, ¬ range.Holds offset) ↔
      ∀ range ∈ before, range.stop ≤ offset := by
  constructor
  · intro spared range isBefore
    have startLt :=
      UInt64.lt_of_le_of_lt (beside.start_le_lower ordered isBefore)
        (ordered.nonempty lower beside.lower_mem)
    have reached :=
      UInt64.le_trans (UInt64.le_of_lt startLt) fromLower
    by_contra within
    exact spared range (beside.mem_before isBefore)
      ⟨reached, UInt64.not_le.mp within⟩
  · rintro ended range member ⟨reached, within⟩
    rcases beside.cases_of_mem ordered member with isBefore | isLower | above
    · exact UInt64.not_lt.mpr (ended range isBefore) within
    · rw [isLower] at within
      exact UInt64.not_lt.mpr fromLower within
    · exact UInt64.not_lt.mpr (UInt64.le_trans above reached) belowUpper

end Neighbours

/-! ## The segments of a gap -/

variable
  {size offset : Offset}
  {lower upper : ByteRange}

theorem between_of_mem_gapSegments
    (member : offset ∈ gapSegments size lower upper) :
    lower.stop ≤ offset ∧ offset < upper.start := by
  rcases Offset.eq_zero_or_toNat_pos size with isZero | positive
  · rw [isZero, gapSegments, Offset.progressionBelow_zero] at member
    exact (List.not_mem_nil member).elim
  · obtain ⟨below, index, shape⟩ :=
      (Offset.mem_progressionBelow positive).mp member
    have reached : lower.stop.toNat ≤ offset.toNat := by
      rw [shape]
      exact Nat.le_add_right _ _
    exact ⟨reached, below⟩

/-- The segments of a gap lie whole segments behind the end of the lower range. -/
theorem mem_gapSegments
    (positive : 0 < size.toNat) :
    offset ∈ gapSegments size lower upper ↔
      lower.stop ≤ offset ∧
        offset < upper.start ∧
        size.toNat ∣ offset.toNat - lower.stop.toNat := by
  constructor
  · intro member
    obtain ⟨reached, below⟩ := between_of_mem_gapSegments member
    obtain ⟨_, index, shape⟩ := (Offset.mem_progressionBelow positive).mp member
    refine ⟨reached, below, index, ?_⟩
    rw [shape, Nat.add_sub_cancel_left, Nat.mul_comm]
  · rintro ⟨reached, below, index, distance⟩
    refine (Offset.mem_progressionBelow positive).mpr ⟨below, index, ?_⟩
    rw [Nat.mul_comm, ← distance]
    exact (Nat.add_sub_of_le reached).symm

/-- A gap begins with its first segment. -/
theorem stop_mem_gapSegments
    (positive : 0 < size.toNat)
    (apart : lower.stop < upper.start) :
    lower.stop ∈ gapSegments size lower upper :=
  (Offset.mem_progressionBelow positive).mpr ⟨apart, 0, by simp⟩

end ByteRange

namespace Sack

variable
  {ranges : List ByteRange}
  {size offset : Offset}

/-- The segments inferred missing are those of the gaps between neighbours. -/
theorem mem_missingSegments :
    offset ∈ missingSegments ranges size ↔
      ∃ before lower upper,
        ByteRange.Neighbours ranges before lower upper ∧
          offset ∈ ByteRange.gapSegments size lower upper := by
  induction ranges with
  | nil =>
      simp [missingSegments, ByteRange.Neighbours.not_nil]
  | cons first rest inductionHypothesis =>
      cases rest with
      | nil =>
          simp [missingSegments, ByteRange.Neighbours.not_singleton]
      | cons second rest =>
          rw [missingSegments, List.mem_append, inductionHypothesis]
          simp only [ByteRange.Neighbours.cons_cons_iff]
          constructor
          · rintro (inFirst | ⟨before, lower, upper, beside, inGap⟩)
            · exact ⟨[], first, second, Or.inl ⟨rfl, rfl, rfl⟩, inFirst⟩
            · exact ⟨first :: before, lower, upper,
                Or.inr ⟨before, rfl, beside⟩, inGap⟩
          · rintro ⟨before, lower, upper,
              ⟨_, rfl, rfl⟩ | ⟨later, _, beside⟩, inGap⟩
            · exact Or.inl inGap
            · exact Or.inr ⟨later, lower, upper, beside, inGap⟩

theorem missingSegments_zero (ranges : List ByteRange) :
    missingSegments ranges 0 = [] := by
  rw [List.eq_nil_iff_forall_not_mem]
  intro offset member
  obtain ⟨before, lower, upper, _, inGap⟩ := mem_missingSegments.mp member
  rw [ByteRange.gapSegments, Offset.progressionBelow_zero] at inGap
  exact List.not_mem_nil inGap

/-- Whatever is inferred missing lies above the start of the first range. -/
theorem lt_of_mem_missingSegments
    {first : ByteRange}
    (ordered : ByteRange.Ordered (first :: ranges))
    (member : offset ∈ missingSegments (first :: ranges) size) :
    first.start < offset := by
  obtain ⟨before, lower, upper, beside, inGap⟩ := mem_missingSegments.mp member
  have lowerLt := ordered.nonempty lower beside.lower_mem
  have reached := (ByteRange.between_of_mem_gapSegments inGap).1
  exact UInt64.lt_of_le_of_lt (ordered.first_le beside.lower_mem)
    (UInt64.lt_of_lt_of_le lowerLt reached)

/-- No segment is inferred missing twice from the same ranges, and they are inferred in order. -/
theorem missingSegments_ascending
    (size : Offset)
    (ordered : ByteRange.Ordered ranges) :
    (missingSegments ranges size).Pairwise (· < ·) := by
  induction ranges with
  | nil =>
      exact List.Pairwise.nil
  | cons first rest inductionHypothesis =>
      cases rest with
      | nil =>
          exact List.Pairwise.nil
      | cons second rest =>
          rw [missingSegments, List.pairwise_append]
          refine ⟨Offset.progressionBelow_ascending _ _ _,
            inductionHypothesis ordered.tail, ?_⟩
          intro earlier inGap later isMissing
          have belowSecond := (ByteRange.between_of_mem_gapSegments inGap).2
          exact UInt64.lt_trans belowSecond
            (lt_of_mem_missingSegments ordered.tail isMissing)

/--
What a packet infers missing is the gaps between its ranges, segment by segment.

The ranges ascend by their starts and hold a byte each, but their ends need not
ascend.  No segment is listed twice all the same: a gap ends at the start of a
range, and what is missing behind that range lies above its start.
-/
theorem missing_segments_exact
    {τ : Type}
    (positive : 0 < size)
    (packet : Packet τ) :
    ByteRange.Ordered packet.sackRanges ∧
      (missingSegments packet.sackRanges size).Pairwise (· < ·) ∧
      ∀ offset,
        offset ∈ missingSegments packet.sackRanges size ↔
          ∃ before lower upper,
            ByteRange.Neighbours packet.sackRanges before lower upper ∧
              lower.stop ≤ offset ∧
              offset < upper.start ∧
              size.toNat ∣ offset.toNat - lower.stop.toNat := by
  have ordered := packet.sackRanges_ordered
  refine ⟨ordered, missingSegments_ascending size ordered, fun offset => ?_⟩
  simp only [mem_missingSegments, ByteRange.mem_gapSegments positive]

/-- Blocks out of order: one within another, an empty one and a reversed one. -/
def nestedBlocksAck : Packet Float :=
  Flow.sample.acknowledgment 0
    (some [(8676, 10122), (1446, 5784), (2892, 4338), (4446, 4446), (3000, 2000)]) 0.0

/-- Behind the nested block the gap begins again below the end of the outer one. -/
theorem nestedBlocksAck_missing_exact :
    0 < (1446 : Offset) ∧
      missingSegments nestedBlocksAck.sackRanges 1446 = [4338, 5784, 7230] ∧
      (missingSegments nestedBlocksAck.sackRanges 1446).Pairwise (· < ·) ∧
      ∀ offset,
        offset ∈ missingSegments nestedBlocksAck.sackRanges 1446 ↔
          ∃ before lower upper,
            ByteRange.Neighbours nestedBlocksAck.sackRanges before lower upper ∧
              lower.stop ≤ offset ∧
              offset < upper.start ∧
              1446 ∣ offset.toNat - lower.stop.toNat := by
  have positive : 0 < (1446 : Offset) := by
    decide
  obtain ⟨_, ascending, exactly⟩ := missing_segments_exact positive nestedBlocksAck
  exact ⟨positive, by decide, ascending, exactly⟩

/--
What holds of a whole gap once it holds where the gap begins, holds of all that
is missing if it holds where the gaps begin.
-/
theorem forall_missing_iff
    {property : Offset → Prop}
    (spreads :
      ∀ {before lower upper offset},
        ByteRange.Neighbours ranges before lower upper →
        lower.stop ≤ offset →
        offset < upper.start →
        property lower.stop →
          property offset) :
    (∀ offset ∈ missingSegments ranges size, property offset) ↔
      size = 0 ∨
        ∀ before lower upper,
          ByteRange.Neighbours ranges before lower upper →
          lower.stop < upper.start →
            property lower.stop := by
  constructor
  · intro all
    rcases Offset.eq_zero_or_toNat_pos size with isZero | positive
    · exact Or.inl isZero
    · right
      intro before lower upper beside apart
      apply all
      exact mem_missingSegments.mpr ⟨before, lower, upper, beside,
        ByteRange.stop_mem_gapSegments positive apart⟩
  · rintro (isZero | atGaps) offset missing
    · rw [isZero, missingSegments_zero] at missing
      exact (List.not_mem_nil missing).elim
    · obtain ⟨before, lower, upper, beside, inGap⟩ :=
        mem_missingSegments.mp missing
      obtain ⟨fromLower, belowUpper⟩ :=
        ByteRange.between_of_mem_gapSegments inGap
      have apart := UInt64.lt_of_le_of_lt fromLower belowUpper
      exact spreads beside fromLower belowUpper
        (atGaps before lower upper beside apart)

/-- Every gap between neighbours begins at a number or above it. -/
def GapsFrom (number : Offset) (ranges : List ByteRange) : Prop :=
  ∀ before lower upper,
    ByteRange.Neighbours ranges before lower upper →
    lower.stop < upper.start →
      number ≤ lower.stop

theorem missing_from_iff {number : Offset} :
    (∀ offset ∈ missingSegments ranges size, number ≤ offset) ↔
      size = 0 ∨ GapsFrom number ranges :=
  forall_missing_iff fun _ fromLower _ fromNumber =>
    UInt64.le_trans fromNumber fromLower

/-! ## Ranges that hold what is inferred missing -/

/-- No range holds a segment that is inferred missing. -/
def SparesRanges (ranges : List ByteRange) (size : Offset) : Prop :=
  ∀ offset ∈ missingSegments ranges size,
    ∀ range ∈ ranges, ¬ range.Holds offset

/-- Where two neighbours leave a gap, every range before them ends below it. -/
def ClearGaps (ranges : List ByteRange) : Prop :=
  ∀ before lower upper,
    ByteRange.Neighbours ranges before lower upper →
    lower.stop < upper.start →
      ∀ range ∈ before, range.stop ≤ lower.stop

theorem clearGaps_iff
    (ordered : ByteRange.Ordered ranges) :
    ClearGaps ranges ↔
      ∀ before lower upper,
        ByteRange.Neighbours ranges before lower upper →
        lower.stop < upper.start →
          ∀ range ∈ ranges, ¬ range.Holds lower.stop := by
  refine forall₅_congr fun before lower upper beside apart => ?_
  exact (beside.spared_iff ordered (UInt64.le_refl _) apart).symm

theorem sparesRanges_iff
    (ordered : ByteRange.Ordered ranges) :
    SparesRanges ranges size ↔ size = 0 ∨ ClearGaps ranges := by
  rw [SparesRanges, clearGaps_iff ordered]
  apply forall_missing_iff
  intro before lower upper offset beside fromLower belowUpper spared
  have apart := UInt64.lt_of_le_of_lt fromLower belowUpper
  have ended :=
    (beside.spared_iff ordered (UInt64.le_refl _) apart).mp spared
  refine (beside.spared_iff ordered fromLower belowUpper).mpr ?_
  intro range isBefore
  exact UInt64.le_trans (ended range isBefore) fromLower

theorem disjoint_of_sparesRanges
    (spares : SparesRanges ranges size) :
    (missingSegments ranges size).Disjoint (coveredSegments ranges size) := by
  intro offset missing covered
  rcases Offset.eq_zero_or_toNat_pos size with isZero | positive
  · rw [isZero, missingSegments_zero] at missing
    exact List.not_mem_nil missing
  · obtain ⟨range, member, reached, within⟩ :=
      within_of_mem_coveredSegments covered
    have below : offset < range.stop := by
      rw [UInt64.lt_iff_toNat_lt]
      omega
    exact spares offset missing range member ⟨reached, below⟩

/--
When what a packet infers missing was received.

Its ranges hold none of it exactly when no range reaches into a gap between two
later ones.  Then the segments that a range covers are not inferred missing.
-/
theorem missing_segments_spare_ranges_iff
    {τ : Type}
    (packet : Packet τ)
    (size : Offset) :
    (SparesRanges packet.sackRanges size ↔
        size = 0 ∨ ClearGaps packet.sackRanges) ∧
      (ClearGaps packet.sackRanges →
        (missingSegments packet.sackRanges size).Disjoint
          (coveredSegments packet.sackRanges size)) := by
  have ordered := packet.sackRanges_ordered
  constructor
  · exact sparesRanges_iff ordered
  · intro clear
    exact disjoint_of_sparesRanges
      ((sparesRanges_iff ordered).mpr (Or.inr clear))

/-- A duplicate acknowledgment that first reports a segment received again. -/
def repeatedBlockAck : Packet Float :=
  Flow.sample.acknowledgment 0 (some [(2892, 4338), (1446, 7230), (8676, 10122)]) 0.0

/-- The block repeated lies within another, and what follows it there is inferred missing. -/
theorem repeatedBlockAck_missing_received :
    ¬ SparesRanges repeatedBlockAck.sackRanges 1446 ∧
      ¬ (missingSegments repeatedBlockAck.sackRanges 1446).Disjoint
          (coveredSegments repeatedBlockAck.sackRanges 1446) := by
  have missing : 4338 ∈ missingSegments repeatedBlockAck.sackRanges 1446 := by
    decide
  constructor
  · intro spares
    exact spares 4338 missing ⟨1446, 7230⟩ (by decide) (by decide)
  · intro disjoint
    apply disjoint missing
    rw [mem_coveredSegments]
    decide

end Sack

end Retrace
