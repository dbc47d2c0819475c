import Mathlib.Data.List.Chain
import Mathlib.Data.List.Nodup
import Mathlib.Data.List.Perm.Subperm
import Mathlib.Data.Nat.ModEq
import Retrace.Proofs.Gaps
namespace Retrace

/-!
# Segments that tile a span

The segments that ranges cover, those missing between them, and the number of
segments that the ranges would fill are worked out in three ways that know
nothing of each other.  On ranges one behind the other whose edges lie whole
segments apart they agree: the first two tile the span from the first edge to
the last, and the third counts the first.  On any ranges the third is a bound.
-/

/-! ## A progression taken up again -/

/-- What lies below an end lies below a term on the way, or is counted on from there. -/
theorem Offset.mem_progressionBelow_split
    {start middle stop size offset : Offset}
    (positive : 0 < size.toNat)
    (fromStart : start ≤ middle)
    (toStop : middle ≤ stop)
    (isTerm : size.toNat ∣ middle.toNat - start.toNat) :
    offset ∈ progressionBelow start stop size ↔
      offset ∈ progressionBelow start middle size ∨
        offset ∈ progressionBelow middle stop size := by
  rw [mem_progressionBelow positive, mem_progressionBelow positive,
    mem_progressionBelow positive]
  rw [UInt64.le_iff_toNat_le] at fromStart toStop
  obtain ⟨count, distance⟩ := isTerm
  have middleShape : middle.toNat = start.toNat + count * size.toNat := by
    rw [Nat.mul_comm count, ← distance]
    omega
  constructor
  · rintro ⟨below, index, shape⟩
    by_cases early : offset.toNat < middle.toNat
    · exact Or.inl ⟨early, index, shape⟩
    · have reached : count ≤ index := by
        rw [middleShape, shape] at early
        exact Nat.le_of_mul_le_mul_right (by omega) positive
      obtain ⟨further, rfl⟩ := Nat.exists_eq_add_of_le reached
      refine Or.inr ⟨below, further, ?_⟩
      rw [shape, middleShape, Nat.add_mul, Nat.add_assoc]
  · rintro (⟨early, index, shape⟩ | ⟨below, further, shape⟩)
    · exact ⟨Nat.lt_of_lt_of_le early toStop, index, shape⟩
    · refine ⟨below, count + further, ?_⟩
      rw [shape, middleShape, Nat.add_mul, Nat.add_assoc]

namespace ByteRange

/-! ## Aligned ranges -/

/-- Ranges that hold a byte each, one behind the other, their edges whole segments apart. -/
structure Aligned (size : Offset) (ranges : List ByteRange) : Prop where
  nonempty :
    ∀ range ∈ ranges, range.start < range.stop
  behind :
    ranges.IsChain fun lower upper => lower.stop ≤ upper.start
  edges :
    ∃ phase, ∀ range ∈ ranges,
      range.start.toNat % size.toNat = phase ∧ range.stop.toNat % size.toNat = phase

namespace Aligned

variable
  {size : Offset}
  {ranges : List ByteRange}
  {first second range : ByteRange}

theorem tail
    (aligned : Aligned size (first :: ranges)) :
    Aligned size ranges where
  nonempty range member := aligned.nonempty range (List.mem_cons_of_mem _ member)
  behind := aligned.behind.tail
  edges := by
    obtain ⟨phase, each⟩ := aligned.edges
    exact ⟨phase, fun range member => each range (List.mem_cons_of_mem _ member)⟩

/-- Not only neighbours stand one behind the other. -/
theorem apart
    (aligned : Aligned size ranges) :
    ranges.Pairwise fun lower upper => lower.stop ≤ upper.start := by
  induction ranges with
  | nil =>
      exact List.Pairwise.nil
  | cons first rest inductionHypothesis =>
      have others := inductionHypothesis aligned.tail
      refine List.pairwise_cons.mpr ⟨?_, others⟩
      intro range member
      cases rest with
      | nil =>
          exact (List.not_mem_nil member).elim
      | cons second rest =>
          have beside := (List.isChain_cons_cons.mp aligned.behind).1
          rcases List.mem_cons.mp member with isSecond | isLater
          · rw [isSecond]
            exact beside
          · have secondLt :=
              aligned.nonempty second (List.mem_cons_of_mem _ List.mem_cons_self)
            have later := (List.pairwise_cons.mp others).1 range isLater
            exact UInt64.le_trans beside
              (UInt64.le_trans (UInt64.le_of_lt secondLt) later)

theorem ordered
    (aligned : Aligned size ranges) :
    Ordered ranges where
  ascending :=
    aligned.apart.imp_of_mem fun lowerMember _ apart =>
      UInt64.le_trans (UInt64.le_of_lt (aligned.nonempty _ lowerMember)) apart
  nonempty := aligned.nonempty

/-- No range reaches into a gap, because each ends before the later ones begin. -/
theorem clearGaps
    (aligned : Aligned size ranges) :
    Sack.ClearGaps ranges := by
  intro before lower upper beside _ range isBefore
  have lowerLt := aligned.nonempty lower beside.lower_mem
  obtain ⟨after, rfl⟩ := beside
  have apart :=
    (List.pairwise_append.mp aligned.apart).2.2 range isBefore lower List.mem_cons_self
  exact UInt64.le_trans apart (UInt64.le_of_lt lowerLt)

theorem dvd_length
    (aligned : Aligned size ranges)
    (member : range ∈ ranges) :
    size.toNat ∣ range.length := by
  obtain ⟨phase, each⟩ := aligned.edges
  obtain ⟨startPhase, stopPhase⟩ := each range member
  exact Nat.dvd_of_mod_eq_zero
    (Nat.sub_mod_eq_zero_of_mod_eq (stopPhase.trans startPhase.symm))

theorem dvd_gap
    (aligned : Aligned size (first :: second :: ranges)) :
    size.toNat ∣ second.start.toNat - first.stop.toNat := by
  obtain ⟨phase, each⟩ := aligned.edges
  obtain ⟨_, stopPhase⟩ := each first List.mem_cons_self
  obtain ⟨startPhase, _⟩ := each second (List.mem_cons_of_mem _ List.mem_cons_self)
  exact Nat.dvd_of_mod_eq_zero
    (Nat.sub_mod_eq_zero_of_mod_eq (startPhase.trans stopPhase.symm))

end Aligned

/-- A range of whole segments covers every segment begun in it. -/
theorem mem_wholeSegments_of_dvd
    {size offset : Offset}
    {range : ByteRange}
    (positive : 0 < size.toNat)
    (isWhole : size.toNat ∣ range.length) :
    offset ∈ range.wholeSegments size ↔
      offset ∈ Offset.progressionBelow range.start range.stop size := by
  rw [mem_wholeSegments positive, Offset.mem_progressionBelow positive]
  constructor
  · rintro ⟨within, index, shape⟩
    exact ⟨by omega, index, shape⟩
  · rintro ⟨below, index, shape⟩
    refine ⟨?_, index, shape⟩
    obtain ⟨count, length⟩ := isWhole
    rw [ByteRange.length, Nat.mul_comm] at length
    have stopShape : range.stop.toNat = range.start.toNat + count * size.toNat := by
      omega
    rw [shape, stopShape] at below
    have indexLt : index < count :=
      Nat.lt_of_mul_lt_mul_right (Nat.lt_of_add_lt_add_left below)
    have next : (index + 1) * size.toNat ≤ count * size.toNat :=
      Nat.mul_le_mul_right _ indexLt
    rw [Nat.succ_mul] at next
    omega

theorem nodup_wholeSegments
    (size : Offset)
    (range : ByteRange) :
    (range.wholeSegments size).Nodup := by
  rcases Offset.eq_zero_or_toNat_pos size with isZero | positive
  · rw [isZero, wholeSegments_zero]
    exact List.nodup_nil
  · have ascending : (range.wholeSegments size).Pairwise (· < ·) := by
      apply Offset.progression_ascending positive
      intro index indexLt
      have within := (Offset.lt_complete_iff positive).mp indexLt
      have stopFits := range.stop.toNat_lt
      rw [length] at within
      change _ < 2 ^ 64
      omega
    exact ascending.imp UInt64.ne_of_lt

end ByteRange

namespace Sack

variable
  {ranges : List ByteRange}
  {size : Offset}

/-! ## Tiles -/

/-- Segments covered and segments missing are those begun in the span, counted from its start. -/
theorem mem_covered_or_missing
    {offset : Offset}
    (positive : 0 < size.toNat)
    (notNil : ranges ≠ [])
    (aligned : ByteRange.Aligned size ranges) :
    offset ∈ coveredSegments ranges size ∨ offset ∈ missingSegments ranges size ↔
      offset ∈
        Offset.progressionBelow (ranges.head notNil).start (ranges.getLast notNil).stop
          size := by
  rw [mem_coveredSegments]
  induction ranges with
  | nil =>
      exact (notNil rfl).elim
  | cons first rest inductionHypothesis =>
      have firstWhole :=
        @ByteRange.mem_wholeSegments_of_dvd size offset first positive
          (aligned.dvd_length List.mem_cons_self)
      cases rest with
      | nil =>
          simpa [missingSegments] using firstWhole
      | cons second rest =>
          have others := inductionHypothesis (List.cons_ne_nil _ _) aligned.tail
          rw [List.head_cons] at others
          have lastMember := List.getLast_mem (List.cons_ne_nil second rest)
          have firstLt := aligned.nonempty first List.mem_cons_self
          have lastLt := aligned.tail.nonempty _ lastMember
          have beside := (List.isChain_cons_cons.mp aligned.behind).1
          have toLast :
              second.start ≤
                ((second :: rest).getLast (List.cons_ne_nil _ _)).stop :=
            UInt64.le_trans (aligned.tail.ordered.first_le lastMember)
              (UInt64.le_of_lt lastLt)
          -- The span is the first range, the gap behind it, and the span of the others.
          rw [List.head_cons, List.getLast_cons (List.cons_ne_nil _ _),
            Offset.mem_progressionBelow_split positive (UInt64.le_of_lt firstLt)
              (UInt64.le_trans beside toLast) (aligned.dvd_length List.mem_cons_self),
            Offset.mem_progressionBelow_split positive beside toLast aligned.dvd_gap,
            ← firstWhole, ← ByteRange.gapSegments, ← others, missingSegments,
            List.mem_append, List.exists_mem_cons_iff, or_assoc]
          exact or_congr_right or_left_comm

/-! ## Counts -/

theorem length_flatMap_wholeSegments (ranges : List ByteRange) (size : Offset) :
    (ranges.flatMap (ByteRange.wholeSegments size)).length =
      (ranges.map fun range => range.length / size.toNat).sum := by
  simp [List.length_flatMap, ByteRange.wholeSegments, Offset.progression]

theorem sum_div_le_segmentCount (ranges : List ByteRange) (size : Offset) :
    (ranges.map fun range => range.length / size.toNat).sum ≤ segmentCount ranges size := by
  rw [segmentCount]
  induction ranges with
  | nil =>
      exact Nat.zero_le _
  | cons first rest inductionHypothesis =>
      rw [List.map_cons, List.sum_cons]
      exact Nat.le_trans (Nat.add_le_add_left inductionHypothesis _)
        Nat.div_add_div_le_add_div

/-- Nothing is lost by dividing the lengths one by one if they are whole segments. -/
theorem sum_div_eq_segmentCount
    (whole : ∀ range ∈ ranges, size.toNat ∣ range.length) :
    (ranges.map fun range => range.length / size.toNat).sum = segmentCount ranges size := by
  rw [segmentCount]
  induction ranges with
  | nil =>
      exact (Nat.zero_div _).symm
  | cons first rest inductionHypothesis =>
      obtain ⟨firstWhole, othersWhole⟩ := List.forall_mem_cons.mp whole
      rw [List.map_cons, List.sum_cons, inductionHypothesis othersWhole]
      exact (Nat.add_div_of_dvd_right firstWhole).symm

theorem nodup_coveredSegments (ranges : List ByteRange) (size : Offset) :
    (coveredSegments ranges size).Nodup :=
  (coveredSegments_ascending ranges size).imp UInt64.ne_of_lt

/-- However ranges lie, laid end to end they fill no fewer segments than they cover. -/
theorem length_coveredSegments_le (ranges : List ByteRange) (size : Offset) :
    (coveredSegments ranges size).length ≤ segmentCount ranges size := by
  have among :
      coveredSegments ranges size ⊆ ranges.flatMap (ByteRange.wholeSegments size) :=
    fun _ covered => List.mem_flatMap.mpr (mem_coveredSegments.mp covered)
  have atMost :=
    (List.subperm_of_subset (nodup_coveredSegments ranges size) among).length_le
  rw [length_flatMap_wholeSegments] at atMost
  exact Nat.le_trans atMost (sum_div_le_segmentCount ranges size)

/-- Ranges one behind the other have no whole segment in common. -/
theorem nodup_flatMap_wholeSegments
    (aligned : ByteRange.Aligned size ranges) :
    (ranges.flatMap (ByteRange.wholeSegments size)).Nodup := by
  refine List.nodup_flatMap.mpr
    ⟨fun range _ => range.nodup_wholeSegments size, aligned.apart.imp ?_⟩
  intro lower upper apart offset inLower inUpper
  rcases Offset.eq_zero_or_toNat_pos size with isZero | positive
  · rw [isZero, ByteRange.wholeSegments_zero] at inLower
    exact List.not_mem_nil inLower
  · obtain ⟨within, _⟩ := (ByteRange.mem_wholeSegments positive).mp inLower
    obtain ⟨_, index, shape⟩ := (ByteRange.mem_wholeSegments positive).mp inUpper
    rw [UInt64.le_iff_toNat_le] at apart
    omega

theorem length_coveredSegments
    (aligned : ByteRange.Aligned size ranges) :
    (coveredSegments ranges size).length = segmentCount ranges size := by
  have same :
      (coveredSegments ranges size).Perm
        (ranges.flatMap (ByteRange.wholeSegments size)) := by
    apply (List.perm_ext_iff_of_nodup (nodup_coveredSegments ranges size)
      (nodup_flatMap_wholeSegments aligned)).mpr
    intro offset
    rw [mem_coveredSegments, List.mem_flatMap]
  rw [same.length_eq, length_flatMap_wholeSegments]
  exact sum_div_eq_segmentCount fun _ member => aligned.dvd_length member

/--
Covered and missing segments tile what aligned ranges span.

They share no segment, and together they are the segments counted from the first
edge that begin before the last edge; the covered ones are as many as the
lengths of the ranges make up.  Ranges that are not aligned cover no more than
that.
-/
theorem segments_tile_span
    (positive : 0 < size.toNat) :
    (∀ (ranges : List ByteRange) (notNil : ranges ≠ []),
      ByteRange.Aligned size ranges →
        (coveredSegments ranges size).Disjoint (missingSegments ranges size) ∧
        (∀ offset,
          offset ∈ coveredSegments ranges size ∨ offset ∈ missingSegments ranges size ↔
            offset < (ranges.getLast notNil).stop ∧
              ∃ index,
                offset.toNat = (ranges.head notNil).start.toNat + index * size.toNat) ∧
        segmentCount ranges size = (coveredSegments ranges size).length) ∧
      ∀ ranges : List ByteRange,
        (coveredSegments ranges size).length ≤ segmentCount ranges size := by
  constructor
  · intro ranges notNil aligned
    refine ⟨?_, ?_, (length_coveredSegments aligned).symm⟩
    · apply List.disjoint_symm
      apply disjoint_of_sparesRanges
      exact (sparesRanges_iff aligned.ordered).mpr (Or.inr aligned.clearGaps)
    · intro offset
      rw [mem_covered_or_missing positive notNil aligned]
      exact Offset.mem_progressionBelow positive
  · exact fun ranges => length_coveredSegments_le ranges size

/-- Two segments, a gap of two, one segment and one right behind it, counted from an odd start. -/
def spacedRanges : List ByteRange :=
  [⟨1, 2893⟩, ⟨5785, 7231⟩, ⟨7231, 8677⟩]

theorem spacedRanges_tiled :
    ByteRange.Aligned 1446 spacedRanges ∧
      (coveredSegments spacedRanges 1446).Disjoint (missingSegments spacedRanges 1446) ∧
      (∀ offset,
        offset ∈ coveredSegments spacedRanges 1446 ∨
            offset ∈ missingSegments spacedRanges 1446 ↔
          offset < 8677 ∧ ∃ index, offset.toNat = 1 + index * 1446) ∧
      segmentCount spacedRanges 1446 = 4 ∧
      (coveredSegments [⟨0, 2000⟩, ⟨1000, 3000⟩] 1446).length ≤ 2 := by
  have aligned : ByteRange.Aligned 1446 spacedRanges := by
    constructor
    case nonempty => decide
    case behind => decide
    case edges => exact ⟨1, by decide⟩
  obtain ⟨tiled, bounded⟩ := @segments_tile_span 1446 (by decide)
  obtain ⟨apart, together, count⟩ := tiled spacedRanges (List.cons_ne_nil _ _) aligned
  exact ⟨aligned, apart, together, rfl, bounded [⟨0, 2000⟩, ⟨1000, 3000⟩]⟩

end Sack

end Retrace
