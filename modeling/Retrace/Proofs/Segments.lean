import Retrace.Proofs.Offset
import Retrace.Sender.Acknowledgment
namespace Retrace

/-!
# Segments in exact arithmetic

Segments are enumerated with words and with counts found by division.  This
module says of every enumeration, in natural numbers, which offsets it holds;
no sum wraps around, because every offset listed lies below another one.
-/

namespace Offset

/-- A term of a progression is the exact sum when that sum fits into a word. -/
theorem toNat_progressionTerm
    {start size : Offset}
    {index : Nat}
    (positive : 0 < size.toNat)
    (fits : start.toNat + index * size.toNat < UInt64.size) :
    (start + UInt64.ofNat index * size).toNat =
      start.toNat + index * size.toNat := by
  have indexLe : index ≤ index * size.toNat :=
    Nat.le_mul_of_pos_right index positive
  have productFits : index * size.toNat < UInt64.size := by
    omega
  have indexFits : index < UInt64.size :=
    Nat.lt_of_le_of_lt indexLe productFits
  have wordIndex : (UInt64.ofNat index).toNat = index :=
    UInt64.toNat_ofNat_of_lt indexFits
  rw [UInt64.toNat_add, UInt64.toNat_mul, wordIndex,
    Nat.mod_eq_of_lt productFits]
  exact Nat.mod_eq_of_lt fits

/-- A progression that never wraps around holds exactly its exact terms. -/
theorem mem_progression
    {start size offset : Offset}
    {count : Nat}
    (positive : 0 < size.toNat)
    (fits : ∀ index < count, start.toNat + index * size.toNat < UInt64.size) :
    offset ∈ progression start size count ↔
      ∃ index < count, offset.toNat = start.toNat + index * size.toNat := by
  constructor
  · intro member
    obtain ⟨index, indexMember, rfl⟩ := List.mem_map.mp member
    have indexLt : index < count :=
      List.mem_range.mp indexMember
    exact ⟨index, indexLt,
      toNat_progressionTerm positive (fits index indexLt)⟩
  · rintro ⟨index, indexLt, shape⟩
    refine List.mem_map.mpr ⟨index, List.mem_range.mpr indexLt, ?_⟩
    apply UInt64.toNat_inj.mp
    rw [toNat_progressionTerm positive (fits index indexLt), shape]

/-- A distance begins the segments that lie wholly or partly within it. -/
theorem lt_begun_iff
    {distance size index : Nat}
    (positive : 0 < size) :
    index < (distance + size - 1) / size ↔ index * size < distance := by
  rw [← Nat.succ_le_iff, Nat.le_div_iff_mul_le positive, Nat.succ_mul]
  omega

/-- A distance holds the segments that end within it. -/
theorem lt_complete_iff
    {distance size index : Nat}
    (positive : 0 < size) :
    index < distance / size ↔ index * size + size ≤ distance := by
  rw [← Nat.succ_le_iff, Nat.le_div_iff_mul_le positive, Nat.succ_mul]

/-- The terms counted below an end are those that lie below it. -/
theorem lt_begunBelow_iff
    {start stop size : Offset}
    {index : Nat}
    (positive : 0 < size.toNat) :
    index < (stop.toNat - start.toNat + size.toNat - 1) / size.toNat ↔
      start.toNat + index * size.toNat < stop.toNat := by
  rw [lt_begun_iff positive]
  omega

theorem progressionBelow_fits
    {start stop size : Offset}
    (positive : 0 < size.toNat) :
    ∀ index < (stop.toNat - start.toNat + size.toNat - 1) / size.toNat,
      start.toNat + index * size.toNat < UInt64.size := by
  intro index indexLt
  exact Nat.lt_trans ((lt_begunBelow_iff positive).mp indexLt) stop.toNat_lt

/-- The progression below an end holds the exact terms that lie below it. -/
theorem mem_progressionBelow
    {start stop size offset : Offset}
    (positive : 0 < size.toNat) :
    offset ∈ progressionBelow start stop size ↔
      offset.toNat < stop.toNat ∧
        ∃ index, offset.toNat = start.toNat + index * size.toNat := by
  rw [progressionBelow, mem_progression positive (progressionBelow_fits positive)]
  constructor
  · rintro ⟨index, indexLt, shape⟩
    rw [shape]
    exact ⟨(lt_begunBelow_iff positive).mp indexLt, index, rfl⟩
  · rintro ⟨below, index, shape⟩
    rw [shape] at below
    exact ⟨index, (lt_begunBelow_iff positive).mpr below, shape⟩

/-- A progression that never wraps around ascends. -/
theorem progression_ascending
    {start size : Offset}
    {count : Nat}
    (positive : 0 < size.toNat)
    (fits : ∀ index < count, start.toNat + index * size.toNat < UInt64.size) :
    (progression start size count).Pairwise (· < ·) := by
  rw [progression, List.pairwise_map]
  refine List.Pairwise.imp_of_mem ?_ List.pairwise_lt_range
  intro first second firstMember secondMember less
  rw [UInt64.lt_iff_toNat_lt,
    toNat_progressionTerm positive (fits first (List.mem_range.mp firstMember)),
    toNat_progressionTerm positive (fits second (List.mem_range.mp secondMember))]
  exact Nat.add_lt_add_left (Nat.mul_lt_mul_of_pos_right less positive) _

theorem progressionBelow_zero (start stop : Offset) :
    progressionBelow start stop 0 = [] := by
  simp [progressionBelow, progression]

theorem progressionBelow_ascending (start stop size : Offset) :
    (progressionBelow start stop size).Pairwise (· < ·) := by
  rcases eq_zero_or_toNat_pos size with isZero | positive
  · rw [isZero, progressionBelow_zero]
    exact List.Pairwise.nil
  · exact progression_ascending positive (progressionBelow_fits positive)

end Offset

namespace ByteRange

/-- The whole segments of a range are the exact terms that end within it. -/
theorem mem_wholeSegments
    {size : Offset}
    {range : ByteRange}
    {offset : Offset}
    (positive : 0 < size.toNat) :
    offset ∈ range.wholeSegments size ↔
      offset.toNat + size.toNat ≤ range.stop.toNat ∧
        ∃ index, offset.toNat = range.start.toNat + index * size.toNat := by
  have counted (index : Nat) :
      index < range.length / size.toNat ↔
        range.start.toNat + index * size.toNat + size.toNat ≤
          range.stop.toNat := by
    rw [Offset.lt_complete_iff positive, length]
    omega
  have stopFits : range.stop.toNat < UInt64.size :=
    range.stop.toNat_lt
  rw [wholeSegments, Offset.mem_progression positive]
  · constructor
    · rintro ⟨index, indexLt, shape⟩
      have within := (counted index).mp indexLt
      exact ⟨by omega, index, shape⟩
    · rintro ⟨within, index, shape⟩
      exact ⟨index, (counted index).mpr (by omega), shape⟩
  · intro index indexLt
    have within := (counted index).mp indexLt
    omega

theorem wholeSegments_zero (range : ByteRange) :
    range.wholeSegments 0 = [] := by
  simp [wholeSegments, Offset.progression]

end ByteRange

namespace Sack

theorem mem_coveredSegments
    {ranges : List ByteRange}
    {size offset : Offset} :
    offset ∈ coveredSegments ranges size ↔
      ∃ range ∈ ranges, offset ∈ range.wholeSegments size := by
  rw [coveredSegments, Std.TreeSet.mem_toList, Std.TreeSet.mem_ofList]
  simp

theorem coveredSegments_ascending (ranges : List ByteRange) (size : Offset) :
    (coveredSegments ranges size).Pairwise (· < ·) :=
  Std.TreeSet.ordered_toList.imp Std.compare_eq_lt.mp

/-- A covered segment lies within some range, from its first byte to its last. -/
theorem within_of_mem_coveredSegments
    {ranges : List ByteRange}
    {size offset : Offset}
    (covered : offset ∈ coveredSegments ranges size) :
    ∃ range ∈ ranges,
      range.start ≤ offset ∧
        offset.toNat + size.toNat ≤ range.stop.toNat := by
  obtain ⟨range, rangeMember, whole⟩ := mem_coveredSegments.mp covered
  rcases Offset.eq_zero_or_toNat_pos size with isZero | positive
  · rw [isZero, ByteRange.wholeSegments_zero] at whole
    exact (List.not_mem_nil whole).elim
  · obtain ⟨within, index, shape⟩ :=
      (ByteRange.mem_wholeSegments positive).mp whole
    have startLe : range.start.toNat ≤ offset.toNat := by
      omega
    exact ⟨range, rangeMember, startLe, within⟩

end Sack

namespace SenderState

/-- The step of the walk between two acknowledgment numbers: a segment, and never zero. -/
def walkStep (size : Offset) : Nat :=
  max 1 size.toNat

theorem walkStep_pos (size : Offset) : 0 < walkStep size :=
  Nat.lt_of_lt_of_le Nat.one_pos (Nat.le_max_left _ _)

theorem toNat_max_one (size : Offset) :
    (max 1 size).toNat = walkStep size :=
  Offset.toNat_max 1 size

/--
The walk passes the terms counted from the older number that lie less than one
step above the newer number and below the largest offset.
-/
theorem mem_passedSegments
    {size older newer offset : Offset} :
    offset ∈ passedSegments size older newer ↔
      offset.toNat <
          min (newer.toNat + walkStep size) Offset.last.toNat ∧
        ∃ index,
          offset.toNat = older.toNat + index * walkStep size := by
  have positive : 0 < (max 1 size).toNat := by
    rw [toNat_max_one]
    exact walkStep_pos size
  rw [passedSegments, Offset.mem_progressionBelow positive,
    Offset.toNat_plusCapped, toNat_max_one]

theorem passedSegments_ascending (size older newer : Offset) :
    (passedSegments size older newer).Pairwise (· < ·) :=
  Offset.progressionBelow_ascending _ _ _

/-- Where the walk from one number first lands beyond another. -/
def firstBeyond (size older newer : Offset) : Nat :=
  older.toNat +
    ((newer.toNat - older.toNat) / walkStep size + 1) * walkStep size

/--
The walk lands beyond the newer number at most once: one step after the last
step within, unless that one hits the number or the next leaves the offsets.
-/
theorem mem_passedSegments_beyond
    {size older newer offset : Offset}
    (ordered : older ≤ newer) :
    (offset ∈ passedSegments size older newer ∧ newer < offset) ↔
      ¬ walkStep size ∣ newer.toNat - older.toNat ∧
        offset.toNat = firstBeyond size older newer ∧
        offset < Offset.last := by
  have positive : 0 < walkStep size :=
    walkStep_pos size
  have orderedNat : older.toNat ≤ newer.toNat :=
    ordered
  rw [mem_passedSegments, Nat.lt_min, firstBeyond]
  generalize distanceShape : newer.toNat - older.toNat = distance
  have exceeds : distance < (distance / walkStep size + 1) * walkStep size :=
    (Nat.div_lt_iff_lt_mul positive).mp (Nat.lt_succ_self _)
  constructor
  · rintro ⟨⟨⟨within, belowLast⟩, index, shape⟩, beyond⟩
    have beyondNat : newer.toNat < offset.toNat :=
      beyond
    -- The index lies strictly above the quotient, and its predecessor does not.
    have above : distance < index * walkStep size := by
      omega
    have near : (index - 1) * walkStep size ≤ distance := by
      rw [Nat.sub_mul]
      omega
    have quotientLt : distance / walkStep size < index :=
      (Nat.div_lt_iff_lt_mul positive).mpr above
    have quotientGe : index - 1 ≤ distance / walkStep size :=
      (Nat.le_div_iff_mul_le positive).mpr near
    have isNext : index = distance / walkStep size + 1 := by
      omega
    refine ⟨?_, ?_, belowLast⟩
    · intro divides
      have product : distance / walkStep size * walkStep size = distance :=
        Nat.div_mul_cancel divides
      rw [isNext, Nat.succ_mul, product] at shape
      omega
    · rw [shape, isNext]
  · rintro ⟨misses, shape, belowLast⟩
    have reached : distance / walkStep size * walkStep size ≤ distance :=
      Nat.div_mul_le_self _ _
    have notHit : distance / walkStep size * walkStep size ≠ distance := by
      intro product
      exact misses ((Nat.dvd_iff_div_mul_eq _ _).mpr product)
    have beyond : newer.toNat < offset.toNat := by
      omega
    refine ⟨⟨⟨?_, belowLast⟩, _, shape⟩, beyond⟩
    rw [shape, Nat.succ_mul]
    omega

/-- Every number between the two is in a segment passed, unless the newer is the largest offset. -/
theorem exists_passedSegment
    {size older newer : Offset}
    {number : Nat}
    (belowLast : newer < Offset.last)
    (fromOlder : older.toNat ≤ number)
    (toNewer : number ≤ newer.toNat) :
    ∃ segment ∈ passedSegments size older newer,
      segment.toNat ≤ number ∧
        number < segment.toNat + walkStep size := by
  have positive : 0 < walkStep size :=
    walkStep_pos size
  let index := (number - older.toNat) / walkStep size
  have reached : index * walkStep size ≤ number - older.toNat :=
    Nat.div_mul_le_self _ _
  have missed : number - older.toNat < (index + 1) * walkStep size :=
    (Nat.div_lt_iff_lt_mul positive).mp (Nat.lt_succ_self index)
  rw [Nat.succ_mul] at missed
  have belowLastNat : newer.toNat < Offset.last.toNat :=
    belowLast
  have notAbove : older.toNat + index * walkStep size ≤ newer.toNat := by
    omega
  have fits : older.toNat + index * walkStep size < UInt64.size :=
    Nat.lt_of_le_of_lt notAbove newer.toNat_lt
  have exactly :
      (UInt64.ofNat (older.toNat + index * walkStep size)).toNat =
        older.toNat + index * walkStep size :=
    UInt64.toNat_ofNat_of_lt fits
  refine ⟨UInt64.ofNat (older.toNat + index * walkStep size), ?_, ?_, ?_⟩
  · rw [mem_passedSegments, exactly, Nat.lt_min]
    refine ⟨⟨?_, ?_⟩, index, rfl⟩
    · omega
    · omega
  · rw [exactly]
    omega
  · rw [exactly]
    omega

end SenderState

end Retrace
