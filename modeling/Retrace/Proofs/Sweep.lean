import Mathlib.Data.List.Destutter
import Mathlib.Data.List.Sort
import Retrace.Proofs.Segments
namespace Retrace

/-!
# Sweeps over offsets

Segments can be enumerated without counting them first: visit an offset, go on
to the next one, and stop at a limit.  The sums such a sweep forms are of words,
so a sweep might leave the offsets, or stay on one of them forever.  This module
says what it is for a sweep to come to its end, follows a sweep by capped steps,
and follows the sweeps over ranges: they list what the ranges cover, unless a
range ends at the largest offset.
-/

namespace Offset

/-- The sum of an offset and a length, unless that lies above the largest offset. -/
def plus? (offset length : Offset) : Option Offset :=
  if offset.toNat + length.toNat ≤ last.toNat then
    some (offset + length)
  else
    none

theorem le_last (offset : Offset) : offset ≤ last :=
  UInt64.le_iff_toNat_le.mpr (Nat.le_pred_of_lt offset.toNat_lt)

/-- A sum of words is exact unless it lies above the largest offset. -/
theorem toNat_add_of_le
    {offset length : Offset}
    (fits : offset.toNat + length.toNat ≤ last.toNat) :
    (offset + length).toNat = offset.toNat + length.toNat := by
  rw [UInt64.toNat_add]
  exact Nat.mod_eq_of_lt (Nat.lt_of_le_of_lt fits last.toNat_lt)

/-- A sum that fits is not capped. -/
theorem plusCapped_eq_add
    {offset length : Offset}
    (fits : offset.toNat + length.toNat ≤ last.toNat) :
    offset.plusCapped length = offset + length := by
  apply UInt64.toNat_inj.mp
  rw [toNat_plusCapped, toNat_add_of_le fits]
  exact Nat.min_eq_left fits

/-- A way to go over offsets: how far, and from each of them where to. -/
structure Sweep where
  goesOn : Offset → Bool
  /-- The offset behind one visited, if there is one. -/
  next? : Offset → Option Offset

namespace Sweep

/--
A sweep begins at an offset, visits one offset after the other, and stops.

A sweep that goes on where there is no next offset does not get that far, nor
does one that goes on forever.
-/
inductive Runs
    {σ : Type}
    (sweep : Sweep)
    (visit : σ → Offset → σ) :
    Offset → σ → σ → Prop
  | stops
      {offset : Offset}
      {gathered : σ}
      (halts : sweep.goesOn offset = false) :
      Runs sweep visit offset gathered gathered
  | visits
      {offset following : Offset}
      {gathered result : σ}
      (passes : sweep.goesOn offset = true)
      (leads : sweep.next? offset = some following)
      (onward : Runs sweep visit following (visit gathered offset) result) :
      Runs sweep visit offset gathered result

variable
  {σ : Type}
  {sweep : Sweep}
  {visit : σ → Offset → σ}
  {offset : Offset}
  {gathered result : σ}

/-- A sweep leaves nothing open: two runs from the same beginning have the same end. -/
theorem Runs.unique
    {other : σ}
    (runs : sweep.Runs visit offset gathered result)
    (runsOther : sweep.Runs visit offset gathered other) :
    result = other := by
  induction runs with
  | stops halts =>
      cases runsOther with
      | stops => rfl
      | visits passes => exact Bool.noConfusion (halts.symm.trans passes)
  | visits passes leads onward inductionHypothesis =>
      cases runsOther with
      | stops halts => exact Bool.noConfusion (halts.symm.trans passes)
      | visits _ leadsOther onwardOther =>
          cases leads.symm.trans leadsOther
          exact inductionHypothesis onwardOther

/-- Once one run of a sweep is known, it is known what comes of the sweep. -/
theorem Runs.iff_eq
    {other : σ}
    (runs : sweep.Runs visit offset gathered result) :
    sweep.Runs visit offset gathered other ↔ other = result := by
  constructor
  · exact fun runsOther => runsOther.unique runs
  · rintro rfl
    exact runs

/-- A sweep that stops does not go on everywhere. -/
theorem Runs.exists_halt
    (runs : sweep.Runs visit offset gathered result) :
    ∃ offset, sweep.goesOn offset = false := by
  induction runs with
  | stops halts =>
      exact ⟨_, halts⟩
  | visits passes leads onward inductionHypothesis =>
      exact inductionHypothesis

/--
A sweep visits what is listed from its offsets on, if every turn takes the first
of a list and lowers a distance.
-/
theorem runs_of_turns
    (listed : Offset → List Offset)
    (distance : Offset → Nat)
    (stops : ∀ offset, sweep.goesOn offset = false → listed offset = [])
    (turns :
      ∀ offset, sweep.goesOn offset = true →
        ∃ following,
          sweep.next? offset = some following ∧
            listed offset = offset :: listed following ∧
            distance following < distance offset)
    (visit : σ → Offset → σ)
    (offset : Offset)
    (gathered : σ) :
    sweep.Runs visit offset gathered ((listed offset).foldl visit gathered) := by
  induction left : distance offset
    using Nat.strong_induction_on generalizing offset gathered with
  | h left inductionHypothesis =>
      cases passes : sweep.goesOn offset with
      | false =>
          rw [stops offset passes]
          exact .stops passes
      | true =>
          obtain ⟨following, leads, shape, nearer⟩ := turns offset passes
          rw [shape]
          exact .visits passes leads (inductionHypothesis _ (left ▸ nearer) _ _ rfl)

/-- Add an offset visited to those visited before. -/
def takeDown (visited : List Offset) (offset : Offset) : List Offset :=
  visited ++ [offset]

@[simp] theorem foldl_takeDown (gathered visited : List Offset) :
    visited.foldl takeDown gathered = gathered ++ visited := by
  unfold takeDown
  rw [List.foldl_append_eq_append, ← List.flatMap_def, List.flatMap_singleton']

end Sweep

/-! ## The first term of a progression -/

variable {start stop size : Offset}

theorem progression_succ (start size : Offset) (count : Nat) :
    progression start size (count + 1) = start :: progression (start + size) size count := by
  rw [progression, progression, List.range_succ_eq_map, List.map_cons, List.map_map]
  congr 1
  · simp
  · refine List.map_congr_left fun index _ => ?_
    have nextIndex : UInt64.ofNat index.succ = UInt64.ofNat index + 1 :=
      UInt64.ofNat_add index 1
    rw [Function.comp_apply, nextIndex]
    grind

/-- A start below the bound comes first, and then the progression from the next offset on. -/
theorem progressionBelow_eq_cons
    (positive : 0 < size.toNat)
    (below : start < stop) :
    progressionBelow start stop size =
      start :: progressionBelow (start.plusCapped size) stop size := by
  rw [UInt64.lt_iff_toNat_lt] at below
  have shorter :
      stop.toNat - start.toNat + size.toNat - 1 =
        stop.toNat - start.toNat - 1 + size.toNat := by
    omega
  have stopLe : stop.toNat ≤ last.toNat :=
    le_last stop
  rw [progressionBelow, progressionBelow, shorter, Nat.add_div_right _ positive,
    progression_succ, toNat_plusCapped]
  congr 1
  -- Either the next offset lies below the bound too, or nothing follows the start.
  by_cases further : start.toNat + size.toNat < stop.toNat
  · have fits : start.toNat + size.toNat ≤ last.toNat :=
      Nat.le_trans (Nat.le_of_lt further) stopLe
    have sameCount :
        stop.toNat - min (start.toNat + size.toNat) last.toNat + size.toNat - 1 =
          stop.toNat - start.toNat - 1 := by
      omega
    rw [plusCapped_eq_add fits, sameCount]
  · have isOnly : (stop.toNat - start.toNat - 1) / size.toNat = 0 :=
      Nat.div_eq_of_lt (by omega)
    have noneBehind :
        (stop.toNat - min (start.toNat + size.toNat) last.toNat + size.toNat - 1) /
            size.toNat = 0 :=
      Nat.div_eq_of_lt (by omega)
    rw [isOnly, noneBehind]
    rfl

theorem progressionBelow_eq_nil
    (positive : 0 < size.toNat)
    (reached : stop ≤ start) :
    progressionBelow start stop size = [] := by
  rw [UInt64.le_iff_toNat_le] at reached
  have isEmpty : (stop.toNat - start.toNat + size.toNat - 1) / size.toNat = 0 :=
    Nat.div_eq_of_lt (by omega)
  rw [progressionBelow, isEmpty]
  rfl

/-- Go over the offsets below a bound by capped steps. -/
def cappedSweep (size stop : Offset) : Sweep where
  goesOn offset := offset < stop
  next? offset := some (offset.plusCapped size)

/--
A sweep by capped steps visits the progression below its bound.

A step either grows or stays on the largest offset, which lies below no bound;
so every visit brings the bound nearer.
-/
theorem cappedSweep_runs
    {σ : Type}
    (positive : 0 < size.toNat)
    (start stop : Offset)
    (visit : σ → Offset → σ)
    (gathered : σ) :
    (cappedSweep size stop).Runs visit start gathered
      ((progressionBelow start stop size).foldl visit gathered) := by
  refine Sweep.runs_of_turns (fun offset => progressionBelow offset stop size)
    (fun offset => stop.toNat - offset.toNat) ?_ ?_ visit start gathered
  · intro offset halts
    have reached : stop ≤ offset :=
      UInt64.not_lt.mp (of_decide_eq_false halts)
    exact progressionBelow_eq_nil positive reached
  · intro offset passes
    have below : offset < stop :=
      of_decide_eq_true passes
    refine ⟨offset.plusCapped size, rfl, progressionBelow_eq_cons positive below, ?_⟩
    have stopLe : stop.toNat ≤ last.toNat :=
      le_last stop
    rw [UInt64.lt_iff_toNat_lt] at below
    rw [toNat_plusCapped]
    omega

end Offset

namespace ByteRange

/-! ## The sweep over a range -/

variable
  {size : Offset}
  {range : ByteRange}
  {ranges : List ByteRange}

/-- Go over a range segment by segment, as long as the whole of the next one lies in it. -/
def wholeSweep (size stop : Offset) : Offset.Sweep where
  goesOn offset := offset.plusCapped size ≤ stop
  next? offset := offset.plus? size

theorem wholeSweep_goesOn_iff
    {stop offset : Offset}
    (belowLast : stop < Offset.last) :
    (wholeSweep size stop).goesOn offset = true ↔
      offset.toNat + size.toNat ≤ stop.toNat := by
  rw [UInt64.lt_iff_toNat_lt] at belowLast
  rw [wholeSweep, decide_eq_true_iff, UInt64.le_iff_toNat_le, Offset.toNat_plusCapped]
  omega

/-- The capped sum never lies above the largest offset. -/
theorem wholeSweep_goesOn_last (size offset : Offset) :
    (wholeSweep size Offset.last).goesOn offset = true := by
  rw [wholeSweep, decide_eq_true_iff, UInt64.le_iff_toNat_le, Offset.toNat_plusCapped]
  exact Nat.min_le_right _ _

/-- A range with room for a segment has one at its start, and then those of what is left of it. -/
theorem wholeSegments_eq_cons
    {start stop : Offset}
    (positive : 0 < size.toNat)
    (within : start.toNat + size.toNat ≤ stop.toNat) :
    wholeSegments size ⟨start, stop⟩ =
      start :: wholeSegments size ⟨start + size, stop⟩ := by
  have sum : (start + size).toNat = start.toNat + size.toNat :=
    Offset.toNat_add_of_le (Nat.le_trans within (Offset.le_last stop))
  have shorter :
      stop.toNat - start.toNat =
        stop.toNat - (start.toNat + size.toNat) + size.toNat := by
    omega
  rw [wholeSegments, wholeSegments, length, length, sum, shorter,
    Nat.add_div_right _ positive, Offset.progression_succ]

theorem wholeSegments_eq_nil
    {start stop : Offset}
    (positive : 0 < size.toNat)
    (outside : stop.toNat < start.toNat + size.toNat) :
    wholeSegments size ⟨start, stop⟩ = [] := by
  have tooShort : (stop.toNat - start.toNat) / size.toNat = 0 :=
    Nat.div_eq_of_lt (by omega)
  rw [wholeSegments, length, tooShort]
  rfl

/--
Below the largest offset the sweep over a range visits its whole segments.

No sum leaves the offsets, because a segment that is visited ends within the
range; and with every visit less of the range is left.
-/
theorem wholeSweep_runs
    {σ : Type}
    {stop : Offset}
    (positive : 0 < size.toNat)
    (belowLast : stop < Offset.last)
    (start : Offset)
    (visit : σ → Offset → σ)
    (gathered : σ) :
    (wholeSweep size stop).Runs visit start gathered
      ((wholeSegments size ⟨start, stop⟩).foldl visit gathered) := by
  refine Offset.Sweep.runs_of_turns (fun offset => wholeSegments size ⟨offset, stop⟩)
    (fun offset => stop.toNat - offset.toNat) ?_ ?_ visit start gathered
  · intro offset halts
    have outside : ¬ offset.toNat + size.toNat ≤ stop.toNat := by
      rw [← wholeSweep_goesOn_iff belowLast, halts]
      exact Bool.false_ne_true
    exact wholeSegments_eq_nil positive (Nat.not_le.mp outside)
  · intro offset passes
    have within : offset.toNat + size.toNat ≤ stop.toNat :=
      (wholeSweep_goesOn_iff belowLast).mp passes
    have fits : offset.toNat + size.toNat ≤ Offset.last.toNat :=
      Nat.le_trans within (Nat.le_of_lt belowLast)
    refine ⟨offset + size, if_pos fits, wholeSegments_eq_cons positive within, ?_⟩
    rw [Offset.toNat_add_of_le fits]
    omega

/-- A range's sweep takes down its whole segments, and never ends at the largest offset. -/
theorem wholeSweep_takeDown_iff
    {gathered result : List Offset}
    (positive : 0 < size.toNat) :
    (wholeSweep size range.stop).Runs Offset.Sweep.takeDown range.start gathered result ↔
      range.stop < Offset.last ∧ result = gathered ++ range.wholeSegments size := by
  by_cases belowLast : range.stop < Offset.last
  · have runs :=
      wholeSweep_runs positive belowLast range.start Offset.Sweep.takeDown gathered
    rw [Offset.Sweep.foldl_takeDown] at runs
    rw [runs.iff_eq, and_iff_right belowLast]
  · have isLast : range.stop = Offset.last :=
      UInt64.le_antisymm (Offset.le_last _) (UInt64.not_lt.mp belowLast)
    refine iff_of_false (fun runs => ?_) fun both => belowLast both.1
    obtain ⟨offset, halts⟩ := runs.exists_halt
    rw [isLast, wholeSweep_goesOn_last] at halts
    exact Bool.noConfusion halts

/-- Ranges are swept one after the other, and their whole segments taken down. -/
inductive Gathers (size : Offset) : List ByteRange → List Offset → List Offset → Prop
  | done
      {gathered : List Offset} :
      Gathers size [] gathered gathered
  | sweeps
      {range : ByteRange}
      {rest : List ByteRange}
      {gathered further result : List Offset}
      (swept :
        (wholeSweep size range.stop).Runs Offset.Sweep.takeDown range.start gathered further)
      (onward : Gathers size rest further result) :
      Gathers size (range :: rest) gathered result

theorem gathers_iff
    {gathered result : List Offset}
    (positive : 0 < size.toNat) :
    Gathers size ranges gathered result ↔
      (∀ range ∈ ranges, range.stop < Offset.last) ∧
        result = gathered ++ ranges.flatMap (wholeSegments size) := by
  induction ranges generalizing gathered with
  | nil =>
      rw [List.flatMap_nil, List.append_nil]
      constructor
      · intro gathers
        cases gathers with
        | done => exact ⟨List.forall_mem_nil _, rfl⟩
      · rintro ⟨_, rfl⟩
        exact .done
  | cons first rest inductionHypothesis =>
      rw [List.forall_mem_cons, List.flatMap_cons, ← List.append_assoc]
      constructor
      · intro gathers
        cases gathers with
        | sweeps swept onward =>
            obtain ⟨belowLast, rfl⟩ := (wholeSweep_takeDown_iff positive).mp swept
            obtain ⟨othersBelow, isListed⟩ := inductionHypothesis.mp onward
            exact ⟨⟨belowLast, othersBelow⟩, isListed⟩
      · rintro ⟨⟨belowLast, othersBelow⟩, isListed⟩
        exact .sweeps ((wholeSweep_takeDown_iff positive).mpr ⟨belowLast, rfl⟩)
          (inductionHypothesis.mpr ⟨othersBelow, isListed⟩)

end ByteRange

namespace Sack

variable
  {ranges : List ByteRange}
  {size : Offset}

/-! ## What is covered, gathered by sweeps -/

/-- Offsets in ascending order, those equal to the one before left out. -/
def sortedOnce (offsets : List Offset) : List Offset :=
  (offsets.mergeSort fun first second => first ≤ second).destutter (· ≠ ·)

/-- Once offsets are in order, leaving out equal neighbours leaves out all repetitions. -/
theorem sortedOnce_eq (offsets : List Offset) :
    sortedOnce offsets = (Std.TreeSet.ofList offsets).toList := by
  let inOrder := offsets.mergeSort fun first second => first ≤ second
  have ascending : inOrder.Pairwise (· ≤ ·) :=
    List.pairwise_mergeSort' (· ≤ ·) offsets
  have strictly : inOrder.dedup.Pairwise (· < ·) :=
    ((ascending.sublist (List.dedup_sublist inOrder)).and (List.nodup_dedup inOrder)).imp
      fun both => UInt64.lt_of_le_of_ne both.1 both.2
  have listed : (Std.TreeSet.ofList offsets).toList.Pairwise (· < ·) :=
    Std.TreeSet.ordered_toList.imp Std.compare_eq_lt.mp
  rw [sortedOnce, ascending.destutter_eq_dedup]
  refine strictly.eq_of_mem_iff listed fun offset => ?_
  rw [List.mem_dedup, List.mem_mergeSort]
  simp

/--
Sweeps over ranges come to their end and list what the ranges cover.

A size of zero has no segments, and nothing is swept.
-/
def ListsCovered (ranges : List ByteRange) (size : Offset) (listed : List Offset) : Prop :=
  if size = 0 then
    listed = []
  else
    ∃ gathered, ByteRange.Gathers size ranges [] gathered ∧ listed = sortedOnce gathered

theorem listsCovered_iff
    {listed : List Offset}
    (positive : 0 < size.toNat) :
    ListsCovered ranges size listed ↔
      (∀ range ∈ ranges, range.stop < Offset.last) ∧
        listed = coveredSegments ranges size := by
  have notZero : size ≠ 0 := by
    rintro rfl
    exact Nat.lt_irrefl 0 positive
  rw [ListsCovered, if_neg notZero, coveredSegments, ← sortedOnce_eq]
  simp only [ByteRange.gathers_iff positive, List.nil_append, and_assoc, exists_and_left,
    exists_eq_left]

/--
What ranges cover is listed without leaving the offsets.

The sweeps over the ranges come to their end, with no sum above the largest
offset, exactly if no range ends there.  However the ranges lie, what is put
together from the sweeps ascends strictly, and holds the segments for which some
range has room, counted from its start in natural numbers.
-/
theorem covered_segments_swept
    (positive : 0 < size)
    (ranges : List ByteRange) :
    (∀ listed,
      ListsCovered ranges size listed ↔
        (∀ range ∈ ranges, range.stop < Offset.last) ∧
          listed = coveredSegments ranges size) ∧
      (coveredSegments ranges size).Pairwise (· < ·) ∧
      ∀ offset,
        offset ∈ coveredSegments ranges size ↔
          ∃ range ∈ ranges, ∃ index,
            offset.toNat = range.start.toNat + index * size.toNat ∧
              offset.toNat + size.toNat ≤ range.stop.toNat := by
  refine ⟨fun _ => listsCovered_iff positive, coveredSegments_ascending ranges size,
    fun offset => ?_⟩
  simp only [mem_coveredSegments, ByteRange.mem_wholeSegments positive, exists_and_right,
    and_comm]

/-- Ranges of different phases, one reversed, the highest ending right below the largest offset. -/
def overlappingRanges : List ByteRange :=
  [⟨18446744073709550000, 18446744073709551614⟩, ⟨3000, 5902⟩, ⟨4446, 8000⟩, ⟨9000, 10⟩]

theorem overlappingRanges_swept :
    0 < (1446 : Offset) ∧
      ListsCovered overlappingRanges 1446 [3000, 4446, 5892, 18446744073709550000] := by
  have positive : 0 < (1446 : Offset) := by
    decide
  obtain ⟨lists, _, _⟩ := covered_segments_swept positive overlappingRanges
  exact ⟨positive, (lists _).mpr (by decide)⟩

end Sack

end Retrace
