import Mathlib.Data.List.Sort
import Retrace.Proofs.Sender.Ranges
namespace Retrace

/-!
# The order of blocks

A packet lists its blocks in some order, and its ranges are sorted by their
starts alone.  What the ranges cover is a set, which no order changes.  But
ranges of one start keep the order of their blocks, and the list of ranges is
what the gaps are read off and what is compared with the list before.  So the
order of the blocks is immaterial exactly when no two different ranges have one
start.
-/

variable {τ : Type}

namespace ByteRange

/-! ## Sorting by start -/

theorem insertByStart_perm (range : ByteRange) (ranges : List ByteRange) :
    (insertByStart range ranges).Perm (range :: ranges) := by
  induction ranges with
  | nil =>
      exact List.Perm.refl _
  | cons next rest inductionHypothesis =>
      rw [insertByStart]
      split
      · exact List.Perm.refl _
      · exact (inductionHypothesis.cons next).trans (List.Perm.swap range next rest)

theorem sortByStart_perm (ranges : List ByteRange) :
    (sortByStart ranges).Perm ranges := by
  induction ranges with
  | nil =>
      exact List.Perm.nil
  | cons first rest inductionHypothesis =>
      rw [sortByStart, List.foldr_cons, ← sortByStart]
      exact (insertByStart_perm first _).trans (inductionHypothesis.cons first)

/-- Among the ranges of one start a range comes before those it is inserted into. -/
theorem filter_insertByStart
    (start : Offset)
    (range : ByteRange)
    (ranges : List ByteRange) :
    (insertByStart range ranges).filter (fun other => other.start = start) =
      (range :: ranges).filter fun other => other.start = start := by
  induction ranges with
  | nil =>
      rfl
  | cons next rest inductionHypothesis =>
      rw [insertByStart]
      split
      · rfl
      · next later =>
          rw [List.filter_cons, inductionHypothesis]
          by_cases isNext : next.start = start
          · have notRange : range.start ≠ start := by
              intro same
              apply later
              rw [same, isNext]
              exact UInt64.le_refl start
            simp [isNext, notRange]
          · simp [isNext, List.filter_cons]

/-- Sorting keeps the order of the ranges that have one start. -/
theorem filter_sortByStart
    (start : Offset)
    (ranges : List ByteRange) :
    (sortByStart ranges).filter (fun other => other.start = start) =
      ranges.filter fun other => other.start = start := by
  induction ranges with
  | nil =>
      rfl
  | cons first rest inductionHypothesis =>
      rw [sortByStart, List.foldr_cons, filter_insertByStart, ← sortByStart,
        List.filter_cons, inductionHypothesis, List.filter_cons]

/-- Ranges of one start are the same. -/
def StartsTellApart (ranges : List ByteRange) : Prop :=
  ∀ first ∈ ranges, ∀ second ∈ ranges, first.start = second.start → first = second

instance (ranges : List ByteRange) : Decidable (StartsTellApart ranges) :=
  inferInstanceAs
    (Decidable
      (∀ first ∈ ranges, ∀ second ∈ ranges, first.start = second.start → first = second))

/-- Ranges by ascending start have one order only if their starts tell them apart. -/
theorem eq_of_ascending
    {first second : List ByteRange}
    (firstAscending :
      first.Pairwise fun earlier later => earlier.start ≤ later.start)
    (secondAscending :
      second.Pairwise fun earlier later => earlier.start ≤ later.start)
    (tellApart : StartsTellApart first)
    (permuted : first.Perm second) :
    first = second := by
  refine List.Perm.eq_of_pairwise ?_ firstAscending secondAscending permuted
  intro one other isFirst isSecond below above
  exact tellApart one isFirst other (permuted.mem_iff.mpr isSecond)
    (UInt64.le_antisymm below above)

/-- Ranges by ascending start, no two of one start, are told by which ranges there are. -/
theorem eq_iff_same_members
    {first second : List ByteRange}
    (firstAscending :
      first.Pairwise fun earlier later => earlier.start ≤ later.start)
    (secondAscending :
      second.Pairwise fun earlier later => earlier.start ≤ later.start)
    (firstOnce : (first.map ByteRange.start).Nodup)
    (secondOnce : (second.map ByteRange.start).Nodup) :
    first = second ↔ ∀ range, range ∈ first ↔ range ∈ second := by
  constructor
  · rintro rfl range
    rfl
  · intro sameMembers
    apply eq_of_ascending firstAscending secondAscending
    · intro one isOne other isOther
      exact List.inj_on_of_nodup_map firstOnce isOne isOther
    · exact (List.perm_ext_iff_of_nodup firstOnce.of_map secondOnce.of_map).mpr sameMembers

end ByteRange

namespace Sack

/-- What is covered depends only on which ranges there are. -/
theorem coveredSegments_congr
    {first second : List ByteRange}
    (same : ∀ range, range ∈ first ↔ range ∈ second)
    (size : Offset) :
    coveredSegments first size = coveredSegments second size := by
  refine (coveredSegments_ascending first size).eq_of_mem_iff
    (coveredSegments_ascending second size) fun offset => ?_
  simp only [mem_coveredSegments, same]

/-! ## The ranges of blocks -/

/-- The non-empty ranges of blocks, in the order of the blocks. -/
def blockRanges (blocks : List (Offset × Offset)) : List ByteRange :=
  (blocks.map fun block => ByteRange.mk block.1 block.2).filter fun range => !range.isEmpty

theorem mem_blockRanges
    {blocks : List (Offset × Offset)}
    {range : ByteRange} :
    range ∈ blockRanges blocks ↔
      (range.start, range.stop) ∈ blocks ∧ range.isEmpty = false := by
  simp only [blockRanges, List.mem_filter, List.mem_map, Bool.not_eq_true']
  apply and_congr_left'
  constructor
  · rintro ⟨block, member, rfl⟩
    exact member
  · intro member
    exact ⟨_, member, rfl⟩

theorem blockRanges_perm
    {first second : List (Offset × Offset)}
    (permuted : first.Perm second) :
    (blockRanges first).Perm (blockRanges second) :=
  (permuted.map _).filter _

theorem blockRanges_cons
    {range : ByteRange}
    (holdsByte : range.isEmpty = false)
    (blocks : List (Offset × Offset)) :
    blockRanges ((range.start, range.stop) :: blocks) = range :: blockRanges blocks := by
  simp [blockRanges, holdsByte]

end Sack

/-- Two different members of a list come first in some order of it. -/
theorem exists_perm_cons_cons
    {α : Type}
    [DecidableEq α]
    {items : List α}
    {first second : α}
    (isFirst : first ∈ items)
    (isSecond : second ∈ items)
    (differ : first ≠ second) :
    ∃ rest, items.Perm (first :: second :: rest) := by
  have secondLeft : second ∈ items.erase first :=
    (List.mem_erase_of_ne differ.symm).mpr isSecond
  refine ⟨(items.erase first).erase second, ?_⟩
  exact (List.perm_cons_erase isFirst).trans ((List.perm_cons_erase secondLeft).cons first)

namespace Packet

/-- The packet with these blocks in its option. -/
def withBlocks (packet : Packet τ) (blocks : List (Offset × Offset)) : Packet τ :=
  { packet with options := { packet.options with sack := some blocks } }

theorem sackRanges_withBlocks
    (packet : Packet τ)
    (blocks : List (Offset × Offset)) :
    (packet.withBlocks blocks).sackRanges =
      ByteRange.sortByStart (Sack.blockRanges blocks) :=
  rfl

/-- The order of the blocks makes no difference to the ranges exactly if starts tell these apart. -/
theorem sackRanges_permuted_iff
    (packet : Packet τ)
    (blocks : List (Offset × Offset)) :
    (∀ permuted, blocks.Perm permuted →
        (packet.withBlocks permuted).sackRanges = (packet.withBlocks blocks).sackRanges) ↔
      ByteRange.StartsTellApart (Sack.blockRanges blocks) := by
  simp only [sackRanges_withBlocks]
  constructor
  · intro immaterial first isFirst second isSecond sameStart
    by_contra differ
    obtain ⟨firstMember, firstHolds⟩ := Sack.mem_blockRanges.mp isFirst
    obtain ⟨secondMember, secondHolds⟩ := Sack.mem_blockRanges.mp isSecond
    have blocksDiffer : (first.start, first.stop) ≠ (second.start, second.stop) := by
      intro same
      rw [Prod.mk.injEq] at same
      exact differ (by cases first; cases second; simp_all)
    -- Either of the two may come first, and sorting leaves it so.
    obtain ⟨rest, front⟩ := exists_perm_cons_cons firstMember secondMember blocksDiffer
    have sameSorted :=
      (immaterial _ front).trans (immaterial _ (front.trans (List.Perm.swap _ _ rest))).symm
    have sameOrder := congrArg (List.filter fun other => other.start = first.start) sameSorted
    rw [ByteRange.filter_sortByStart, ByteRange.filter_sortByStart,
      Sack.blockRanges_cons firstHolds, Sack.blockRanges_cons secondHolds,
      Sack.blockRanges_cons secondHolds, Sack.blockRanges_cons firstHolds] at sameOrder
    simp only [List.filter_cons, ← sameStart, decide_true, ↓reduceIte, List.cons.injEq] at sameOrder
    exact differ sameOrder.1
  · intro tellApart permuted isPermuted
    have sameRanges := Sack.blockRanges_perm isPermuted
    have sorted := ByteRange.sortByStart_perm (Sack.blockRanges blocks)
    symm
    apply ByteRange.eq_of_ascending (ByteRange.sortByStart_ascending _)
      (ByteRange.sortByStart_ascending _)
    · intro first isFirst second isSecond
      exact tellApart first (sorted.mem_iff.mp isFirst) second (sorted.mem_iff.mp isSecond)
    · exact sorted.trans (sameRanges.trans (ByteRange.sortByStart_perm _).symm)

end Packet

/-! ## What a step makes of blocks -/

namespace SenderState

theorem receiveDuplicate_state
    (config : ReplayConfig τ)
    (state : SenderState τ)
    (packet : Packet τ) :
    (state.receiveDuplicate config packet).state =
      { state.counted config packet with sackRanges := packet.sackRanges } := by
  by_cases unchanged : packet.sackRanges = state.sackRanges
  · simp [receiveDuplicate, adoptRanges, unchanged, counted, countDuplicate]
  · simp [receiveDuplicate, adoptRanges, unchanged, counted, countDuplicate]

/-- An acknowledgment is counted with its ranges, or its ranges are not read. -/
theorem receive_state
    (config : ReplayConfig τ)
    (state : SenderState τ)
    (packet : Packet τ) :
    (state.receive config packet).state =
      if packet.ack = state.highestAcked then
        { state.counted config packet with
          sackRanges := packet.sackRanges
          lastAckTime := packet.time }
      else
        { (state.receiveNew config packet).state with lastAckTime := packet.time } := by
  simp only [receive, isDuplicate, beq_iff_eq]
  split
  · rw [receiveDuplicate_state]
  · rfl

section

variable
  [Timescale τ]
  (config : ReplayConfig τ)
  (source : Address)
  (state : SenderState τ)
  (packet : Packet τ)

theorem transmit_withBlocks_state (blocks : List (Offset × Offset)) :
    (state.transmit config (packet.withBlocks blocks)).state =
      (state.transmit config packet).state := by
  have sameRepeated : state.isRepeated (packet.withBlocks blocks) = state.isRepeated packet :=
    rfl
  have sameEvidence :
      state.resendEvidence config (packet.withBlocks blocks) =
        state.resendEvidence config packet :=
    rfl
  simp only [transmit, sameRepeated, sameEvidence]
  cases state.isRepeated packet with
  | false => rfl
  | true => cases (state.resendEvidence config packet).isTimeout <;> rfl

/-- The blocks are read of duplicate acknowledgments only. -/
theorem step_withBlocks_state (blocks : List (Offset × Offset)) :
    (state.step config source (packet.withBlocks blocks)).state =
      if packet.isAckTo source ∧ packet.ack = state.highestAcked then
        { { state with time := packet.time }.counted config (packet.withBlocks blocks) with
          sackRanges := (packet.withBlocks blocks).sackRanges
          lastAckTime := packet.time }
      else
        (state.step config source packet).state := by
  have sameConcern : (packet.withBlocks blocks).concern source = packet.concern source :=
    rfl
  have sameNumber : (packet.withBlocks blocks).ack = packet.ack :=
    rfl
  simp only [step, sameConcern, Packet.isAckTo_eq, decide_eq_true_eq]
  cases packet.concern source with
  | acknowledges =>
      simp only [receive_state, sameNumber, true_and]
      split <;> rfl
  | sends =>
      simp only [reduceCtorEq, false_and, ↓reduceIte]
      exact transmit_withBlocks_state config _ packet blocks
  | control | bare | foreign => rfl

theorem step_eq_of_same_ranges
    {first second : List (Offset × Offset)}
    (same :
      (packet.withBlocks first).sackRanges = (packet.withBlocks second).sackRanges) :
    (state.step config source (packet.withBlocks first)).state =
      (state.step config source (packet.withBlocks second)).state := by
  rw [step_withBlocks_state, step_withBlocks_state]
  simp only [counted, same]

/-- The order of the blocks makes no difference to what a packet marks as arrived. -/
theorem scoreboard_eq_of_perm
    {first second : List (Offset × Offset)}
    (permuted : first.Perm second) :
    (state.step config source (packet.withBlocks first)).state.scoreboard =
      (state.step config source (packet.withBlocks second)).state.scoreboard := by
  have sameCovered :
      Sack.coveredSegments (packet.withBlocks first).sackRanges config.segmentSize =
        Sack.coveredSegments (packet.withBlocks second).sackRanges config.segmentSize := by
    apply Sack.coveredSegments_congr
    intro range
    rw [Packet.sackRanges_withBlocks, Packet.sackRanges_withBlocks,
      ByteRange.mem_sortByStart, ByteRange.mem_sortByStart,
      (Sack.blockRanges_perm permuted).mem_iff]
  rw [step_withBlocks_state, step_withBlocks_state]
  split
  · simp only [counted, sameCovered]
  · rfl

end

/-- A change of the ranges is announced exactly by a duplicate that lists other ranges. -/
theorem Effect.announces_change_iff
    [Timescale τ]
    {config : ReplayConfig τ}
    {source : Address}
    {state : SenderState τ}
    {packet : Packet τ}
    {outcome : Outcome τ}
    (effect : Effect config source state packet outcome) :
    (∃ ranges, .sackChange ranges ∈ outcome.events.map Event.notice) ↔
      packet.isAckTo source ∧
        packet.ack = state.highestAcked ∧
        packet.sackRanges ≠ state.sackRanges := by
  simp only [← mem_rangeChanges, effect.rangeChanges_eq]
  split_ifs with isDuplicate unchanged
  · simp [unchanged]
  · simp [isDuplicate, unchanged]
  · simp only [List.not_mem_nil, exists_false, false_iff]
    exact fun ⟨isAck, again, _⟩ => isDuplicate ⟨isAck, again⟩

end SenderState

theorem lastRanges_ascending
    (source : Address)
    (packets : List (Packet τ)) :
    (lastRanges source packets).Pairwise
      fun earlier later => earlier.start ≤ later.start := by
  rw [lastRanges]
  cases (repeats source packets).getLast? with
  | none => exact List.Pairwise.nil
  | some last => exact last.sackRanges_ordered.ascending

namespace Run

section

variable
  [Timescale τ]
  (config : ReplayConfig τ)
  {source : Address}
  {packet : Packet τ}

/-- A run announces ranges exactly at a duplicate whose ranges are not those of the last one. -/
theorem announces_change_iff
    (source : Address)
    (earlier : List (Packet τ))
    (packet : Packet τ) :
    (∃ ranges, .sackChange ranges ∈ notices config source earlier packet) ↔
      packet.isAckTo source ∧
        packet.ack = highestAck source earlier ∧
        packet.sackRanges ≠ lastRanges source earlier := by
  rw [notices, (next_effect config source earlier packet).announces_change_iff,
    ← state_highestAcked config, ← state_sackRanges config]

/-- The order of the blocks makes no difference to any state exactly if starts tell ranges apart. -/
theorem step_permuted_iff
    (acknowledges : packet.isAckTo source = true)
    (blocks : List (Offset × Offset)) :
    (∀ permuted, blocks.Perm permuted →
        ∀ state : SenderState τ,
          (state.step config source (packet.withBlocks permuted)).state =
            (state.step config source (packet.withBlocks blocks)).state) ↔
      ByteRange.StartsTellApart (Sack.blockRanges blocks) := by
  rw [← packet.sackRanges_permuted_iff]
  apply forall₂_congr
  intro permuted isPermuted
  constructor
  · intro sameStates
    -- At a state that the packet repeats, its ranges are the ones the state is left with.
    have sameState :=
      sameStates { SenderState.initial with highestAcked := packet.ack }
    rw [SenderState.step_withBlocks_state, SenderState.step_withBlocks_state,
      if_pos ⟨acknowledges, rfl⟩, if_pos ⟨acknowledges, rfl⟩] at sameState
    exact congrArg SenderState.sackRanges sameState
  · intro sameRanges state
    exact state.step_eq_of_same_ranges config source packet sameRanges

/--
When the order of the blocks of an acknowledgment is immaterial.

No order of them gives other ranges, nor leaves any state otherwise, exactly if
no two different ranges have one start; what is marked as arrived is the same in
any order.  A change is announced exactly by a duplicate whose list of ranges is
not that of the duplicate before, and as long as each of the two has one range
for every start, by a duplicate whose set of ranges is another.
-/
theorem block_order_immaterial_iff
    (acknowledges : packet.isAckTo source = true)
    (blocks : List (Offset × Offset)) :
    ((∀ permuted, blocks.Perm permuted →
        (packet.withBlocks permuted).sackRanges = (packet.withBlocks blocks).sackRanges) ↔
      ByteRange.StartsTellApart (Sack.blockRanges blocks)) ∧
    ((∀ permuted, blocks.Perm permuted →
        ∀ state : SenderState τ,
          (state.step config source (packet.withBlocks permuted)).state =
            (state.step config source (packet.withBlocks blocks)).state) ↔
      ByteRange.StartsTellApart (Sack.blockRanges blocks)) ∧
    (∀ permuted, blocks.Perm permuted →
      ∀ state : SenderState τ,
        (state.step config source (packet.withBlocks permuted)).state.scoreboard =
          (state.step config source (packet.withBlocks blocks)).state.scoreboard) ∧
    ∀ earlier : List (Packet τ),
      ((∃ ranges, .sackChange ranges ∈ notices config source earlier packet) ↔
        packet.ack = highestAck source earlier ∧
          packet.sackRanges ≠ lastRanges source earlier) ∧
      ((packet.sackRanges.map ByteRange.start).Nodup →
        ((lastRanges source earlier).map ByteRange.start).Nodup →
        ((∃ ranges, .sackChange ranges ∈ notices config source earlier packet) ↔
          packet.ack = highestAck source earlier ∧
            ¬ ∀ range,
              range ∈ packet.sackRanges ↔ range ∈ lastRanges source earlier)) := by
  refine ⟨packet.sackRanges_permuted_iff blocks, step_permuted_iff config acknowledges blocks,
    ?_, ?_⟩
  · intro permuted isPermuted state
    exact state.scoreboard_eq_of_perm config source packet isPermuted.symm
  · intro earlier
    have announced := announces_change_iff config source earlier packet
    rw [and_iff_right acknowledges] at announced
    refine ⟨announced, ?_⟩
    intro rangesOnce lastOnce
    rw [announced, Ne,
      ByteRange.eq_iff_same_members packet.sackRanges_ordered.ascending
        (lastRanges_ascending source earlier) rangesOnce lastOnce]

end

/-- A duplicate acknowledgment that reports the first segment of a longer block as well. -/
def nestedAck : Packet Float :=
  Flow.sample.acknowledgment 0 (some [(1446, 2892), (1446, 7230), (8676, 10122)]) 0.0

/-- The same acknowledgment, the longer block before its first segment. -/
def swappedAck : Packet Float :=
  nestedAck.withBlocks [(1446, 7230), (1446, 2892), (8676, 10122)]

/--
Two blocks of one start, swapped, give another list of ranges.

So the second acknowledgment infers a segment missing that the first one would
not, and it announces a change although it advertises the same ranges.
-/
theorem swappedAck_noticed :
    [((1446, 2892) : Offset × Offset), (1446, 7230), (8676, 10122)].Perm
        [(1446, 7230), (1446, 2892), (8676, 10122)] ∧
      swappedAck.sackRanges ≠ nestedAck.sackRanges ∧
      4338 ∈ (state ReplayConfig.standard (.v4 1) [nestedAck, swappedAck]).missingCounts ∧
      4338 ∉ (state ReplayConfig.standard (.v4 1) [nestedAck, nestedAck]).missingCounts ∧
      (∃ ranges,
        .sackChange ranges ∈
          notices ReplayConfig.standard (.v4 1) [nestedAck] swappedAck) ∧
      ∀ range,
        range ∈ swappedAck.sackRanges ↔ range ∈ lastRanges (.v4 1) [nestedAck] := by
  have swapped : swappedAck.sackRanges ≠ nestedAck.sackRanges := by
    decide
  have last : lastRanges (.v4 1) [nestedAck] = nestedAck.sackRanges := by
    decide
  refine ⟨List.Perm.swap _ _ _, swapped, by decide +kernel, by decide +kernel, ?_, ?_⟩
  · rw [announces_change_iff, last]
    exact ⟨by decide, by decide, swapped⟩
  · intro range
    rw [last]
    have reordered : swappedAck.sackRanges.Perm nestedAck.sackRanges :=
      List.Perm.swap _ _ _
    exact reordered.mem_iff

/-- Two blocks that start apart, and an empty one. -/
def apartAck : Packet Float :=
  nestedAck.withBlocks [(8676, 10122), (0, 0), (1446, 7230)]

/-- The order of blocks that start apart goes unnoticed, and one block less is announced. -/
theorem apartAck_order_unnoticed :
    apartAck.isAckTo (.v4 1) = true ∧
      (∀ state : SenderState Float,
        (state.step ReplayConfig.standard (.v4 1)
            (apartAck.withBlocks [(8676, 10122), (0, 0), (1446, 7230)])).state =
          (state.step ReplayConfig.standard (.v4 1)
            (apartAck.withBlocks [(1446, 7230), (8676, 10122), (0, 0)])).state) ∧
      ∃ ranges,
        .sackChange ranges ∈
          notices ReplayConfig.standard (.v4 1) [nestedAck.withBlocks [(1446, 7230)]]
            apartAck := by
  have acknowledges : apartAck.isAckTo (.v4 1) = true := by
    decide
  obtain ⟨_, immaterial, _, announced⟩ :=
    block_order_immaterial_iff ReplayConfig.standard acknowledges
      [(1446, 7230), (8676, 10122), (0, 0)]
  refine ⟨acknowledges, immaterial.mpr (by decide) _ (by decide), ?_⟩
  apply ((announced [nestedAck.withBlocks [(1446, 7230)]]).2 (by decide) (by decide)).mpr
  refine ⟨by decide, ?_⟩
  intro sameRanges
  have isLast := (sameRanges ⟨8676, 10122⟩).mp (by decide)
  revert isLast
  decide

end Run

end Retrace
