import Mathlib.Data.List.DropRight
import Retrace.Proofs.Gaps
import Retrace.Proofs.Sender.Marks
namespace Retrace

/-!
# Duplicate acknowledgments of a run

The state counts duplicate acknowledgments, and for every segment how many of
them infer it missing, up to a threshold; any other acknowledgment clears all
counts.  `openDuplicates` reads the duplicates that count off the packets.  The
counters of every run are a fold over them, which gives their exact values and
says when a segment counted missing lies below the highest number acknowledged.
-/

variable {τ : Type}

/-- Acknowledgments, each with whether it repeats the highest number before it. -/
def markRepeats (highest : Offset) : List (Packet τ) → List (Packet τ × Bool)
  | [] => []
  | packet :: rest =>
      (packet, packet.ack == highest) ::
        markRepeats (max highest packet.ack) rest

/-- The duplicate acknowledgments since the last acknowledgment that was none, in order. -/
def openDuplicates (source : Address) (packets : List (Packet τ)) : List (Packet τ) :=
  ((markRepeats 0 (acks source packets)).rtakeWhile Prod.snd).map Prod.fst

theorem markRepeats_concat
    (highest : Offset)
    (earlier : List (Packet τ))
    (packet : Packet τ) :
    markRepeats highest (earlier ++ [packet]) =
      markRepeats highest earlier ++
        [(packet, packet.ack == (earlier.map Packet.ack).foldl max highest)] := by
  induction earlier generalizing highest with
  | nil =>
      rfl
  | cons first rest inductionHypothesis =>
      simp [markRepeats, inductionHypothesis]

/-- A duplicate is one more, any other acknowledgment leaves none. -/
theorem openDuplicates_concat
    (source : Address)
    (earlier : List (Packet τ))
    (packet : Packet τ) :
    openDuplicates source (earlier ++ [packet]) =
      if packet.isAckTo source then
        if packet.ack = highestAck source earlier then
          openDuplicates source earlier ++ [packet]
        else
          []
      else
        openDuplicates source earlier := by
  cases isAck : packet.isAckTo source with
  | false =>
      simp [openDuplicates, acks, isAck]
  | true =>
      have grown : acks source (earlier ++ [packet]) = acks source earlier ++ [packet] := by
        simp [acks, isAck]
      rw [openDuplicates, grown, markRepeats_concat, List.rtakeWhile_concat,
        ← Offset.highest, ← highestAck]
      by_cases repeats : packet.ack = highestAck source earlier
      · simp [repeats, openDuplicates]
      · simp [repeats]

theorem length_openDuplicates_concat_le
    (source : Address)
    (earlier : List (Packet τ))
    (packet : Packet τ) :
    (openDuplicates source (earlier ++ [packet])).length ≤
      (openDuplicates source earlier).length + 1 := by
  rw [openDuplicates_concat]
  split
  · split <;> simp
  · exact Nat.le_succ _

/-- The duplicates that count all repeat the highest number. -/
theorem ack_of_mem_openDuplicates
    {source : Address}
    {packets : List (Packet τ)}
    {duplicate : Packet τ}
    (member : duplicate ∈ openDuplicates source packets) :
    duplicate.ack = highestAck source packets := by
  induction packets using List.reverseRecOn with
  | nil =>
      exact (List.not_mem_nil member).elim
  | append_singleton earlier packet inductionHypothesis =>
      rw [openDuplicates_concat] at member
      rw [highestAck_concat]
      split at member
      · next isAck =>
          rw [if_pos isAck]
          split at member
          · next repeats =>
              rw [Offset.max_eq_left (UInt64.le_of_eq repeats)]
              rcases List.mem_append.mp member with isEarlier | isLast
              · exact inductionHypothesis isEarlier
              · rw [List.mem_singleton.mp isLast, repeats]
          · exact (List.not_mem_nil member).elim
      · next noAck =>
          rw [if_neg noAck]
          exact inductionHypothesis member

/-! ## Counting up to a threshold -/

/-- A count goes up by one as long as it lies below a threshold. -/
def countUpTo (threshold count : Nat) : Nat :=
  if count < threshold then count + 1 else count

/-- A count up to a threshold stays the smaller of the threshold and the exact count. -/
theorem countUpTo_min (threshold count : Nat) :
    countUpTo threshold (min threshold count) = min threshold (count + 1) := by
  rw [countUpTo]
  split <;> omega

namespace SenderState

variable
  {threshold : Nat}
  {counts : Std.TreeMap Offset Nat}
  {segments : List Offset}
  {segment : Offset}

theorem missingAfter_cons (first : Offset) (rest : List Offset) :
    missingAfter threshold counts (first :: rest) =
      missingAfter threshold
        (counts.insert first (countUpTo threshold (counts.getD first 0))) rest :=
  rfl

theorem mem_missingAfter :
    segment ∈ missingAfter threshold counts segments ↔
      segment ∈ counts ∨ segment ∈ segments := by
  induction segments generalizing counts with
  | nil =>
      simp [missingAfter]
  | cons first rest inductionHypothesis =>
      rw [missingAfter_cons, inductionHypothesis, Std.TreeMap.mem_insert,
        Std.LawfulEqOrd.compare_eq_iff_eq, List.mem_cons, eq_comm (a := first),
        or_comm (a := segment = first), or_assoc]

/-- Segments of which none is listed twice are counted once each. -/
theorem getD_missingAfter
    (distinct : segments.Nodup) :
    (missingAfter threshold counts segments).getD segment 0 =
      if segment ∈ segments then
        countUpTo threshold (counts.getD segment 0)
      else
        counts.getD segment 0 := by
  induction segments generalizing counts with
  | nil =>
      rfl
  | cons first rest inductionHypothesis =>
      obtain ⟨notAgain, restDistinct⟩ := List.nodup_cons.mp distinct
      rw [missingAfter_cons, inductionHypothesis restDistinct,
        Std.TreeMap.getD_insert]
      simp only [Std.LawfulEqOrd.compare_eq_iff_eq, List.mem_cons]
      by_cases isFirst : segment = first
      · rw [isFirst]
        simp [notAgain]
      · simp [isFirst, Ne.symm isFirst]

/-! ## The counters of a state -/

/-- What the state counts of duplicates. -/
def duplicateCounters (state : SenderState τ) : Nat × Std.TreeMap Offset Nat :=
  (state.duplicateAcks, state.missingCounts)

/-- The counters once one more duplicate was counted. -/
def countDuplicateOf
    (config : ReplayConfig τ)
    (counters : Nat × Std.TreeMap Offset Nat)
    (duplicate : Packet τ) :
    Nat × Std.TreeMap Offset Nat :=
  (countUpTo config.duplicateThreshold counters.1,
    missingAfter config.duplicateThreshold counters.2
      (Sack.missingSegments duplicate.sackRanges config.segmentSize))

/-- A duplicate is counted, any other acknowledgment clears the counters. -/
theorem Effect.duplicateCounters
    [Timescale τ]
    {config : ReplayConfig τ}
    {source : Address}
    {state : SenderState τ}
    {packet : Packet τ}
    {outcome : Outcome τ}
    (effect : Effect config source state packet outcome) :
    outcome.state.duplicateCounters =
      if packet.isAckTo source then
        if packet.ack = state.highestAcked then
          countDuplicateOf config state.duplicateCounters packet
        else
          (0, ∅)
      else
        state.duplicateCounters := by
  rw [Packet.isAckTo_eq]
  cases effect with
  | passedOver noAck noSend =>
      simp [noAck]
  | duplicate acknowledges repeats =>
      rw [decide_eq_true acknowledges, if_pos rfl, if_pos repeats]
      rfl
  | late acknowledges below =>
      simp [acknowledges, UInt64.ne_of_lt below, SenderState.duplicateCounters,
        clearDuplicates]
  | advance acknowledges above =>
      simp [acknowledges, (UInt64.ne_of_lt above).symm,
        SenderState.duplicateCounters, clearDuplicates]
  | newSend sends above =>
      simp [sends, SenderState.duplicateCounters]
  | timeout sends repeated isTimeout =>
      simp [sends, SenderState.duplicateCounters, leaveRecovery]
  | recoveryBegun sends repeated noTimeout closed =>
      simp [sends, SenderState.duplicateCounters, enterRecovery]
  | retransmission sends repeated noTimeout isOpen =>
      simp [sends, SenderState.duplicateCounters]

end SenderState

/-! ## The counters of a run -/

/-- How many acknowledgments infer a segment missing. -/
def inferring
    (config : ReplayConfig τ)
    (segment : Offset)
    (duplicates : List (Packet τ)) :
    Nat :=
  duplicates.countP fun duplicate =>
    segment ∈ Sack.missingSegments duplicate.sackRanges config.segmentSize

theorem inferring_concat
    (config : ReplayConfig τ)
    (segment : Offset)
    (earlier : List (Packet τ))
    (duplicate : Packet τ) :
    inferring config segment (earlier ++ [duplicate]) =
      inferring config segment earlier +
        if segment ∈ Sack.missingSegments duplicate.sackRanges config.segmentSize then
          1
        else
          0 := by
  simp [inferring, List.countP_singleton]

theorem inferring_openDuplicates_concat_le
    (config : ReplayConfig τ)
    (source : Address)
    (earlier : List (Packet τ))
    (packet : Packet τ)
    (segment : Offset) :
    inferring config segment (openDuplicates source (earlier ++ [packet])) ≤
      inferring config segment (openDuplicates source earlier) + 1 := by
  rw [openDuplicates_concat]
  split
  · split
    · rw [inferring_concat]
      split <;> simp
    · exact Nat.zero_le _
  · exact Nat.le_succ _

/-- The counters once duplicates were counted, after all counts were cleared. -/
def countersOf
    (config : ReplayConfig τ)
    (duplicates : List (Packet τ)) :
    Nat × Std.TreeMap Offset Nat :=
  duplicates.foldl (SenderState.countDuplicateOf config) (0, ∅)

section

variable
  (config : ReplayConfig τ)
  (duplicates : List (Packet τ))

theorem countersOf_concat (duplicate : Packet τ) :
    countersOf config (duplicates ++ [duplicate]) =
      SenderState.countDuplicateOf config (countersOf config duplicates) duplicate := by
  simp [countersOf]

theorem countersOf_fst :
    (countersOf config duplicates).1 =
      min config.duplicateThreshold duplicates.length := by
  induction duplicates using List.reverseRecOn with
  | nil =>
      exact (Nat.min_zero _).symm
  | append_singleton earlier duplicate inductionHypothesis =>
      rw [countersOf_concat, SenderState.countDuplicateOf, inductionHypothesis,
        countUpTo_min, List.length_append, List.length_singleton]

theorem countersOf_getD (segment : Offset) :
    (countersOf config duplicates).2.getD segment 0 =
      min config.duplicateThreshold (inferring config segment duplicates) := by
  induction duplicates using List.reverseRecOn with
  | nil =>
      exact (Nat.min_zero _).symm
  | append_singleton earlier duplicate inductionHypothesis =>
      -- The ranges of a packet are ordered, so no gap lists a segment again.
      have distinct :=
        (Sack.missingSegments_ascending config.segmentSize
          duplicate.sackRanges_ordered).imp UInt64.ne_of_lt
      rw [countersOf_concat, SenderState.countDuplicateOf,
        SenderState.getD_missingAfter distinct, inductionHypothesis,
        inferring_concat]
      split
      · exact countUpTo_min _ _
      · rfl

theorem mem_countersOf (segment : Offset) :
    segment ∈ (countersOf config duplicates).2 ↔
      ∃ duplicate ∈ duplicates,
        segment ∈
          Sack.missingSegments duplicate.sackRanges config.segmentSize := by
  induction duplicates using List.reverseRecOn with
  | nil =>
      simp [countersOf]
  | append_singleton earlier duplicate inductionHypothesis =>
      rw [countersOf_concat, SenderState.countDuplicateOf,
        SenderState.mem_missingAfter, inductionHypothesis]
      simp [or_and_right, exists_or]

end

namespace Run

section

variable
  [Timescale τ]
  (config : ReplayConfig τ)
  (source : Address)

/-- The counters of a run are those of the duplicates since the last other acknowledgment. -/
theorem state_duplicateCounters (packets : List (Packet τ)) :
    (state config source packets).duplicateCounters =
      countersOf config (openDuplicates source packets) := by
  induction packets using List.reverseRecOn with
  | nil =>
      rfl
  | append_singleton earlier packet inductionHypothesis =>
      rw [state_concat,
        (next_effect config source earlier packet).duplicateCounters,
        openDuplicates_concat, apply_ite (countersOf config),
        apply_ite (countersOf config), countersOf_concat, ← inductionHypothesis,
        ← state_highestAcked config]
      rfl

theorem state_duplicateAcks (packets : List (Packet τ)) :
    (state config source packets).duplicateAcks =
      min config.duplicateThreshold (openDuplicates source packets).length := by
  rw [← countersOf_fst, ← state_duplicateCounters]
  rfl

theorem state_missingCount
    (packets : List (Packet τ))
    (segment : Offset) :
    (state config source packets).missingCount segment =
      min config.duplicateThreshold
        (inferring config segment (openDuplicates source packets)) := by
  rw [← countersOf_getD, ← state_duplicateCounters]
  rfl

theorem mem_missingCounts_iff
    (packets : List (Packet τ))
    (segment : Offset) :
    segment ∈ (state config source packets).missingCounts ↔
      ∃ duplicate ∈ openDuplicates source packets,
        segment ∈
          Sack.missingSegments duplicate.sackRanges config.segmentSize := by
  rw [← mem_countersOf, ← state_duplicateCounters]
  rfl

/--
Runs count duplicates exactly, up to the threshold.

The duplicates that count are those since the last other acknowledgment, and a
segment is counted missing by those whose gaps list it.  No count exceeds the
threshold, and no packet raises one by more than one.
-/
structure CountsDuplicates : Prop where
  duplicateAcks :
    ∀ packets : List (Packet τ),
      (state config source packets).duplicateAcks =
        min config.duplicateThreshold (openDuplicates source packets).length
  missingCount :
    ∀ (packets : List (Packet τ)) (segment : Offset),
      (state config source packets).missingCount segment =
        min config.duplicateThreshold
          (inferring config segment (openDuplicates source packets))
  duplicateAcksBounded :
    ∀ packets : List (Packet τ),
      (state config source packets).duplicateAcks ≤ config.duplicateThreshold
  missingCountBounded :
    ∀ (packets : List (Packet τ)) (segment : Offset),
      (state config source packets).missingCount segment ≤
        config.duplicateThreshold
  duplicateAcksStep :
    ∀ (earlier : List (Packet τ)) (packet : Packet τ),
      (next config source earlier packet).state.duplicateAcks ≤
        (state config source earlier).duplicateAcks + 1
  missingCountStep :
    ∀ (earlier : List (Packet τ)) (packet : Packet τ) (segment : Offset),
      (next config source earlier packet).state.missingCount segment ≤
        (state config source earlier).missingCount segment + 1

/-- Every run counts duplicates exactly. -/
theorem duplicates_counted_exactly : CountsDuplicates config source := by
  constructor
  case duplicateAcks =>
    exact state_duplicateAcks config source
  case missingCount =>
    exact state_missingCount config source
  case duplicateAcksBounded =>
    intro packets
    rw [state_duplicateAcks]
    exact Nat.min_le_left _ _
  case missingCountBounded =>
    intro packets segment
    rw [state_missingCount]
    exact Nat.min_le_left _ _
  case duplicateAcksStep =>
    intro earlier packet
    have grown := length_openDuplicates_concat_le source earlier packet
    rw [← state_concat, state_duplicateAcks, state_duplicateAcks]
    omega
  case missingCountStep =>
    intro earlier packet segment
    have grown :=
      inferring_openDuplicates_concat_le config source earlier packet segment
    rw [← state_concat, state_missingCount, state_missingCount]
    omega

/-! ## Counting what was acknowledged -/

/-- Whatever is counted missing lies at the highest number acknowledged or above it. -/
def CountsAboveAcked (packets : List (Packet τ)) : Prop :=
  ∀ segment ∈ (state config source packets).missingCounts,
    (state config source packets).highestAcked ≤ segment

/--
What was acknowledged is counted missing exactly when a duplicate that counts
advertises ranges with a gap that begins below its own number.
-/
theorem missing_counts_above_acked_iff (packets : List (Packet τ)) :
    CountsAboveAcked config source packets ↔
      config.segmentSize = 0 ∨
        ∀ duplicate ∈ openDuplicates source packets,
          Sack.GapsFrom duplicate.ack duplicate.sackRanges := by
  have each (duplicate : Packet τ) (member : duplicate ∈ openDuplicates source packets) :
      (∀ segment ∈
          Sack.missingSegments duplicate.sackRanges config.segmentSize,
        (state config source packets).highestAcked ≤ segment) ↔
        config.segmentSize = 0 ∨
          Sack.GapsFrom duplicate.ack duplicate.sackRanges := by
    rw [state_highestAcked, ← ack_of_mem_openDuplicates member]
    exact Sack.missing_from_iff
  have counted_iff := mem_missingCounts_iff config source packets
  constructor
  · intro above
    by_cases isZero : config.segmentSize = 0
    · exact Or.inl isZero
    · right
      intro duplicate member
      have fromNumber := (each duplicate member).mp fun segment missing =>
        above segment ((counted_iff segment).mpr ⟨duplicate, member, missing⟩)
      exact fromNumber.resolve_left isZero
  · intro clear segment counted
    obtain ⟨duplicate, member, missing⟩ := (counted_iff segment).mp counted
    refine (each duplicate member).mpr ?_ segment missing
    exact clear.imp_right fun all => all duplicate member

end

/-- An acknowledgment of two segments, sent to the source. -/
def twoSegmentsAck : Packet Float :=
  Flow.sample.acknowledgment 2892 none 0.0

/-- The same number again, with a block of the first segment and one of the fourth. -/
def firstBlockAck : Packet Float :=
  Flow.sample.acknowledgment 2892 (some [(0, 1446), (4338, 5784)]) 0.0

/-- The gap behind the first segment begins with the second, which was acknowledged. -/
theorem firstBlockAck_counts_acknowledged :
    ¬ CountsAboveAcked ReplayConfig.standard (.v4 1)
      [twoSegmentsAck, firstBlockAck] := by
  intro above
  have counted :
      1446 ∈ (state ReplayConfig.standard (.v4 1)
        [twoSegmentsAck, firstBlockAck]).missingCounts := by
    decide +kernel
  have notBelow := above 1446 counted
  rw [state_highestAcked] at notBelow
  revert notBelow
  decide

end Run

end Retrace
