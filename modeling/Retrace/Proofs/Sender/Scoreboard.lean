import Retrace.Proofs.Segments
import Retrace.Proofs.Sender.Marks
namespace Retrace

/-!
# The scoreboard of a run

Segments come onto the scoreboard from two sides: duplicate acknowledgments
bring those that their ranges cover, and an acknowledgment that moves the
highest number brings those that the walk to it passes.  Nothing is ever taken
off.  This module follows every segment of a scoreboard back to the packet that
brought it, and says how far a scoreboard can be trusted: it leaves no hole
below the highest number, but the walk can overshoot that number by a segment.
-/

variable {τ : Type}

namespace SenderState

/-- The segments that a packet gives for arrived. -/
def arrivals
    (config : ReplayConfig τ)
    (source : Address)
    (state : SenderState τ)
    (packet : Packet τ) :
    List Offset :=
  if packet.isAckTo source then
    if packet.ack = state.highestAcked then
      Sack.coveredSegments packet.sackRanges config.segmentSize
    else if state.highestAcked < packet.ack then
      passedSegments config.segmentSize state.highestAcked packet.ack
    else
      []
  else
    []

/-- A packet puts on the scoreboard what it gives for arrived. -/
theorem Effect.mem_scoreboard
    [Timescale τ]
    {config : ReplayConfig τ}
    {source : Address}
    {state : SenderState τ}
    {packet : Packet τ}
    {outcome : Outcome τ}
    (effect : Effect config source state packet outcome)
    (segment : Offset) :
    segment ∈ outcome.state.scoreboard ↔
      segment ∈ state.scoreboard ∨
        segment ∈ state.arrivals config source packet := by
  rw [arrivals, Packet.isAckTo_eq]
  cases effect with
  | passedOver noAck noSend =>
      simp [noAck]
  | duplicate acknowledges repeats =>
      simp [acknowledges, repeats, counted, mem_boardAfter]
  | late acknowledges below =>
      have differs : packet.ack ≠ state.highestAcked :=
        UInt64.ne_of_lt below
      have notAbove : ¬ state.highestAcked < packet.ack :=
        UInt64.not_lt.mpr (UInt64.le_of_lt below)
      simp [acknowledges, differs, notAbove, clearDuplicates, settle]
  | advance acknowledges above =>
      have differs : packet.ack ≠ state.highestAcked :=
        (UInt64.ne_of_lt above).symm
      simp [acknowledges, differs, above, mem_boardAfter]
  | newSend sends above =>
      simp [sends]
  | timeout sends repeated isTimeout =>
      simp [sends, leaveRecovery]
  | recoveryBegun sends repeated noTimeout closed =>
      simp [sends, enterRecovery]
  | retransmission sends repeated noTimeout isOpen =>
      simp [sends]

/-- A packet reports as added what it gives for arrived and was not on the scoreboard. -/
theorem Effect.mem_scoreboardAdd
    [Timescale τ]
    {config : ReplayConfig τ}
    {source : Address}
    {state : SenderState τ}
    {packet : Packet τ}
    {outcome : Outcome τ}
    (effect : Effect config source state packet outcome)
    (segment : Offset) :
    .scoreboardAdd segment ∈ outcome.events.map Event.notice ↔
      segment ∈ state.arrivals config source packet ∧
        segment ∉ state.scoreboard := by
  rw [arrivals, Packet.isAckTo_eq]
  cases effect with
  | passedOver noAck noSend =>
      simp [noAck]
  | duplicate acknowledges repeats =>
      by_cases unchanged : packet.sackRanges = state.sackRanges <;>
        simp [acknowledges, repeats, unchanged, mem_unmarked]
  | late acknowledges below =>
      have differs : packet.ack ≠ state.highestAcked :=
        UInt64.ne_of_lt below
      have notAbove : ¬ state.highestAcked < packet.ack :=
        UInt64.not_lt.mpr (UInt64.le_of_lt below)
      cases state.endsRecovery packet <;>
        simp [acknowledges, differs, notAbove]
  | advance acknowledges above =>
      have differs : packet.ack ≠ state.highestAcked :=
        (UInt64.ne_of_lt above).symm
      cases state.endsRecovery packet <;>
        simp [acknowledges, differs, above, mem_unmarked, clearDuplicates, settle]
  | newSend sends above =>
      simp [sends]
  | timeout sends repeated isTimeout =>
      cases state.inRecovery <;>
        simp [sends]
  | recoveryBegun sends repeated noTimeout closed =>
      simp [sends]
  | retransmission sends repeated noTimeout isOpen =>
      simp [sends]

end SenderState

namespace Run

section

variable
  [Timescale τ]
  (config : ReplayConfig τ)
  (source : Address)

theorem mem_scoreboard_next
    (earlier : List (Packet τ))
    (packet : Packet τ)
    (segment : Offset) :
    segment ∈ (next config source earlier packet).state.scoreboard ↔
      segment ∈ (state config source earlier).scoreboard ∨
        segment ∈ (state config source earlier).arrivals config source packet :=
  (next_effect config source earlier packet).mem_scoreboard segment

/-- A segment is on the scoreboard of a run exactly when some packet gave it for arrived. -/
theorem mem_scoreboard_iff
    (packets : List (Packet τ))
    (segment : Offset) :
    segment ∈ (state config source packets).scoreboard ↔
      Occurs
        (fun earlier packet =>
          segment ∈ (state config source earlier).arrivals config source packet)
        packets := by
  induction packets using List.reverseRecOn with
  | nil =>
      rw [Occurs.nil_iff]
      simp [SenderState.initial]
  | append_singleton earlier packet inductionHypothesis =>
      rw [Occurs.concat_iff, state_concat, mem_scoreboard_next,
        inductionHypothesis]

/-- A packet gives for arrived what its ranges cover or what the walk to its number passes. -/
theorem mem_arrivals_iff
    (earlier : List (Packet τ))
    (packet : Packet τ)
    (segment : Offset) :
    segment ∈ (state config source earlier).arrivals config source packet ↔
      packet.isAckTo source = true ∧
        ((packet.ack = highestAck source earlier ∧
            segment ∈
              Sack.coveredSegments packet.sackRanges config.segmentSize) ∨
          (highestAck source earlier < packet.ack ∧
            segment ∈
              SenderState.passedSegments config.segmentSize
                (highestAck source earlier) packet.ack)) := by
  rw [SenderState.arrivals, state_highestAcked]
  cases packet.isAckTo source with
  | false =>
      simp
  | true =>
      by_cases repeats : packet.ack = highestAck source earlier
      · simp [repeats]
      · by_cases above : highestAck source earlier < packet.ack
        · simp [repeats, above]
        · simp [repeats, above]

/-! ## What can be trusted -/

/-- A packet is a duplicate acknowledgment with a range that holds a segment as a whole. -/
def CoversAt
    (segment : Offset)
    (earlier : List (Packet τ))
    (packet : Packet τ) :
    Prop :=
  packet.isAckTo source = true ∧
    packet.ack = highestAck source earlier ∧
    ∃ range ∈ packet.sackRanges,
      range.start ≤ segment ∧
        segment.toNat + config.segmentSize.toNat ≤ range.stop.toNat

/-- A packet acknowledges a number off the walk to it, which goes on to a segment beyond. -/
def OvershootsAt
    (segment : Offset)
    (earlier : List (Packet τ))
    (packet : Packet τ) :
    Prop :=
  packet.isAckTo source = true ∧
    highestAck source earlier < packet.ack ∧
    ¬ SenderState.walkStep config.segmentSize ∣
        packet.ack.toNat - (highestAck source earlier).toNat ∧
    segment.toNat =
        SenderState.firstBeyond config.segmentSize
          (highestAck source earlier) packet.ack ∧
    segment < Offset.last

/-- A segment was acknowledged in a run: by number, or by a range of a duplicate. -/
def Acknowledged
    (packets : List (Packet τ))
    (segment : Offset) :
    Prop :=
  segment ≤ (state config source packets).highestAcked ∨
    Occurs (CoversAt config source segment) packets

/-- Everything on the scoreboard of a run was acknowledged. -/
def SoundScoreboard (packets : List (Packet τ)) : Prop :=
  ∀ segment ∈ (state config source packets).scoreboard,
    Acknowledged config source packets segment

/-- What a packet gives for arrived lies within its number, or is covered, or overshoots. -/
theorem cases_of_mem_arrivals
    {earlier : List (Packet τ)}
    {packet : Packet τ}
    {segment : Offset}
    (member :
      segment ∈ (state config source earlier).arrivals config source packet) :
    (packet.isAckTo source = true ∧ segment ≤ packet.ack) ∨
      CoversAt config source segment earlier packet ∨
      OvershootsAt config source segment earlier packet := by
  obtain ⟨isAck, ⟨repeats, covered⟩ | ⟨above, passed⟩⟩ :=
    (mem_arrivals_iff config source earlier packet segment).mp member
  · exact Or.inr (Or.inl
      ⟨isAck, repeats, Sack.within_of_mem_coveredSegments covered⟩)
  · by_cases within : segment ≤ packet.ack
    · exact Or.inl ⟨isAck, within⟩
    · have beyond : packet.ack < segment :=
        UInt64.not_le.mp within
      have overshoots :=
        (SenderState.mem_passedSegments_beyond (UInt64.le_of_lt above)).mp
          ⟨passed, beyond⟩
      exact Or.inr (Or.inr ⟨isAck, above, overshoots⟩)

/-- What overshoots is given for arrived, and lies above the number acknowledged. -/
theorem OvershootsAt.mem_arrivals
    {earlier : List (Packet τ)}
    {packet : Packet τ}
    {segment : Offset}
    (overshoots : OvershootsAt config source segment earlier packet) :
    segment ∈ (state config source earlier).arrivals config source packet ∧
      packet.ack < segment := by
  obtain ⟨isAck, above, shape⟩ := overshoots
  obtain ⟨passed, beyond⟩ :=
    (SenderState.mem_passedSegments_beyond (UInt64.le_of_lt above)).mpr shape
  refine ⟨?_, beyond⟩
  rw [mem_arrivals_iff]
  exact ⟨isAck, Or.inr ⟨above, passed⟩⟩

/-- What an acknowledgment that is no duplicate adds above its number is what overshoots. -/
theorem mem_added_beyond_iff
    {earlier : List (Packet τ)}
    {packet : Packet τ}
    (isNew : packet.ack ≠ highestAck source earlier)
    (segment : Offset) :
    (.scoreboardAdd segment ∈ notices config source earlier packet ∧
        packet.ack < segment) ↔
      OvershootsAt config source segment earlier packet ∧
        segment ∉ (state config source earlier).scoreboard := by
  have added_iff :
      .scoreboardAdd segment ∈ notices config source earlier packet ↔
        segment ∈ (state config source earlier).arrivals config source packet ∧
          segment ∉ (state config source earlier).scoreboard :=
    (next_effect config source earlier packet).mem_scoreboardAdd segment
  rw [added_iff]
  constructor
  · rintro ⟨⟨arrives, notMarked⟩, beyond⟩
    rcases cases_of_mem_arrivals config source arrives with
      ⟨_, within⟩ | ⟨_, repeats, _⟩ | overshoots
    · exact (UInt64.not_le.mpr beyond within).elim
    · exact (isNew repeats).elim
    · exact ⟨overshoots, notMarked⟩
  · rintro ⟨overshoots, notMarked⟩
    obtain ⟨arrives, beyond⟩ := overshoots.mem_arrivals
    exact ⟨⟨arrives, notMarked⟩, beyond⟩

/-- A scoreboard is sound exactly when what overshot was acknowledged in the end. -/
theorem soundScoreboard_iff (packets : List (Packet τ)) :
    SoundScoreboard config source packets ↔
      ∀ segment,
        Occurs (OvershootsAt config source segment) packets →
          Acknowledged config source packets segment := by
  constructor
  · intro sound segment
    rintro ⟨earlier, packet, later, shape, overshoots⟩
    apply sound segment
    rw [mem_scoreboard_iff]
    exact ⟨earlier, packet, later, shape, overshoots.mem_arrivals.1⟩
  · intro overshotAcknowledged segment member
    rw [mem_scoreboard_iff] at member
    obtain ⟨earlier, packet, later, shape, arrives⟩ := member
    rcases cases_of_mem_arrivals config source arrives with
      ⟨isAck, within⟩ | covers | overshoots
    · have among : packet ∈ packets := by
        rw [shape]
        exact List.mem_append_right _ List.mem_cons_self
      left
      rw [state_highestAcked]
      exact UInt64.le_trans within (ack_le_highestAck among isAck)
    · right
      exact ⟨earlier, packet, later, shape, covers⟩
    · apply overshotAcknowledged
      exact ⟨earlier, packet, later, shape, overshoots⟩

/--
How far a scoreboard can be trusted.

It is sound exactly when every segment that the walk of some acknowledgment
overshot to has been acknowledged by now.  An acknowledgment that is no
duplicate adds a segment above its number exactly when its walk overshoots to
that segment and the segment is not marked yet.
-/
theorem scoreboard_sound_iff_overshoots_acknowledged :
    (∀ packets : List (Packet τ),
      SoundScoreboard config source packets ↔
        ∀ segment,
          Occurs (OvershootsAt config source segment) packets →
            Acknowledged config source packets segment) ∧
    ∀ (earlier : List (Packet τ)) (packet : Packet τ) (segment : Offset),
      packet.ack ≠ highestAck source earlier →
        ((.scoreboardAdd segment ∈ notices config source earlier packet ∧
            packet.ack < segment) ↔
          (OvershootsAt config source segment earlier packet ∧
            segment ∉ (state config source earlier).scoreboard)) := by
  constructor
  · intro packets
    exact soundScoreboard_iff config source packets
  · intro earlier packet segment isNew
    exact mem_added_beyond_iff config source isNew segment

end

/-- An acknowledgment of the first byte, sent to the source. -/
def firstByteAck : Packet Float :=
  Flow.sample.acknowledgment 1 none 0.0

/-- Acknowledging one byte marks a segment that lies a segment's length above it. -/
theorem firstByteAck_overshoots :
    ¬ SoundScoreboard ReplayConfig.standard (.v4 1) [firstByteAck] := by
  intro sound
  have marked :
      1446 ∈
        (state ReplayConfig.standard (.v4 1) [firstByteAck]).scoreboard := by
    decide +kernel
  rcases sound 1446 marked with within | covers
  · rw [state_highestAcked] at within
    revert within
    decide
  · rw [← List.nil_append [firstByteAck], Occurs.concat_iff,
      Occurs.nil_iff] at covers
    obtain impossible | ⟨_, repeats, _⟩ := covers
    · exact impossible
    · revert repeats
      decide

section

variable
  [Timescale τ]
  (config : ReplayConfig τ)
  (source : Address)

/-! ## No hole below the highest number -/

/-- Every number up to the highest acknowledged lies in a segment of the scoreboard. -/
def LeavesNoHole (packets : List (Packet τ)) : Prop :=
  ∀ number ≤ (state config source packets).highestAcked.toNat,
    ∃ segment ∈ (state config source packets).scoreboard,
      segment.toNat ≤ number ∧
        number < segment.toNat + SenderState.walkStep config.segmentSize

/-- The walk to a number closes the hole up to it, whatever the packets before left. -/
theorem leavesNoHole_concat
    {earlier : List (Packet τ)}
    {packet : Packet τ}
    (bounded : packet.isAckTo source = true → packet.ack < Offset.last)
    (noHole :
      0 < (state config source earlier).highestAcked →
        LeavesNoHole config source earlier)
    (acknowledged :
      0 < (state config source (earlier ++ [packet])).highestAcked) :
    LeavesNoHole config source (earlier ++ [packet]) := by
  have marked (segment : Offset) :
      segment ∈ (state config source (earlier ++ [packet])).scoreboard ↔
        segment ∈ (state config source earlier).scoreboard ∨
          segment ∈
            (state config source earlier).arrivals config source packet := by
    rw [state_concat, mem_scoreboard_next]
  have raised := (next_effect config source earlier packet).highestAcked
  rw [← state_concat] at raised
  intro number within
  by_cases moves :
      packet.isAckTo source = true ∧
        (state config source earlier).highestAcked < packet.ack
  · obtain ⟨isAck, above⟩ := moves
    rw [raised, if_pos isAck,
      Offset.max_eq_right (UInt64.le_of_lt above)] at within
    -- Below the older number an earlier segment holds it, from there on one passed now.
    by_cases known : number < (state config source earlier).highestAcked.toNat
    · have positive : 0 < (state config source earlier).highestAcked :=
        Nat.lt_of_le_of_lt (Nat.zero_le number) known
      obtain ⟨segment, member, holds⟩ :=
        noHole positive number (Nat.le_of_lt known)
      exact ⟨segment, (marked segment).mpr (Or.inl member), holds⟩
    · obtain ⟨segment, passed, holds⟩ :=
        SenderState.exists_passedSegment (bounded isAck) (Nat.not_lt.mp known)
          within
      refine ⟨segment, (marked segment).mpr (Or.inr ?_), holds⟩
      rw [state_highestAcked] at above passed
      rw [mem_arrivals_iff]
      exact ⟨isAck, Or.inr ⟨above, passed⟩⟩
  · have same :
        (state config source (earlier ++ [packet])).highestAcked =
          (state config source earlier).highestAcked := by
      rw [raised]
      split
      · next isAck =>
          have notAbove := fun above => moves ⟨isAck, above⟩
          exact Offset.max_eq_left (UInt64.not_lt.mp notAbove)
      · rfl
    rw [same] at acknowledged within
    obtain ⟨segment, member, holds⟩ := noHole acknowledged number within
    exact ⟨segment, (marked segment).mpr (Or.inl member), holds⟩

/--
Once anything was acknowledged the scoreboard leaves no hole, as long as no
acknowledgment is of the largest offset, below which every walk stops.
-/
theorem scoreboard_leaves_no_hole
    (packets : List (Packet τ))
    (bounded :
      ∀ packet ∈ packets,
        packet.isAckTo source = true → packet.ack < Offset.last)
    (acknowledged : 0 < (state config source packets).highestAcked) :
    LeavesNoHole config source packets := by
  induction packets using List.reverseRecOn with
  | nil =>
      exact (Nat.lt_irrefl 0 acknowledged).elim
  | append_singleton earlier packet inductionHypothesis =>
      have lastBounded := bounded packet (List.mem_append_right _ (by simp))
      have earlierBounded :
          ∀ packet ∈ earlier,
            packet.isAckTo source = true → packet.ack < Offset.last := by
        intro packet member
        exact bounded packet (List.mem_append_left _ member)
      exact leavesNoHole_concat config source lastBounded
        (inductionHypothesis earlierBounded) acknowledged

end

/-- Acknowledgments of numbers inside of segments, the last but one of them stale. -/
def unalignedAcks : List (Packet Float) :=
  [1, 1000, 5000, 2000, 7001].map fun number => Flow.sample.acknowledgment number none 0.0

/-- Wherever the walks to them began and ended, they leave no hole together. -/
theorem unalignedAcks_leave_no_hole :
    (∀ packet ∈ unalignedAcks,
        packet.isAckTo (.v4 1) = true → packet.ack < Offset.last) ∧
      0 < (state ReplayConfig.standard (.v4 1) unalignedAcks).highestAcked ∧
      LeavesNoHole ReplayConfig.standard (.v4 1) unalignedAcks := by
  have bounded :
      ∀ packet ∈ unalignedAcks,
        packet.isAckTo (.v4 1) = true → packet.ack < Offset.last := by
    decide
  have acknowledged :
      0 < (state ReplayConfig.standard (.v4 1) unalignedAcks).highestAcked := by
    rw [state_highestAcked]
    decide
  exact ⟨bounded, acknowledged,
    scoreboard_leaves_no_hole _ _ _ bounded acknowledged⟩

end Run

end Retrace
