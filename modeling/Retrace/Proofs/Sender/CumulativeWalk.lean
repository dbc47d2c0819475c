import Retrace.Proofs.Sweep
import Retrace.Proofs.Sender.Effect
namespace Retrace.SenderState

/-!
# The walk of a cumulative acknowledgment

An acknowledgment that moves the highest number marks segments from the older
number up to the newer one.  The walk between the two is a sweep whose steps and
whose bound are both capped, so that near the largest offset neither moves any
more.  It comes to its end all the same; this module says which segments it
visits, what it reports and marks, and that this is what the replay does when
the highest number advances.
-/

variable {τ σ : Type}

/-- Two acknowledgment numbers are walked between, the last segment begun included. -/
def Walks
    (size older newer : Offset)
    (visit : σ → Offset → σ)
    (gathered result : σ) :
    Prop :=
  let step := max 1 size
  (Offset.cappedSweep step (newer.plusCapped step)).Runs visit older gathered result

theorem walks_iff
    {size older newer : Offset}
    {visit : σ → Offset → σ}
    {gathered result : σ} :
    Walks size older newer visit gathered result ↔
      result = (passedSegments size older newer).foldl visit gathered := by
  have positive : 0 < (max 1 size).toNat := by
    rw [toNat_max_one]
    exact walkStep_pos size
  exact (Offset.cappedSweep_runs positive older _ visit gathered).iff_eq

/-- A walk that marks every segment marks those passed. -/
theorem walks_marking_iff
    {state : SenderState τ}
    {size older newer : Offset}
    {marked : SenderState τ × Array (Event τ)} :
    Walks size older newer markSegment (state, #[]) marked ↔
      marked =
        ((state.markArrived (passedSegments size older newer)).state,
          (state.markArrived (passedSegments size older newer)).events.toArray) := by
  rw [walks_iff, foldl_markSegment, Array.empty_append]

/--
The walk of a cumulative acknowledgment ends, and visits one progression.

With any segment size, zero included, it visits the terms counted from the older
number that lie less than one step above the newer number and below the largest
offset, in ascending order.  It reports and adds those that were not on the
scoreboard and changes nothing else.  The replay does the same when the highest
number advances.
-/
theorem cumulative_walk_exact
    (state : SenderState τ)
    (size older newer : Offset) :
    ∃ (visited : List Offset) (outcome : Outcome τ),
      (∀ taken, Walks size older newer Offset.Sweep.takeDown [] taken ↔ taken = visited) ∧
      visited.Pairwise (· < ·) ∧
      (∀ offset,
        offset ∈ visited ↔
          offset.toNat < min (newer.toNat + walkStep size) Offset.last.toNat ∧
            ∃ index, offset.toNat = older.toNat + index * walkStep size) ∧
      (∀ marked,
        Walks size older newer markSegment (state, #[]) marked ↔
          marked = (outcome.state, outcome.events.toArray)) ∧
      outcome.events.map Event.notice =
        (visited.filter (· ∉ state.scoreboard)).map Notice.scoreboardAdd ∧
      (∀ segment,
        segment ∈ outcome.state.scoreboard ↔
          segment ∈ state.scoreboard ∨ segment ∈ visited) ∧
      outcome.state = { state with scoreboard := outcome.state.scoreboard } ∧
      ∀ (config : ReplayConfig τ) marked,
        Walks config.segmentSize state.highestAcked newer markSegment
            ({ state with highestAcked := newer }, #[]) marked ↔
          marked =
            ((state.advance config newer).state,
              (state.advance config newer).events.toArray) := by
  have ascending := passedSegments_ascending size older newer
  refine ⟨passedSegments size older newer,
    state.markArrived (passedSegments size older newer), ?_, ascending,
    fun _ => mem_passedSegments, fun _ => walks_marking_iff, ?_, ?_, ?_,
    fun _ _ => walks_marking_iff⟩
  · intro taken
    rw [walks_iff, Offset.Sweep.foldl_takeDown, List.nil_append]
  · rw [markArrived_notices, unmarked_eq_filter (ascending.imp UInt64.ne_of_lt)]
  · intro segment
    rw [markArrived_state]
    exact mem_boardAfter
  · rw [markArrived_state]

end Retrace.SenderState
