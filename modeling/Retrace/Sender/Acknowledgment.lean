import Retrace.Sender.Event
namespace Retrace.SenderState

/-!
# Acknowledgments

An acknowledgment that repeats the highest number seen so far is a duplicate;
only duplicates have their SACK ranges read.  Every other acknowledgment clears
the duplicate counters; if it lies above the recovery point it ends the open
recovery, and if it does not lie below the highest number it moves that number
and marks the segments on the way as arrived.
-/

variable {τ : Type}

/-- Mark one more segment as arrived; it is reported unless it was marked before. -/
def markSegment
    (marked : SenderState τ × Array (Event τ))
    (segment : Offset) :
    SenderState τ × Array (Event τ) :=
  let (state, reported) := marked
  if segment ∈ state.scoreboard then
    (state, reported)
  else
    ({ state with scoreboard := state.scoreboard.insert segment },
      reported.push ⟨.scoreboardAdd segment, state⟩)

/-- Mark segments as arrived, in order, reporting those not marked before. -/
def markArrived (state : SenderState τ) (segments : List Offset) : Outcome τ :=
  let (marked, reported) := segments.foldl markSegment (state, #[])
  ⟨marked, reported.toList⟩

/-- What was reported before does not bear on what is marked and reported later. -/
theorem foldl_markSegment
    (segments : List Offset)
    (state : SenderState τ)
    (reported : Array (Event τ)) :
    segments.foldl markSegment (state, reported) =
      ((state.markArrived segments).state,
        reported ++ (state.markArrived segments).events.toArray) := by
  induction segments generalizing state reported with
  | nil =>
      simp [markArrived]
  | cons segment rest inductionHypothesis =>
      simp only [markArrived, List.foldl_cons, markSegment]
      split
      · rw [inductionHypothesis state reported, inductionHypothesis state #[]]
        simp
      · rw [inductionHypothesis _ (reported.push _),
          inductionHypothesis _ (#[].push _)]
        simp

/-- Marking nothing changes nothing and reports nothing. -/
@[simp] theorem markArrived_nil (state : SenderState τ) :
    state.markArrived [] = ⟨state, []⟩ :=
  rfl

/-- The first segment is skipped if it is marked already, else marked and reported. -/
theorem markArrived_cons
    (state : SenderState τ)
    (segment : Offset)
    (rest : List Offset) :
    state.markArrived (segment :: rest) =
      if segment ∈ state.scoreboard then
        state.markArrived rest
      else
        let later :=
          { state with
            scoreboard := state.scoreboard.insert segment }.markArrived rest
        ⟨later.state, ⟨.scoreboardAdd segment, state⟩ :: later.events⟩ := by
  rw [markArrived, List.foldl_cons, markSegment]
  by_cases marked : segment ∈ state.scoreboard
  · simp only [marked, ↓reduceIte, foldl_markSegment]
    simp
  · simp only [marked, ↓reduceIte, foldl_markSegment]
    simp

/--
The segments that a cumulative acknowledgment passes on its way between two
numbers, the one it lands in included.

They are counted from the older number, which need not be where the segments of
the flow begin.
-/
def passedSegments (size older newer : Offset) : List Offset :=
  let step := max 1 size
  Offset.progressionBelow older (newer.plusCapped step) step

/-- One more duplicate acknowledgment infers each of the segments to be missing. -/
def countMissing
    (state : SenderState τ)
    (threshold : Nat)
    (segments : List Offset) :
    SenderState τ :=
  segments.foldl
    (fun state segment =>
      let count := state.missingCount segment
      { state with
        missingCounts :=
          state.missingCounts.insert segment
            (if count < threshold then count + 1 else count) })
    state

/-- One more duplicate acknowledgment, counted up to the threshold. -/
def countDuplicate (state : SenderState τ) (threshold : Nat) : SenderState τ :=
  { state with
    duplicateAcks :=
      if state.duplicateAcks < threshold then
        state.duplicateAcks + 1
      else
        state.duplicateAcks }

/-- The duplicate acknowledgments counted so far are forgotten. -/
def clearDuplicates (state : SenderState τ) : SenderState τ :=
  { state with
    duplicateAcks := 0
    missingCounts := ∅ }

/-- No recovery is open. -/
def leaveRecovery (state : SenderState τ) : SenderState τ :=
  { state with
    highestResent := 0
    recoveryPoint := 0
    inRecovery := false }

/-- Take note of the ranges a duplicate acknowledgment advertises. -/
def adoptRanges (state : SenderState τ) (ranges : List ByteRange) : Outcome τ :=
  if ranges = state.sackRanges then
    ⟨state, []⟩
  else
    ⟨{ state with sackRanges := ranges }, [⟨.sackChange ranges, state⟩]⟩

/-- A duplicate acknowledgment arrives. -/
def receiveDuplicate
    (config : ReplayConfig τ)
    (state : SenderState τ)
    (packet : Packet τ) :
    Outcome τ :=
  let ranges := packet.sackRanges
  let arrived := state.markArrived (Sack.coveredSegments ranges config.segmentSize)
  let counted :=
    (arrived.state.countMissing config.duplicateThreshold
      (Sack.missingSegments ranges config.segmentSize)).countDuplicate
        config.duplicateThreshold
  let adopted := counted.adoptRanges ranges
  ⟨adopted.state, ⟨.duplicateAck packet, state⟩ :: (arrived.events ++ adopted.events)⟩

/-- Whether an acknowledgment that is no duplicate ends the open recovery. -/
def endsRecovery (state : SenderState τ) (packet : Packet τ) : Bool :=
  state.inRecovery && decide (state.recoveryPoint < packet.ack)

/-- The highest acknowledgment moves to a number not below it. -/
def advance
    (config : ReplayConfig τ)
    (state : SenderState τ)
    (number : Offset) :
    Outcome τ :=
  { state with highestAcked := number }.markArrived
    (passedSegments config.segmentSize state.highestAcked number)

/-- An acknowledgment that is no duplicate arrives. -/
def receiveNew
    (config : ReplayConfig τ)
    (state : SenderState τ)
    (packet : Packet τ) :
    Outcome τ :=
  let ends := state.endsRecovery packet
  let settled := if ends then state.leaveRecovery else state
  let cleared := settled.clearDuplicates
  let advanced :=
    if packet.ack < cleared.highestAcked then
      ⟨cleared, []⟩
    else
      cleared.advance config packet.ack
  ⟨advanced.state,
    ⟨.ack packet, state⟩ ::
      ((if ends then [⟨.recoveryLeft, state⟩] else []) ++
        ⟨.duplicatesCleared, settled⟩ :: advanced.events)⟩

/-- Whether an acknowledgment repeats the highest number. -/
def isDuplicate (state : SenderState τ) (packet : Packet τ) : Bool :=
  packet.ack == state.highestAcked

/-- An acknowledgment arrives at the sender. -/
def receive
    (config : ReplayConfig τ)
    (state : SenderState τ)
    (packet : Packet τ) :
    Outcome τ :=
  let received :=
    if state.isDuplicate packet then
      state.receiveDuplicate config packet
    else
      state.receiveNew config packet
  { received with
    state := { received.state with lastAckTime := packet.time } }

end Retrace.SenderState
