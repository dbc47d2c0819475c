import Std.Data.TreeMap
import Retrace.Sack
import Retrace.Timescale
namespace Retrace

/-!
# What is known about the sender

The replay reconstructs the sender's side of a connection from packets alone.
`SenderState` is everything it remembers between two packets; `ReplayConfig`
holds the constants it decides by.
-/

/-- The constants a replay decides by. -/
structure ReplayConfig (τ : Type) where
  /-- The length of a full segment. -/
  segmentSize : Offset
  /-- Duplicate acknowledgments are counted up to this number. -/
  duplicateThreshold : Nat
  /-- A repeated send later than this after the last acknowledgment is a timeout. -/
  idleLimit : τ
  /-- Two instants at most this far apart count as the same. -/
  tolerance : τ

namespace ReplayConfig

/-- The constants of the measured senders: 1446-byte segments and half a second of silence. -/
def standard : ReplayConfig Float where
  segmentSize := 1446
  duplicateThreshold := 3
  idleLimit := 0.5
  tolerance := 0.001

end ReplayConfig

/-- Everything the replay remembers of the sender, at one instant. -/
structure SenderState (τ : Type) where
  /-- When the packet at hand was captured. -/
  time : τ
  /-- The highest sequence number sent as new data. -/
  highestSent : Offset
  /-- The highest sequence number retransmitted in the open recovery, or zero. -/
  highestResent : Offset
  /-- The highest sequence number sent when the open recovery began, or zero. -/
  recoveryPoint : Offset
  inRecovery : Bool
  /-- How many recoveries have begun. -/
  recoveryNumber : Nat
  /-- The highest cumulative acknowledgment. -/
  highestAcked : Offset
  /-- Consecutive duplicate acknowledgments, counted up to the threshold. -/
  duplicateAcks : Nat
  /-- The ranges of the last duplicate acknowledgment. -/
  sackRanges : List ByteRange
  /-- For a segment inferred missing: the duplicate acknowledgments that say so. -/
  missingCounts : Std.TreeMap Offset Nat
  /-- Segments known to have arrived, cumulatively or selectively. -/
  scoreboard : Std.TreeSet Offset
  /-- When each sequence number was last sent. -/
  sentTimes : Std.TreeMap Offset τ
  lastSendTime : τ
  lastAckTime : τ
  /-- For a retransmitted sequence number: the recovery of its last retransmission. -/
  retransmitted : Std.TreeMap Offset Nat

namespace SenderState

variable {τ : Type}

/-- Nothing was seen yet. -/
def initial [Timescale τ] : SenderState τ where
  time := Timescale.zero
  highestSent := 0
  highestResent := 0
  recoveryPoint := 0
  inRecovery := false
  recoveryNumber := 0
  highestAcked := 0
  duplicateAcks := 0
  sackRanges := []
  missingCounts := ∅
  scoreboard := ∅
  sentTimes := ∅
  lastSendTime := Timescale.zero
  lastAckTime := Timescale.zero
  retransmitted := ∅

/-- How many duplicate acknowledgments infer that a segment is missing. -/
def missingCount (state : SenderState τ) (segment : Offset) : Nat :=
  state.missingCounts.getD segment 0

end SenderState

end Retrace
