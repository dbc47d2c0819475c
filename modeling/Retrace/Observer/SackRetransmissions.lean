import Retrace.Sender.Replay
namespace Retrace.Observer

/-!
# Retransmissions triggered by selective acknowledgments

A sender may retransmit a segment as soon as enough bytes above it have been
acknowledged selectively.  Two observers collect such retransmissions: those of
a segment that reached the customary three duplicate acknowledgments, and those
made before three duplicate acknowledgments had arrived, on the strength of
three selectively acknowledged segments.
-/

variable {τ : Type}

/-- The customary number of duplicate acknowledgments, and of segments, that mean loss. -/
def customaryThreshold : Nat := 3

/-- The customary length of a segment. -/
def customarySegment : Offset := 1446

/-- Collects the retransmissions made at states that satisfy a condition. -/
def retransmissionsIf
    (wanted : SenderState τ → Packet τ → Bool) :
    Observer τ (Array (Packet τ)) where
  start := #[]
  observe found event :=
    match event.notice with
    | .retransmission packet =>
        if wanted event.state packet then found.push packet else found
    | _ => found

/-- Collects the retransmissions of segments inferred missing by three duplicates. -/
def sackRetransmissions : Observer τ (Array (Packet τ)) :=
  retransmissionsIf fun state packet =>
    state.missingCount packet.seq == customaryThreshold

/-- Collects the retransmissions that the advertised ranges alone account for. -/
def earlyRetransmissions : Observer τ (Array (Packet τ)) :=
  retransmissionsIf fun state _ =>
    state.duplicateAcks != customaryThreshold &&
      decide (customaryThreshold ≤ Sack.segmentCount state.sackRanges customarySegment)

end Retrace.Observer
