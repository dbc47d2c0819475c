import Retrace.Sender.Replay
namespace Retrace

/-!
# Retransmissions lost again

A retransmission that is followed by a timeout of the same sequence number was
itself lost.
-/

variable {τ : Type}

/-- The retransmissions not yet known to be lost, and those that were. -/
structure LostRetransmissions (τ : Type) where
  /-- The last retransmission of each sequence number since its last timeout. -/
  pending : Std.TreeMap Offset (Packet τ)
  /-- The retransmissions that were lost, in the order of their timeouts. -/
  lost : Array (Packet τ)

namespace LostRetransmissions

/-- A packet was retransmitted. -/
def retransmitted
    (found : LostRetransmissions τ)
    (packet : Packet τ) :
    LostRetransmissions τ :=
  { found with pending := found.pending.insert packet.seq packet }

/-- A sequence number timed out, so its last retransmission was lost. -/
def timedOut (found : LostRetransmissions τ) (seq : Offset) : LostRetransmissions τ :=
  match found.pending[seq]? with
  | none => found
  | some packet =>
      { pending := found.pending.erase seq
        lost := found.lost.push packet }

end LostRetransmissions

/-- Finds the retransmissions that were lost again. -/
def Observer.lostRetransmissions : Observer τ (LostRetransmissions τ) where
  start :=
    { pending := ∅
      lost := #[] }
  observe found event :=
    match event.notice with
    | .retransmission packet => found.retransmitted packet
    | .timeout packet => found.timedOut packet.seq
    | _ => found

end Retrace
