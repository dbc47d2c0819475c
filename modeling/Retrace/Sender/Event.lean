import Retrace.Sender.State
namespace Retrace

/-!
# What happened at the sender

A `Notice` names one thing the replay found the sender, or its peer, to have
done.  An `Event` is a notice together with the state at that moment: for a
send or an acknowledgment the state before it takes effect, for entering
recovery the state after, and for leaving recovery the state before.
-/

/-- One thing that happened at the sender. -/
inductive Notice (τ : Type)
  /-- Data was sent for the first time. -/
  | newSend (packet : Packet τ)
  /-- Data was sent again because acknowledgments showed it missing. -/
  | retransmission (packet : Packet τ)
  /-- Data was sent again because the sender had waited in vain. -/
  | timeout (packet : Packet τ)
  /-- An acknowledgment moved, or belatedly repeated an older number. -/
  | ack (packet : Packet τ)
  /-- An acknowledgment repeated the highest number. -/
  | duplicateAck (packet : Packet τ)
  /-- A duplicate acknowledgment advertised other ranges than the one before. -/
  | sackChange (ranges : List ByteRange)
  /-- The duplicate acknowledgments counted so far lose their meaning. -/
  | duplicatesCleared
  /-- A segment is known to have arrived. -/
  | scoreboardAdd (segment : Offset)
  | recoveryEntered
  | recoveryLeft
deriving DecidableEq

/-- A notice, and the state it was given at. -/
structure Event (τ : Type) where
  notice : Notice τ
  state : SenderState τ

/-- A state, and the events on the way to it, oldest first. -/
structure Outcome (τ : Type) where
  state : SenderState τ
  events : List (Event τ)

end Retrace
