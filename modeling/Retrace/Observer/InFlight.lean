import Retrace.Sender.Replay
namespace Retrace

/-!
# Segments in flight

With the lost packets known, the number of segments on their way can be
followed exactly: every send that arrives adds one, every acknowledgment takes
one away, and the number never falls below zero.
-/

variable {τ : Type}

/-- The segments in flight, now and at every change. -/
structure InFlight (τ : Type) where
  count : Nat
  /-- The count after every change, with the time of the packet that changed it. -/
  samples : Array (τ × Nat)
deriving Repr

namespace InFlight

/-- The count becomes `count` at an instant. -/
def become (flight : InFlight τ) (time : τ) (count : Nat) : InFlight τ where
  count := count
  samples := flight.samples.push (time, count)

/-- A packet was sent; a lost one never was in flight. -/
def sent (lost : KeySet) (flight : InFlight τ) (packet : Packet τ) : InFlight τ :=
  if packet.key ∈ lost then
    flight
  else
    flight.become packet.time (flight.count + 1)

/-- An acknowledgment arrived. -/
def acknowledged (flight : InFlight τ) (packet : Packet τ) : InFlight τ :=
  flight.become packet.time (flight.count - 1)

end InFlight

/-- Follows the number of segments in flight, the keys of the lost packets given. -/
def Observer.inFlight (lost : KeySet) : Observer τ (InFlight τ) where
  start :=
    { count := 0
      samples := #[] }
  observe flight event :=
    match event.notice with
    | .newSend packet | .retransmission packet | .timeout packet => flight.sent lost packet
    | .ack packet | .duplicateAck packet => flight.acknowledged packet
    | _ => flight

end Retrace
