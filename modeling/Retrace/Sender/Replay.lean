import Retrace.Sender.Transmission
namespace Retrace

/-!
# Replaying a capture

A packet matters to the sender in one of two ways: it acknowledges data, or it
carries data.  Everything else only lets the clock move.  A replay feeds the
packets of a capture to the sender's state one after the other; an `Observer`
folds the events it meets on the way into a result of its own and cannot act
back on the state.
-/

variable {τ σ : Type}

/-- How a packet concerns the sender at a source address. -/
inductive Concern
  /-- It travels towards the source and carries an acknowledgment. -/
  | acknowledges
  /-- It travels towards the source without an acknowledgment. -/
  | control
  /-- It leaves the source with payload. -/
  | sends
  /-- It leaves the source without payload. -/
  | bare
  /-- The source is neither of its ends. -/
  | foreign
deriving DecidableEq, Repr

namespace Packet

/-- How the packet concerns the sender at `source`; its destination is looked at first. -/
def concern (packet : Packet τ) (source : Address) : Concern :=
  if packet.dst = source then
    if packet.flags.isAck then .acknowledges else .control
  else if packet.src = source then
    if packet.payload then .sends else .bare
  else
    .foreign

/-- Whether the packet acknowledges to, or carries data from, the sender at `source`. -/
def isRelevant (packet : Packet τ) (source : Address) : Bool :=
  match packet.concern source with
  | .acknowledges | .sends => true
  | .control | .bare | .foreign => false

end Packet

namespace SenderState

/-- One packet of the capture is replayed. -/
def step
    [Timescale τ]
    (config : ReplayConfig τ)
    (source : Address)
    (state : SenderState τ)
    (packet : Packet τ) :
    Outcome τ :=
  let state := { state with time := packet.time }
  match packet.concern source with
  | .acknowledges => state.receive config packet
  | .sends => state.transmit config packet
  | .control | .bare | .foreign => ⟨state, []⟩

end SenderState

/-- A result that grows with every event of a replay. -/
structure Observer (τ σ : Type) where
  /-- The result before any event. -/
  start : σ
  /-- The result after one more event. -/
  observe : σ → Event τ → σ

namespace Observer

/-- Two observers of the same events, the first one served first. -/
def both {σ₁ σ₂ : Type} (first : Observer τ σ₁) (second : Observer τ σ₂) :
    Observer τ (σ₁ × σ₂) where
  start := (first.start, second.start)
  observe results event :=
    (first.observe results.1 event, second.observe results.2 event)

/-- The result of a list of events, starting from an earlier result. -/
def observeAll (observer : Observer τ σ) (result : σ) (events : List (Event τ)) : σ :=
  events.foldl observer.observe result

/-- Keeps every event, oldest first. -/
def recorder : Observer τ (Array (Event τ)) where
  start := #[]
  observe := Array.push

end Observer

/-- Replay packets from a state and an earlier result of an observer. -/
def replayFrom
    [Timescale τ]
    (config : ReplayConfig τ)
    (source : Address)
    (observer : Observer τ σ)
    (state : SenderState τ)
    (result : σ)
    (packets : List (Packet τ)) :
    SenderState τ × σ :=
  packets.foldl
    (fun (state, result) packet =>
      let outcome := state.step config source packet
      (outcome.state, observer.observeAll result outcome.events))
    (state, result)

/-- Replay a capture for the sender at `source`: the last state and the observer's result. -/
def replay
    [Timescale τ]
    (config : ReplayConfig τ)
    (source : Address)
    (observer : Observer τ σ)
    (packets : List (Packet τ)) :
    SenderState τ × σ :=
  replayFrom config source observer SenderState.initial observer.start packets

/-- What an observer makes of a replay. -/
def observeReplay
    [Timescale τ]
    (config : ReplayConfig τ)
    (source : Address)
    (observer : Observer τ σ)
    (packets : List (Packet τ)) :
    σ :=
  (replay config source observer packets).2

end Retrace
