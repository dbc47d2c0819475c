import Retrace.Packet
import Retrace.Timescale
namespace Retrace

/-!
# Traces

A trace is the packets one capture point saw, in the order it saw them.
-/

/-- The packets seen at one capture point, in order. -/
abbrev Trace (τ : Type) := List (Packet τ)

namespace Trace

variable {τ : Type}

/-- The packets that left an address, in order. -/
def sentBy (trace : Trace τ) (source : Address) : Trace τ :=
  trace.filter fun packet => packet.src = source

theorem mem_sentBy
    {trace : Trace τ}
    {source : Address}
    {packet : Packet τ} :
    packet ∈ trace.sentBy source ↔ packet ∈ trace ∧ packet.src = source := by
  simp [sentBy]

/-- How many packets left an address. -/
def countSentBy (trace : Trace τ) (source : Address) : Nat :=
  trace.countP fun packet => packet.src = source

/-- The flow of the first packet, from its source to its destination. -/
def firstFlow? (trace : Trace τ) : Option Flow :=
  trace.head?.map fun packet =>
    { source := packet.src
      destination := packet.dst }

/-- Put an address in front of the first one that it precedes, unless it is there. -/
def insertAddress (address : Address) : List Address → List Address
  | [] => [address]
  | next :: rest =>
      if address = next then
        next :: rest
      else if address.precedes next then
        address :: next :: rest
      else
        next :: insertAddress address rest

/-- The addresses that sent something, in the order of addresses, each once. -/
def sources (trace : Trace τ) : List Address :=
  trace.foldr (fun packet addresses => insertAddress packet.src addresses) []

/-- Whether a packet ends a flow: the destination acknowledges and closes. -/
def closesFlow (flow : Flow) (packet : Packet τ) : Bool :=
  decide (packet.src = flow.destination) &&
    decide (packet.dst = flow.source) &&
    packet.flags.contains (Flags.fin.union Flags.ack)

/-- When the flow was complete: its destination first closed the connection. -/
def completionTime? (trace : Trace τ) (flow : Flow) : Option τ :=
  (trace.find? (closesFlow flow)).map Packet.time

end Trace

end Retrace
