import Retrace.Analysis.Delivery
import Retrace.Observer.SackRetransmissions
namespace Retrace.Analysis

/-!
# Retransmissions, spurious and others

When two copies of the same data are delivered, the later one was not needed.
Of these, the copies of data that was also out of order were presumably sent
because the reordering looked like loss.

Which retransmissions selective acknowledgments called for is seen in a replay of
the sender's trace with the standard constants, by the observers of these.
-/

variable {τ : Type}

/-- The packets whose sequence number occurred before, the numbers in `seen` included. -/
def laterCopies (seen : Std.TreeSet Offset) : Trace τ → Trace τ
  | [] => []
  | packet :: rest =>
      if packet.seq ∈ seen then
        packet :: laterCopies seen rest
      else
        laterCopies (seen.insert packet.seq) rest

/-- The delivered packets whose data had been delivered before. -/
def spurious (sender receiver : Trace τ) (source : Address) : Trace τ :=
  laterCopies ∅ (delivered sender receiver source)

/-- How many occurrences of a sequence number it takes before they count. -/
def countdownStart : Nat := 2

/--
The packets at which the countdown of their sequence number stands at zero.

A countdown starts at the first packet of its number and never falls below zero.
-/
def countedDown (remaining : Std.TreeMap Offset Nat) : Trace τ → Trace τ
  | [] => []
  | packet :: rest =>
      let left := remaining.getD packet.seq countdownStart - 1
      let later := countedDown (remaining.insert packet.seq left) rest
      if left = 0 then packet :: later else later

/-- The spurious retransmissions of data that was delivered out of order. -/
def spuriousByReordering (sender receiver : Trace τ) (source : Address) : Trace τ :=
  let reordered : Std.TreeSet Offset :=
    Std.TreeSet.ofList ((outOfOrder sender receiver source).map Packet.seq)
  countedDown ∅
    ((delivered sender receiver source).filter fun packet =>
      reordered.contains packet.seq)

/-- The retransmissions of segments that three duplicate acknowledgments showed missing. -/
def sackFastRetransmits (sender : Trace Float) (source : Address) : Trace Float :=
  (observeReplay ReplayConfig.standard source Observer.sackRetransmissions sender).toList

/-- The early retransmissions that turned out to be spurious. -/
def earlySpuriousRetransmits
    (sender receiver : Trace Float)
    (source : Address) :
    Trace Float :=
  let known := KeySet.ofPackets (spurious sender receiver source)
  (observeReplay ReplayConfig.standard source Observer.earlyRetransmissions
    sender).toList.filter fun packet => known.contains packet.key

end Retrace.Analysis
