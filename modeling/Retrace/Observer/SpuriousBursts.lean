import Retrace.Sender.Replay
namespace Retrace

/-!
# Bursts of spurious retransmissions

Some retransmissions are known to be spurious.  A burst is an uninterrupted run
of them; another retransmission breaks it off, and a timeout completes it.
-/

variable {τ : Type}

/-- The bursts of spurious retransmissions so far. -/
structure SpuriousBursts where
  /-- The length of the burst that is neither broken off nor complete. -/
  current : Nat
  /-- The length of the longest burst that a timeout completed. -/
  longest : Nat
  /-- All spurious retransmissions. -/
  total : Nat
deriving DecidableEq, Repr

namespace SpuriousBursts

/-- A retransmission, spurious or not. -/
def retransmitted (bursts : SpuriousBursts) (spurious : Bool) : SpuriousBursts :=
  if spurious then
    { bursts with
      current := bursts.current + 1
      total := bursts.total + 1 }
  else
    { bursts with current := 0 }

/-- A timeout. -/
def timedOut (bursts : SpuriousBursts) : SpuriousBursts :=
  { bursts with
    current := 0
    longest := max bursts.longest bursts.current }

end SpuriousBursts

/-- Measures the bursts of spurious retransmissions, their keys given. -/
def Observer.spuriousBursts (spurious : KeySet) : Observer τ SpuriousBursts where
  start :=
    { current := 0
      longest := 0
      total := 0 }
  observe bursts event :=
    match event.notice with
    | .retransmission packet => bursts.retransmitted (spurious.contains packet.key)
    | .timeout _ => bursts.timedOut
    | _ => bursts

end Retrace
