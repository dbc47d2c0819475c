import Retrace.Sender.Replay
namespace Retrace

/-!
# Time spent in recovery

Every recovery is timed from the packet that opened it to the packet that ended
it.  A recovery still open at the end of the capture is not part of the total.
-/

variable {τ : Type}

/-- The recoveries timed so far. -/
structure RecoveryTimes (τ : Type) where
  /-- When the open recovery began. -/
  openedAt : Option τ
  /-- The time spent in the recoveries that have ended. -/
  total : τ
  /-- How many recoveries have ended. -/
  episodes : Nat
deriving DecidableEq, Repr

namespace RecoveryTimes

/-- The open recovery ends at an instant; without one there is nothing to end. -/
def close [Timescale τ] (times : RecoveryTimes τ) (finish : τ) : RecoveryTimes τ :=
  match times.openedAt with
  | none => times
  | some start =>
      { openedAt := none
        total := Timescale.add times.total (Timescale.sub finish start)
        episodes := times.episodes + 1 }

end RecoveryTimes

/-- Times the recoveries of a sender. -/
def Observer.recoveryTimes [Timescale τ] : Observer τ (RecoveryTimes τ) where
  start :=
    { openedAt := none
      total := Timescale.zero
      episodes := 0 }
  observe times event :=
    match event.notice with
    | .recoveryEntered => { times with openedAt := some event.state.time }
    | .recoveryLeft => times.close event.state.time
    | _ => times

end Retrace
