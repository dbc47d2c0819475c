import Retrace.Sender.Replay
namespace Retrace.Observer

/-!
# Timeouts

Observers that count the timeouts of a sender and the time it waited for them.
A wait is the gap between the timed-out send and the send before it, whatever
kind that one was.
-/

variable {τ : Type}

/-- Counts the timeouts. -/
def timeoutCount : Observer τ Nat where
  start := 0
  observe count event :=
    match event.notice with
    | .timeout _ => count + 1
    | _ => count

/-- The time from the last send to a packet that is sent now. -/
def waitFor [Timescale τ] (state : SenderState τ) (packet : Packet τ) : τ :=
  Timescale.sub packet.time state.lastSendTime

/-- Adds up the waits before the timeouts that satisfy a condition. -/
def timeoutWaitIf
    [Timescale τ]
    (counts : SenderState τ → Bool) :
    Observer τ τ where
  start := Timescale.zero
  observe total event :=
    match event.notice with
    | .timeout packet =>
        if counts event.state then
          Timescale.add total (waitFor event.state packet)
        else
          total
    | _ => total

/-- Adds up the waits before all timeouts. -/
def timeoutWait [Timescale τ] : Observer τ τ :=
  timeoutWaitIf fun _ => true

/-- Adds up the waits before the timeouts at which less than a limit had been sent. -/
def timeoutWaitBelow [Timescale τ] (limit : Offset) : Observer τ τ :=
  timeoutWaitIf fun state => decide (state.highestSent < limit)

end Retrace.Observer
