import Retrace.Metric
import Retrace.Observer.EventLog
import Retrace.Observer.InFlight
import Retrace.Observer.SackRetransmissions
import Retrace.Sender.History
namespace Retrace

/-!
# Observers that share a replay

A pair of observers is an observer, so pairs nest and one replay can serve any
number of them.  Each finds in a shared replay what it finds in one of its own:
a pair hands every event to both its sides, and an observed replay ends in a
state that no observer has a say in.  The metrics of a flow, which replay the
sender's trace once for each, can so be read off a single replay.
-/

variable {τ : Type}

namespace Observer

variable {σ₁ σ₂ : Type}

/-- A pair makes of events what its two sides make of them. -/
theorem observeAll_both
    (first : Observer τ σ₁)
    (second : Observer τ σ₂)
    (results : σ₁ × σ₂)
    (events : List (Event τ)) :
    (first.both second).observeAll results events =
      (first.observeAll results.1 events,
        second.observeAll results.2 events) := by
  induction events generalizing results with
  | nil =>
      rfl
  | cons event rest inductionHypothesis =>
      exact inductionHypothesis ((first.both second).observe results event)

end Observer

/-- Observers joined in pairs, in any nesting and order. -/
inductive Nest (τ : Type) : Type → Type 1
  | single
      {σ : Type}
      (observer : Observer τ σ) :
      Nest τ σ
  | pair
      {σ₁ σ₂ : Type}
      (first : Nest τ σ₁)
      (second : Nest τ σ₂) :
      Nest τ (σ₁ × σ₂)

namespace Nest

variable {σ : Type}

/-- The nest as one observer. -/
def observer {σ : Type} : Nest τ σ → Observer τ σ
  | single observer => observer
  | pair first second => first.observer.both second.observer

section

variable
  [Timescale τ]
  (config : ReplayConfig τ)
  (source : Address)

/--
What the observers of a nest find when each has a replay of its own, all from
one state and each from its own earlier result.
-/
def findApart
    (state : SenderState τ)
    (packets : List (Packet τ)) :
    {σ : Type} → Nest τ σ → σ → σ
  | _, single observer, result =>
      (replayFrom config source observer state result packets).2
  | _, pair first second, results =>
      (first.findApart state packets results.1,
        second.findApart state packets results.2)

/-- What the observers of a nest find apart is what the nest makes of the replay's history. -/
theorem findApart_eq
    (nest : Nest τ σ)
    (state : SenderState τ)
    (packets : List (Packet τ))
    (result : σ) :
    nest.findApart config source state packets result =
      nest.observer.observeAll result (state.history config source packets) := by
  induction nest with
  | single observer =>
      rw [findApart, replayFrom_eq]
      rfl
  | pair first second firstHypothesis secondHypothesis =>
      rw [findApart, firstHypothesis, secondHypothesis]
      exact (Observer.observeAll_both _ _ result _).symm

end

end Nest

/-! ## The observers of a flow -/

/-- What the ten observers find out about a sender. -/
structure Findings where
  lostRetransmissions : LostRetransmissions Float
  timeoutWait : Float
  /-- The waits before the timeouts with unsent data left. -/
  timeoutWaitUnsent : Float
  timeoutCount : Nat
  recoveryTimes : RecoveryTimes Float
  spuriousBursts : SpuriousBursts
  inFlight : InFlight Float
  sackRetransmissions : Array (Packet Float)
  earlyRetransmissions : Array (Packet Float)
  eventLog : Array (LogEntry Float)

namespace FlowRun

variable
  (run : FlowRun)
  (lost : KeySet)

/-- The findings of ten replays, one for each observer. -/
def findingsApart : Findings where
  lostRetransmissions := run.observe Observer.lostRetransmissions
  timeoutWait := run.observe Observer.timeoutWait
  timeoutWaitUnsent := run.observe (Observer.timeoutWaitBelow run.unsentLimit)
  timeoutCount := run.observe Observer.timeoutCount
  recoveryTimes := run.observe Observer.recoveryTimes
  spuriousBursts := run.observe (Observer.spuriousBursts run.spuriousKeys)
  inFlight := run.observe (Observer.inFlight lost)
  sackRetransmissions := run.observe Observer.sackRetransmissions
  earlyRetransmissions := run.observe Observer.earlyRetransmissions
  eventLog := run.observe Observer.eventLog

/-- The findings of one replay that the ten observers share. -/
def findingsTogether : Findings :=
  let resends :=
    Observer.lostRetransmissions.both
      ((Observer.timeoutWait.both (Observer.timeoutWaitBelow run.unsentLimit)).both
        Observer.timeoutCount)
  let recoveries :=
    Observer.recoveryTimes.both (Observer.spuriousBursts run.spuriousKeys)
  let acknowledged :=
    (Observer.inFlight lost).both
      (Observer.sackRetransmissions.both Observer.earlyRetransmissions)
  let (((found, ((wait, waitUnsent), count)), (times, bursts)),
      ((flight, (sack, early)), log)) :=
    run.observe ((resends.both recoveries).both (acknowledged.both Observer.eventLog))
  { lostRetransmissions := found
    timeoutWait := wait
    timeoutWaitUnsent := waitUnsent
    timeoutCount := count
    recoveryTimes := times
    spuriousBursts := bursts
    inFlight := flight
    sackRetransmissions := sack
    earlyRetransmissions := early
    eventLog := log }

/-- The value of a metric, read off findings if it takes a replay to measure. -/
def measureFrom? (findings : Findings) : Metric → Option Float
  | .rtoWaitTime => some findings.timeoutWait
  | .rtoWaitTimeForUnsent => some findings.timeoutWaitUnsent
  | .rtoCount => some (Float.ofNat findings.timeoutCount)
  | .recoveryTime => some findings.recoveryTimes.total
  | .droppedRetransmittedPackets =>
      some (Float.ofNat findings.lostRetransmissions.lost.size)
  | .longestSpuriousRetransmissionsBeforeRto =>
      some (Float.ofNat findings.spuriousBursts.longest)
  | .spuriousRetransmissionsFromReordering =>
      some (Float.ofNat findings.spuriousBursts.total)
  | metric => run.measure? metric

theorem observe_both
    {σ₁ σ₂ : Type}
    (first : Observer Float σ₁)
    (second : Observer Float σ₂) :
    run.observe (first.both second) =
      (run.observe first, run.observe second) := by
  simp only [observe, observeReplay, replay, replayFrom_eq, Observer.observeAll_both]
  rfl

theorem findingsTogether_eq :
    run.findingsTogether lost = run.findingsApart lost := by
  simp only [findingsTogether, observe_both, findingsApart]

theorem measureFrom?_findingsApart (metric : Metric) :
    run.measureFrom? (run.findingsApart lost) metric = run.measure? metric := by
  cases metric <;> rfl

end FlowRun

/--
Observers find together what they find apart.

A replay for a pair leaves each side with what a replay for it alone would leave
it with, whatever the two had found before, and all three end in one state.  So
it is with any number of observers, however they are nested and ordered.  In
particular the ten observers of a flow find in a single replay what they find in
ten, and every metric can be read off that.
-/
theorem observers_together_as_apart :
    (∀ {τ σ₁ σ₂ : Type} [Timescale τ] (config : ReplayConfig τ) (source : Address)
        (first : Observer τ σ₁) (second : Observer τ σ₂)
        (state : SenderState τ) (results : σ₁ × σ₂) (packets : List (Packet τ)),
      let together :=
        replayFrom config source (first.both second) state results packets
      let firstAlone := replayFrom config source first state results.1 packets
      let secondAlone := replayFrom config source second state results.2 packets
      together.2 = (firstAlone.2, secondAlone.2) ∧
        together.1 = firstAlone.1 ∧
        together.1 = secondAlone.1) ∧
    (∀ {τ σ ρ : Type} [Timescale τ] (config : ReplayConfig τ) (source : Address)
        (nest : Nest τ σ) (other : Observer τ ρ)
        (state : SenderState τ) (result : σ) (otherResult : ρ)
        (packets : List (Packet τ)),
      let together := replayFrom config source nest.observer state result packets
      together.2 = nest.findApart config source state packets result ∧
        together.1 =
          (replayFrom config source other state otherResult packets).1) ∧
    ∀ (run : FlowRun) (lost : KeySet),
      run.findingsTogether lost = run.findingsApart lost ∧
        ∀ metric : Metric,
          run.measureFrom? (run.findingsTogether lost) metric =
            run.measure? metric := by
  refine ⟨?_, ?_, ?_⟩
  · intro _ _ _ _ config source first second state results packets
    simp only [replayFrom_eq, Observer.observeAll_both, and_self]
  · intro _ _ _ _ config source nest other state result otherResult packets
    simp only [replayFrom_eq, Nest.findApart_eq, and_self]
  · intro run lost
    refine ⟨run.findingsTogether_eq lost, fun metric => ?_⟩
    rw [run.findingsTogether_eq lost, run.measureFrom?_findingsApart lost metric]

end Retrace
