import Retrace.Observer.Timeouts
import Retrace.Proofs.Sender.NewData
namespace Retrace

/-!
# Timeouts and the waits before them

The observers read the time of the last send and the highest number sent off the
state that a timeout is reported at.  That state is the one before the packet
counts as sent, so a wait reaches back to the send before, whichever kind that
was, and the highest number is that of the earlier sends alone.
-/

variable {τ σ : Type}

/-- Events that an observer takes no notice of can be left out. -/
theorem Observer.observeAll_filter
    (observer : Observer τ σ)
    {keeps : Event τ → Bool}
    (unnoticed :
      ∀ (result : σ) (event : Event τ),
        keeps event = false → observer.observe result event = result)
    (result : σ)
    (events : List (Event τ)) :
    observer.observeAll result (events.filter keeps) =
      observer.observeAll result events := by
  rw [observeAll, List.foldl_filter, observeAll]
  congr 1
  funext result event
  cases kept : keeps event with
  | true =>
      rfl
  | false =>
      exact (unnoticed result event kept).symm

/-- Every send lies below a limit, and the limit is not zero. -/
def SentBelow (source : Address) (limit : Offset) (packets : List (Packet τ)) : Prop :=
  0 < limit ∧ ∀ packet ∈ sends source packets, packet.seq < limit

theorem highestSeq_lt_iff
    {source : Address}
    {limit : Offset}
    {packets : List (Packet τ)} :
    highestSeq source packets < limit ↔ SentBelow source limit packets := by
  rw [highestSeq, Offset.highest_lt_iff, List.forall_mem_map, SentBelow]

instance
    (source : Address)
    (limit : Offset)
    (packets : List (Packet τ)) :
    Decidable (SentBelow source limit packets) :=
  decidable_of_iff _ highestSeq_lt_iff

/-- The time from the last send before a packet to the packet. -/
def sinceLastSend
    [Timescale τ]
    (source : Address)
    (moment : List (Packet τ) × Packet τ) :
    τ :=
  Timescale.sub moment.2.time (lastSendTime source moment.1)

namespace Run

variable
  [Timescale τ]
  (config : ReplayConfig τ)
  (source : Address)

/-- A packet, after the earlier ones, is reported as timed out. -/
def TimesOut (earlier : List (Packet τ)) (packet : Packet τ) : Prop :=
  .timeout packet ∈ notices config source earlier packet

theorem timesOut_iff
    {earlier : List (Packet τ)}
    {packet : Packet τ} :
    TimesOut config source earlier packet ↔
      packet.isSend source = true ∧
        packet.seq ≤ highestSeq source earlier ∧
        timedOut config source earlier packet = true := by
  rw [TimesOut, mem_sendNotices_iff config source rfl, verdict, ← UInt64.not_lt]
  by_cases above : highestSeq source earlier < packet.seq
  · simp [above]
  · cases timedOut config source earlier packet <;>
      simp [above]

instance (earlier : List (Packet τ)) (packet : Packet τ) :
    Decidable (TimesOut config source earlier packet) :=
  decidable_of_iff _ (timesOut_iff config source).symm

/-- The packets reported as timed out, each with those before it, in order. -/
def timeouts (packets : List (Packet τ)) : List (List (Packet τ) × Packet τ) :=
  (moments packets).filter fun moment => TimesOut config source moment.1 moment.2

theorem timeouts_concat
    (earlier : List (Packet τ))
    (packet : Packet τ) :
    timeouts config source (earlier ++ [packet]) =
      timeouts config source earlier ++
        if TimesOut config source earlier packet then [(earlier, packet)] else [] := by
  by_cases timesOut : TimesOut config source earlier packet <;>
    simp [timeouts, timesOut]

/-- The state that a packet finds, the clock set and all else as the earlier ones left it. -/
def stateAt (earlier : List (Packet τ)) (packet : Packet τ) : SenderState τ :=
  { state config source earlier with time := packet.time }

theorem stateAt_highestSent
    (earlier : List (Packet τ))
    (packet : Packet τ) :
    (stateAt config source earlier packet).highestSent = highestSeq source earlier :=
  state_highestSent config source earlier

theorem stateAt_lastSendTime
    (earlier : List (Packet τ))
    (packet : Packet τ) :
    (stateAt config source earlier packet).lastSendTime = lastSendTime source earlier :=
  state_lastSendTime config source earlier

/-- A packet that is sent is reported at the state it finds. -/
theorem sendEvents_next
    (earlier : List (Packet τ))
    (packet : Packet τ) :
    (next config source earlier packet).events.filter Event.isSend =
      if packet.isSend source then
        [(stateAt config source earlier packet).sendEvent config packet]
      else
        [] :=
  (next_effect config source earlier packet).sendEvents_eq

/-- An observer of timeouts observes at each packet one timeout or none. -/
theorem observeReplay_concat_timeout
    {observer : Observer τ σ}
    (unnoticed :
      ∀ (result : σ) (event : Event τ),
        (∀ packet, event.notice ≠ .timeout packet) →
          observer.observe result event = result)
    (earlier : List (Packet τ))
    (packet : Packet τ) :
    observeReplay config source observer (earlier ++ [packet]) =
      let result := observeReplay config source observer earlier
      if TimesOut config source earlier packet then
        observer.observe result ⟨.timeout packet, stateAt config source earlier packet⟩
      else
        result := by
  have onlySends :
      ∀ (result : σ) (event : Event τ),
        event.isSend = false → observer.observe result event = result := by
    intro result event notSend
    apply unnoticed
    intro packet isTimeout
    rw [Event.isSend, isTimeout] at notSend
    cases notSend
  rw [observeReplay_concat, ← observer.observeAll_filter onlySends, sendEvents_next]
  simp only [timesOut_iff]
  cases packet.isSend source with
  | false =>
      rfl
  | true =>
      rw [SenderState.sendEvent, stateAt_highestSent, stateAt, isTimeout_eq_timedOut]
      by_cases above : highestSeq source earlier < packet.seq
      · simp [above, ← UInt64.not_lt, Observer.observeAll, unnoticed]
      · cases timedOut config source earlier packet <;>
          simp [above, ← UInt64.not_lt, Observer.observeAll, unnoticed]

end Run

namespace Observer

theorem timeoutWaitIf_unnoticed
    [Timescale τ]
    (counts : SenderState τ → Bool)
    (waited : τ)
    (event : Event τ)
    (noTimeout : ∀ packet, event.notice ≠ .timeout packet) :
    (timeoutWaitIf counts).observe waited event = waited := by
  obtain ⟨notice, state⟩ := event
  cases notice with
  | timeout packet =>
      exact (noTimeout packet rfl).elim
  | _ =>
      rfl

theorem timeoutCount_unnoticed
    (count : Nat)
    (event : Event τ)
    (noTimeout : ∀ packet, event.notice ≠ .timeout packet) :
    timeoutCount.observe count event = count := by
  obtain ⟨notice, state⟩ := event
  cases notice with
  | timeout packet =>
      exact (noTimeout packet rfl).elim
  | _ =>
      rfl

variable
  [Timescale τ]
  (config : ReplayConfig τ)
  (source : Address)

/-- The waits added up are those before the timeouts that satisfy the condition. -/
theorem timeoutWaitIf_eq_total
    (counts : SenderState τ → Bool)
    (countsAfter : List (Packet τ) → Bool)
    (told :
      ∀ (earlier : List (Packet τ)) (packet : Packet τ),
        counts (Run.stateAt config source earlier packet) = countsAfter earlier)
    (packets : List (Packet τ)) :
    observeReplay config source (timeoutWaitIf counts) packets =
      Timescale.total
        (((Run.timeouts config source packets).filter
          fun moment => countsAfter moment.1).map (sinceLastSend source)) := by
  induction packets using List.reverseRecOn with
  | nil =>
      rfl
  | append_singleton earlier packet inductionHypothesis =>
      rw [Run.observeReplay_concat_timeout config source (timeoutWaitIf_unnoticed counts),
        Run.timeouts_concat, inductionHypothesis]
      by_cases timesOut : Run.TimesOut config source earlier packet
      · cases counted : countsAfter earlier with
        | false =>
            simp [timesOut, timeoutWaitIf, told, counted]
        | true =>
            simp [timesOut, timeoutWaitIf, told, counted, Timescale.total_concat,
              waitFor, Run.stateAt_lastSendTime, sinceLastSend]
      · simp [timesOut]

/-- All waits are those before all timeouts. -/
theorem timeoutWait_eq_total (packets : List (Packet τ)) :
    observeReplay config source timeoutWait packets =
      Timescale.total
        ((Run.timeouts config source packets).map (sinceLastSend source)) := by
  have waited :=
    timeoutWaitIf_eq_total config source (fun _ => true) (fun _ => true)
      (fun _ _ => rfl) packets
  rwa [List.filter_true] at waited

/-- The waits below a limit are those before the timeouts with every earlier send below it. -/
theorem timeoutWaitBelow_eq_total
    (limit : Offset)
    (packets : List (Packet τ)) :
    observeReplay config source (timeoutWaitBelow limit) packets =
      Timescale.total
        (((Run.timeouts config source packets).filter
          fun moment => SentBelow source limit moment.1).map (sinceLastSend source)) := by
  apply timeoutWaitIf_eq_total config source _
    (fun earlier => decide (SentBelow source limit earlier))
  intro earlier packet
  apply decide_eq_decide.mpr
  rw [Run.stateAt_highestSent]
  exact highestSeq_lt_iff

theorem timeoutCount_eq_length (packets : List (Packet τ)) :
    observeReplay config source timeoutCount packets =
      (Run.timeouts config source packets).length := by
  induction packets using List.reverseRecOn with
  | nil =>
      rfl
  | append_singleton earlier packet inductionHypothesis =>
      rw [Run.observeReplay_concat_timeout config source timeoutCount_unnoticed,
        Run.timeouts_concat, inductionHypothesis]
      by_cases timesOut : Run.TimesOut config source earlier packet <;>
        simp [timesOut, timeoutCount]

end Observer

/--
The waits are added up as the run has them.

Each packet reported as timed out adds the time since the last send before it,
of whatever kind that was, or since zero if there was none.  Below a limit only
those timeouts count before which every send lay below it, and none below zero.
As many timeouts are counted as there are waits.
-/
structure AddsUpWaits
    [Timescale τ]
    (config : ReplayConfig τ)
    (source : Address) : Prop where
  waited :
    ∀ packets : List (Packet τ),
      observeReplay config source Observer.timeoutWait packets =
        Timescale.total
          ((Run.timeouts config source packets).map (sinceLastSend source))
  waitedBelow :
    ∀ (limit : Offset) (packets : List (Packet τ)),
      observeReplay config source (Observer.timeoutWaitBelow limit) packets =
        Timescale.total
          (((Run.timeouts config source packets).filter
            fun moment => SentBelow source limit moment.1).map (sinceLastSend source))
  belowZero :
    ∀ packets : List (Packet τ),
      observeReplay config source (Observer.timeoutWaitBelow 0) packets =
        Timescale.zero
  counted :
    ∀ packets : List (Packet τ),
      observeReplay config source Observer.timeoutCount packets =
        (Run.timeouts config source packets).length

/-- The waits are added up as every run has them. -/
theorem waits_added_up
    [Timescale τ]
    (config : ReplayConfig τ)
    (source : Address) :
    AddsUpWaits config source := by
  constructor
  case waited =>
    exact Observer.timeoutWait_eq_total config source
  case waitedBelow =>
    exact Observer.timeoutWaitBelow_eq_total config source
  case belowZero =>
    intro packets
    have noneBelow :
        ∀ moment ∈ Run.timeouts config source packets,
          ¬ decide (SentBelow source 0 moment.1) = true := by
      intro moment _ sentBelow
      exact UInt64.not_lt_zero (of_decide_eq_true sentBelow).1
    rw [Observer.timeoutWaitBelow_eq_total, List.filter_eq_nil_iff.mpr noneBelow]
    rfl
  case counted =>
    exact Observer.timeoutCount_eq_length config source

end Retrace
