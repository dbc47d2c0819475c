import Mathlib.Algebra.Order.Group.Abs
import Mathlib.Algebra.Order.Ring.Rat
import Retrace.Proofs.Sender.Classification
namespace Retrace

/-!
# Runs at another clock

A step of the replay looks at the time in one place: to tell whether data sent
again follows a timeout.  `SenderState.timeless` forgets all times, and a step
commutes with it once that answer is given.  So two runs over packets that
differ in their times alone report the same, times apart, as long as they give
the same answers.  When all packets are delayed by one duration, they do from
the first acknowledgment on; before it the last acknowledgment counts as one at
time zero, and the clock tells.
-/

variable {τ : Type}

/-! ## Forgetting times -/

namespace Packet

def timeless (packet : Packet τ) : Packet Unit :=
  { packet with time := () }

/-- A packet captured later by a duration. -/
def delay [Timescale τ] (duration : τ) (packet : Packet τ) : Packet τ :=
  { packet with time := Timescale.add packet.time duration }

end Packet

def Notice.timeless : Notice τ → Notice Unit
  | .newSend packet => .newSend packet.timeless
  | .retransmission packet => .retransmission packet.timeless
  | .timeout packet => .timeout packet.timeless
  | .ack packet => .ack packet.timeless
  | .duplicateAck packet => .duplicateAck packet.timeless
  | .sackChange ranges => .sackChange ranges
  | .duplicatesCleared => .duplicatesCleared
  | .scoreboardAdd segment => .scoreboardAdd segment
  | .recoveryEntered => .recoveryEntered
  | .recoveryLeft => .recoveryLeft

/-- The constants of a replay that are no times. -/
def ReplayConfig.timeless (config : ReplayConfig τ) : ReplayConfig Unit :=
  { config with
    idleLimit := ()
    tolerance := () }

/-- A state without its times. -/
def SenderState.timeless (state : SenderState τ) : SenderState Unit :=
  { state with
    time := ()
    sentTimes := ∅
    lastSendTime := ()
    lastAckTime := () }

def Event.timeless (event : Event τ) : Event Unit where
  notice := event.notice.timeless
  state := event.state.timeless

def Outcome.timeless (outcome : Outcome τ) : Outcome Unit where
  state := outcome.state.timeless
  events := outcome.events.map Event.timeless

@[simp] theorem Outcome.timeless_state (outcome : Outcome τ) :
    outcome.timeless.state = outcome.state.timeless :=
  rfl

/-- What events say, times apart. -/
def timelessNotices (events : List (Event τ)) : List (Notice Unit) :=
  events.map fun event => event.notice.timeless

theorem Outcome.timelessNotices_eq (outcome : Outcome τ) :
    timelessNotices outcome.events =
      outcome.timeless.events.map Event.notice := by
  rw [timelessNotices, Outcome.timeless, List.map_map]
  rfl

namespace SenderState

theorem markArrived_timeless
    (state : SenderState τ)
    (segments : List Offset) :
    (state.markArrived segments).timeless =
      state.timeless.markArrived segments := by
  induction segments generalizing state with
  | nil =>
      rfl
  | cons segment rest inductionHypothesis =>
      rw [markArrived_cons, markArrived_cons]
      by_cases marked : segment ∈ state.scoreboard
      · have markedTimeless : segment ∈ state.timeless.scoreboard := marked
        rw [if_pos marked, if_pos markedTimeless]
        exact inductionHypothesis state
      · have notMarkedTimeless : segment ∉ state.timeless.scoreboard := marked
        rw [if_neg marked, if_neg notMarkedTimeless]
        have later :
            ({ state with
                scoreboard := state.scoreboard.insert segment }.markArrived rest).timeless =
              { state.timeless with
                scoreboard := state.scoreboard.insert segment }.markArrived rest :=
          inductionHypothesis _
        exact congrArg
          (fun later : Outcome Unit =>
            (⟨later.state, ⟨.scoreboardAdd segment, state.timeless⟩ :: later.events⟩ :
              Outcome Unit))
          later

theorem adoptRanges_timeless
    (state : SenderState τ)
    (ranges : List ByteRange) :
    (state.adoptRanges ranges).timeless = state.timeless.adoptRanges ranges := by
  by_cases unchanged : ranges = state.sackRanges
  · have unchangedTimeless : ranges = state.timeless.sackRanges := unchanged
    rw [adoptRanges, adoptRanges, if_pos unchanged, if_pos unchangedTimeless]
    rfl
  · have changedTimeless : ranges ≠ state.timeless.sackRanges := unchanged
    rw [adoptRanges, adoptRanges, if_neg unchanged, if_neg changedTimeless]
    rfl

theorem countMissing_timeless
    (state : SenderState τ)
    (threshold : Nat)
    (segments : List Offset) :
    (state.countMissing threshold segments).timeless =
      state.timeless.countMissing threshold segments := by
  rw [countMissing_eq, countMissing_eq]
  rfl

variable
  (config : ReplayConfig τ)
  (state : SenderState τ)
  (packet : Packet τ)

theorem receiveDuplicate_timeless :
    (state.receiveDuplicate config packet).timeless =
      state.timeless.receiveDuplicate config.timeless packet.timeless := by
  have sameRanges : packet.timeless.sackRanges = packet.sackRanges :=
    rfl
  have sameSize : config.timeless.segmentSize = config.segmentSize :=
    rfl
  have sameThreshold :
      config.timeless.duplicateThreshold = config.duplicateThreshold :=
    rfl
  have countedOnce (state : SenderState τ) (threshold : Nat) :
      state.timeless.countDuplicate threshold =
        (state.countDuplicate threshold).timeless :=
    rfl
  simp only [receiveDuplicate, sameRanges, sameSize, sameThreshold]
  rw [← markArrived_timeless, Outcome.timeless_state, ← countMissing_timeless,
    countedOnce, ← adoptRanges_timeless]
  simp only [Outcome.timeless, List.map_cons, List.map_append]
  rfl

theorem advance_timeless (number : Offset) :
    (state.advance config number).timeless =
      state.timeless.advance config.timeless number :=
  markArrived_timeless { state with highestAcked := number }
    (passedSegments config.segmentSize state.highestAcked number)

theorem receiveNew_timeless :
    (state.receiveNew config packet).timeless =
      state.timeless.receiveNew config.timeless packet.timeless := by
  -- Only the walk of an advancing acknowledgment is more than a change of fields.
  let cleared := (state.settle packet).clearDuplicates
  have sameAdvanced :
      (if packet.ack < state.highestAcked then
          ⟨cleared, []⟩
        else
          cleared.advance config packet.ack).timeless =
        if packet.timeless.ack < state.timeless.highestAcked then
          ⟨cleared.timeless, []⟩
        else
          cleared.timeless.advance config.timeless packet.timeless.ack := by
    rw [apply_ite Outcome.timeless, advance_timeless]
    rfl
  have sameCleared :
      (state.timeless.settle packet.timeless).clearDuplicates = cleared.timeless :=
    rfl
  have sameEnds :
      state.timeless.endsRecovery packet.timeless = state.endsRecovery packet :=
    rfl
  rw [receiveNew_eq, receiveNew_eq]
  simp only [sameCleared, sameEnds, ← sameAdvanced]
  cases state.endsRecovery packet <;> rfl

/-- The arrival of an acknowledgment does not depend on times. -/
theorem receive_timeless :
    (state.receive config packet).timeless =
      state.timeless.receive config.timeless packet.timeless := by
  have sameDuplicate :
      state.timeless.isDuplicate packet.timeless = state.isDuplicate packet :=
    rfl
  simp only [receive, sameDuplicate]
  cases state.isDuplicate packet with
  | false =>
      simp only [Bool.false_eq_true, ↓reduceIte, ← receiveNew_timeless]
      rfl
  | true =>
      simp only [↓reduceIte, ← receiveDuplicate_timeless]
      rfl

/-- One packet replayed on states without times, given whether data sent again follows a timeout. -/
def stepOn
    (config : ReplayConfig Unit)
    (source : Address)
    (isTimeout : Bool)
    (state : SenderState Unit)
    (packet : Packet Unit) :
    Outcome Unit :=
  match packet.concern source with
  | .acknowledges => state.receive config packet
  | .sends =>
      if !state.isRepeated packet then
        state.sendNew packet
      else if isTimeout then
        state.timeOut packet
      else
        state.retransmit packet
  | .control | .bare | .foreign => ⟨state, []⟩

section

variable
  {config : ReplayConfig Unit}
  {source : Address}
  {state : SenderState Unit}
  {packet : Packet Unit}

/-- The answer is asked for only of data sent again. -/
theorem stepOn_congr
    {first second : Bool}
    (same :
      packet.isSend source = true →
      packet.seq ≤ state.highestSent →
        first = second) :
    state.stepOn config source first packet =
      state.stepOn config source second packet := by
  cases concern : packet.concern source with
  | sends =>
      by_cases repeated : packet.seq ≤ state.highestSent
      · rw [same (Packet.isSend_of_concern concern) repeated]
      · simp [stepOn, concern, isRepeated, repeated]
  | _ =>
      simp only [stepOn, concern]

/-- What is reported of data sent again begins with the answer. -/
theorem head?_stepOn_iff
    (isSend : packet.isSend source = true)
    (repeated : packet.seq ≤ state.highestSent)
    (isTimeout : Bool)
    (rest : List (Notice Unit)) :
    ((state.stepOn config source isTimeout packet).events.map Event.notice ++
          rest).head? =
        some (.timeout packet) ↔
      isTimeout = true := by
  rw [Packet.isSend_eq, decide_eq_true_iff] at isSend
  cases isTimeout with
  | true =>
      simp [stepOn, isSend, isRepeated, repeated, timeOut]
  | false =>
      cases isOpen : state.inRecovery <;>
        simp [stepOn, isSend, isRepeated, repeated, retransmit, isOpen]

end

theorem retransmit_timeless :
    (state.retransmit packet).timeless =
      state.timeless.retransmit packet.timeless := by
  have sameOpen : state.timeless.inRecovery = state.inRecovery :=
    rfl
  rw [retransmit, retransmit, sameOpen]
  cases state.inRecovery <;> rfl

theorem timeOut_timeless :
    (state.timeOut packet).timeless = state.timeless.timeOut packet.timeless := by
  have sameOpen : state.timeless.inRecovery = state.inRecovery :=
    rfl
  rw [timeOut, timeOut, sameOpen]
  cases state.inRecovery <;> rfl

theorem transmit_timeless [Timescale τ] :
    (state.transmit config packet).timeless =
      if !state.timeless.isRepeated packet.timeless then
        state.timeless.sendNew packet.timeless
      else if (state.resendEvidence config packet).isTimeout then
        state.timeless.timeOut packet.timeless
      else
        state.timeless.retransmit packet.timeless := by
  have sent :
      (state.transmit config packet).timeless =
        (if !state.isRepeated packet then
          state.sendNew packet
        else if (state.resendEvidence config packet).isTimeout then
          state.timeOut packet
        else
          state.retransmit packet).timeless :=
    rfl
  rw [sent, apply_ite Outcome.timeless, apply_ite Outcome.timeless,
    timeOut_timeless, retransmit_timeless]
  rfl

/-- A step depends on times only through the answer whether data sent again follows a timeout. -/
theorem step_timeless
    [Timescale τ]
    (source : Address) :
    (state.step config source packet).timeless =
      state.timeless.stepOn config.timeless source
        (state.resendEvidence config packet).isTimeout packet.timeless := by
  have sameConcern : packet.timeless.concern source = packet.concern source :=
    rfl
  rw [stepOn, sameConcern]
  cases concern : packet.concern source with
  | acknowledges =>
      simp only [step, concern]
      exact receive_timeless config { state with time := packet.time } packet
  | sends =>
      simp only [step, concern]
      exact transmit_timeless config { state with time := packet.time } packet
  | _ =>
      simp only [step, concern]
      rfl

/-- The answer depends on the time since the last acknowledgment, to and fro. -/
theorem isTimeout_congr
    [Timescale τ]
    {first second : SenderState τ}
    {earlyPacket latePacket : Packet τ}
    (alike : first.timeless = second.timeless)
    (sameSeq : earlyPacket.seq = latePacket.seq)
    (sameSince :
      Timescale.sub earlyPacket.time first.lastAckTime =
        Timescale.sub latePacket.time second.lastAckTime)
    (sameUntil :
      Timescale.sub first.lastAckTime earlyPacket.time =
        Timescale.sub second.lastAckTime latePacket.time) :
    (first.resendEvidence config earlyPacket).isTimeout =
      (second.resendEvidence config latePacket).isTimeout := by
  have sameResent : first.highestResent = second.highestResent := by
    change first.timeless.highestResent = second.timeless.highestResent
    rw [alike]
  have sameRetransmitted : first.retransmitted = second.retransmitted := by
    change first.timeless.retransmitted = second.timeless.retransmitted
    rw [alike]
  simp only [ResendEvidence.isTimeout, resendEvidence, Timescale.farApart,
    sameResent, sameRetransmitted, sameSeq, sameSince, sameUntil]

end SenderState

/-! ## Delayed runs on exact time -/

/-- Exact instants and durations. -/
instance : Timescale ℚ where
  zero := 0
  add := (· + ·)
  sub := (· - ·)
  less first second := decide (first < second)

/-- Exact instants are far apart when they differ by more than the tolerance. -/
theorem Timescale.farApart_iff {tolerance first second : ℚ} :
    farApart tolerance first second = true ↔ tolerance < |first - second| := by
  simp [farApart, less, sub, lt_abs]

namespace Run

theorem acks_delay
    [Timescale τ]
    (source : Address)
    (duration : τ)
    (packets : List (Packet τ)) :
    acks source (packets.map (Packet.delay duration)) =
      (acks source packets).map (Packet.delay duration) := by
  rw [acks, List.filter_map]
  rfl

theorem timelessNotices_append (first second : List (Event τ)) :
    timelessNotices (first ++ second) =
      timelessNotices first ++ timelessNotices second :=
  List.map_append

/-- What a packet reports, times apart, is what the step without times reports. -/
theorem timelessNotices_next
    [Timescale τ]
    (config : ReplayConfig τ)
    (source : Address)
    (earlier : List (Packet τ))
    (packet : Packet τ) :
    timelessNotices (next config source earlier packet).events =
      ((state config source earlier).timeless.stepOn config.timeless source
          ((state config source earlier).resendEvidence config packet).isTimeout
          packet.timeless).events.map Event.notice := by
  rw [← SenderState.step_timeless]
  exact Outcome.timelessNotices_eq _

theorem timelessNotices_append_cons
    [Timescale τ]
    (config : ReplayConfig τ)
    (source : Address)
    (earlier later : List (Packet τ))
    (packet : Packet τ) :
    timelessNotices (events config source (earlier ++ packet :: later)) =
      timelessNotices (events config source earlier) ++
        (timelessNotices (next config source earlier packet).events ++
          timelessNotices
            ((next config source earlier packet).state.history config source
              later)) := by
  rw [events_append_cons, timelessNotices_append, timelessNotices_append]

section

variable
  (config : ReplayConfig ℚ)
  (source : Address)
  (duration : ℚ)

/--
Data sent again before any acknowledgment, told to follow a timeout or not by
nothing but the clock: the answer is another one if the packet is delayed.
-/
def ToldByClock
    (earlier : List (Packet ℚ))
    (packet : Packet ℚ) :
    Prop :=
  acks source earlier = [] ∧
    packet.isSend source = true ∧
    packet.seq ≤ highestSeq source earlier ∧
    timedOut config source earlier (packet.delay duration) ≠
      timedOut config source earlier packet

/-- Before any acknowledgment the last one counts as at time zero, also in a delayed run. -/
theorem lastAckTime_of_no_acks
    {earlier : List (Packet ℚ)}
    (noAcks : acks source earlier = []) :
    lastAckTime source (earlier.map (Packet.delay duration)) =
      lastAckTime source earlier := by
  rw [lastAckTime, lastAckTime, acks_delay, noAcks]
  rfl

theorem lastAckTime_delay
    {earlier : List (Packet ℚ)}
    (someAcks : acks source earlier ≠ []) :
    lastAckTime source (earlier.map (Packet.delay duration)) =
      lastAckTime source earlier + duration := by
  rw [lastAckTime, lastAckTime, acks_delay, List.getLast?_map,
    List.getLast?_eq_some_getLast someAcks]
  rfl

/-- Before any acknowledgment, a delayed run judges as the run itself judges the delayed packet. -/
theorem isTimeout_of_no_acks
    {earlier : List (Packet ℚ)}
    {packet : Packet ℚ}
    (alike :
      (state config source (earlier.map (Packet.delay duration))).timeless =
        (state config source earlier).timeless)
    (noAcks : acks source earlier = []) :
    ((state config source (earlier.map (Packet.delay duration))).resendEvidence config
        (packet.delay duration)).isTimeout =
      timedOut config source earlier (packet.delay duration) := by
  have sameLastAck :
      (state config source (earlier.map (Packet.delay duration))).lastAckTime =
        (state config source earlier).lastAckTime := by
    rw [state_lastAckTime, state_lastAckTime,
      lastAckTime_of_no_acks source duration noAcks]
  calc
    _ = ((state config source earlier).resendEvidence config
          (packet.delay duration)).isTimeout :=
        SenderState.isTimeout_congr config alike rfl (by rw [sameLastAck])
          (by rw [sameLastAck])
    _ = timedOut config source earlier (packet.delay duration) :=
        isTimeout_eq_timedOut config source earlier (packet.delay duration)

/-- The two runs give the same answer, unless it is told by the clock. -/
theorem isTimeout_delay
    {earlier : List (Packet ℚ)}
    {packet : Packet ℚ}
    (alike :
      (state config source (earlier.map (Packet.delay duration))).timeless =
        (state config source earlier).timeless)
    (untold : ¬ ToldByClock config source duration earlier packet)
    (isSend : packet.isSend source = true)
    (repeated : packet.seq ≤ highestSeq source earlier) :
    ((state config source (earlier.map (Packet.delay duration))).resendEvidence config
        (packet.delay duration)).isTimeout =
      ((state config source earlier).resendEvidence config packet).isTimeout := by
  by_cases noAcks : acks source earlier = []
  · calc
      _ = timedOut config source earlier (packet.delay duration) :=
          isTimeout_of_no_acks config source duration alike noAcks
      _ = timedOut config source earlier packet := by
          by_contra differs
          exact untold ⟨noAcks, isSend, repeated, differs⟩
      _ = ((state config source earlier).resendEvidence config packet).isTimeout :=
          (isTimeout_eq_timedOut config source earlier packet).symm
  · -- The last acknowledgment is delayed as the packet is, and differences of times stay.
    have laterLastAck :
        (state config source (earlier.map (Packet.delay duration))).lastAckTime =
          (state config source earlier).lastAckTime + duration := by
      rw [state_lastAckTime, state_lastAckTime,
        lastAckTime_delay source duration noAcks]
    have sameSince :
        Timescale.sub (packet.delay duration).time
            (state config source (earlier.map (Packet.delay duration))).lastAckTime =
          Timescale.sub packet.time (state config source earlier).lastAckTime := by
      rw [laterLastAck]
      exact add_sub_add_right_eq_sub _ _ _
    have sameUntil :
        Timescale.sub
            (state config source (earlier.map (Packet.delay duration))).lastAckTime
            (packet.delay duration).time =
          Timescale.sub (state config source earlier).lastAckTime packet.time := by
      rw [laterLastAck]
      exact add_sub_add_right_eq_sub _ _ _
    exact SenderState.isTimeout_congr config alike rfl sameSince sameUntil

/-- Unless some answer is told by the clock, a delayed run does the same. -/
theorem delayed_alike
    {packets : List (Packet ℚ)}
    (untold : ¬ Occurs (ToldByClock config source duration) packets) :
    (state config source (packets.map (Packet.delay duration))).timeless =
        (state config source packets).timeless ∧
      timelessNotices
          (events config source (packets.map (Packet.delay duration))) =
        timelessNotices (events config source packets) := by
  induction packets using List.reverseRecOn with
  | nil =>
      exact ⟨rfl, rfl⟩
  | append_singleton earlier packet inductionHypothesis =>
      rw [Occurs.concat_iff, not_or] at untold
      obtain ⟨untoldBefore, untoldNow⟩ := untold
      obtain ⟨alike, sameNotices⟩ := inductionHypothesis untoldBefore
      have sameStep :
          (next config source (earlier.map (Packet.delay duration))
              (packet.delay duration)).timeless =
            (next config source earlier packet).timeless := by
        rw [next, next, SenderState.step_timeless, SenderState.step_timeless, alike]
        apply SenderState.stepOn_congr
        intro isSend repeated
        apply isTimeout_delay config source duration alike untoldNow isSend
        rw [← state_highestSent config]
        exact repeated
      rw [List.map_append, List.map_singleton, state_concat, state_concat,
        events_concat, events_concat, timelessNotices_append,
        timelessNotices_append, sameNotices]
      constructor
      · exact congrArg Outcome.state sameStep
      · rw [Outcome.timelessNotices_eq, sameStep, ← Outcome.timelessNotices_eq]

/--
When a delayed run reports the same.

It does so, times apart, exactly when no answer is told by the clock: what data
sent again is taken for depends on differences of times only, except before the
first acknowledgment, when it depends on where the clock starts.
-/
theorem delayed_reports_same_iff (packets : List (Packet ℚ)) :
    timelessNotices (events config source (packets.map (Packet.delay duration))) =
        timelessNotices (events config source packets) ↔
      ¬ Occurs (ToldByClock config source duration) packets := by
  constructor
  · intro same occurs
    obtain ⟨earlier, packet, later, rfl, told, untoldBefore⟩ := occurs.first
    obtain ⟨noAcks, isSend, repeated, differs⟩ := told
    obtain ⟨alike, sameBefore⟩ :=
      delayed_alike config source duration untoldBefore
    -- The reports agree up to the packet, so they go on with the same notice.
    rw [List.map_append, List.map_cons, timelessNotices_append_cons,
      timelessNotices_append_cons, sameBefore] at same
    have sameFirst := congrArg List.head? (List.append_cancel_left same)
    rw [timelessNotices_next, timelessNotices_next, alike] at sameFirst
    have repeatedTimeless :
        packet.timeless.seq ≤
          (state config source earlier).timeless.highestSent := by
      change packet.seq ≤ (state config source earlier).highestSent
      rw [state_highestSent]
      exact repeated
    have sameAnswer :
        ((state config source (earlier.map (Packet.delay duration))).resendEvidence
            config (packet.delay duration)).isTimeout =
          ((state config source earlier).resendEvidence config packet).isTimeout := by
      rw [Bool.eq_iff_iff,
        ← SenderState.head?_stepOn_iff isSend repeatedTimeless,
        ← SenderState.head?_stepOn_iff isSend repeatedTimeless]
      exact Eq.congr_left sameFirst
    apply differs
    rw [← isTimeout_of_no_acks config source duration alike noAcks, sameAnswer]
    exact isTimeout_eq_timedOut config source earlier packet
  · intro untold
    exact (delayed_alike config source duration untold).2

end

/-- The usual constants on exact time. -/
def exactConfig : ReplayConfig ℚ where
  segmentSize := 1446
  duplicateThreshold := 3
  idleLimit := 1 / 2
  tolerance := 1 / 1000

/-- Data sent, and sent again a quarter of a second later. -/
def resentData : List (Packet ℚ) :=
  [Flow.sample.segment 1 0, Flow.sample.segment 1 (1 / 4)]

/-- Data resent before any acknowledgment is retransmitted, or timed out when a second later. -/
theorem resentData_told_by_clock :
    timelessNotices
        (events exactConfig (.v4 1) (resentData.map (Packet.delay 1))) ≠
      timelessNotices (events exactConfig (.v4 1) resentData) := by
  intro same
  have sameLength := congrArg List.length same
  revert sameLength
  decide +kernel

end Run

end Retrace
