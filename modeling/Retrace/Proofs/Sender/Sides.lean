import Retrace.Proofs.Sender.Duplicates
import Retrace.Proofs.Sender.NewData
import Retrace.Proofs.Sender.OpenRecovery
namespace Retrace

/-!
# The two sides of a run

A run hears acknowledgments and watches sends, and keeps one state for both.
All the same the two sides hardly touch: what acknowledgments leave in the state
and what is reported of them are made by the acknowledgments alone, and so for
the sends, as far as only new data is told from data sent again.  Both sides
meet in the open recovery, which sends begin and acknowledgments end, and in the
question whether data sent again follows a timeout.
-/

variable {τ : Type}

/-! ## What each side keeps and reports -/

/-- What acknowledgments leave in the state. -/
structure AckSide (τ : Type) where
  highestAcked : Offset
  duplicateAcks : Nat
  sackRanges : List ByteRange
  missingCounts : Std.TreeMap Offset Nat
  scoreboard : Std.TreeSet Offset
  lastAckTime : τ

namespace SenderState

def ackSide (state : SenderState τ) : AckSide τ where
  highestAcked := state.highestAcked
  duplicateAcks := state.duplicateAcks
  sackRanges := state.sackRanges
  missingCounts := state.missingCounts
  scoreboard := state.scoreboard
  lastAckTime := state.lastAckTime

/-- A state without its clock and all that is known of recoveries. -/
def withoutRecovery [Timescale τ] (state : SenderState τ) : SenderState τ :=
  { state with
    time := Timescale.zero
    highestResent := 0
    recoveryPoint := 0
    inRecovery := false
    recoveryNumber := 0
    retransmitted := ∅ }

/-- Up to the clock and the recoveries, a state is made up of its two sides. -/
theorem withoutRecovery_congr
    [Timescale τ]
    {first second : SenderState τ}
    (sameAcks : first.ackSide = second.ackSide)
    (sameSends : first.sendSide = second.sendSide) :
    first.withoutRecovery = second.withoutRecovery := by
  have madeUp (state : SenderState τ) :
      state.withoutRecovery =
        { (initial : SenderState τ) with
          highestAcked := state.ackSide.highestAcked
          duplicateAcks := state.ackSide.duplicateAcks
          sackRanges := state.ackSide.sackRanges
          missingCounts := state.ackSide.missingCounts
          scoreboard := state.ackSide.scoreboard
          lastAckTime := state.ackSide.lastAckTime
          highestSent := state.sendSide.highestSent
          sentTimes := state.sendSide.sentTimes
          lastSendTime := state.sendSide.lastSendTime } :=
    rfl
  rw [madeUp, madeUp, sameAcks, sameSends]

end SenderState

/-- Whether a notice is about what acknowledgments tell. -/
def Notice.isOfAcks : Notice τ → Bool
  | .ack _ | .duplicateAck _ | .sackChange _ | .duplicatesCleared
  | .scoreboardAdd _ => true
  | .newSend _ | .retransmission _ | .timeout _ | .recoveryEntered
  | .recoveryLeft => false

/-- What events say of acknowledgments, in order. -/
def ackNotices (events : List (Event τ)) : List (Notice τ) :=
  (events.map Event.notice).filter Notice.isOfAcks

/-- Which packet a notice says was sent, and whether as new data. -/
def Notice.novelty? : Notice τ → Option (Packet τ × Bool)
  | .newSend packet => some (packet, true)
  | .retransmission packet | .timeout packet => some (packet, false)
  | _ => none

/-- The packets that events say were sent, in order, each with whether as new data. -/
def novelties (events : List (Event τ)) : List (Packet τ × Bool) :=
  (events.map Event.notice).filterMap Notice.novelty?

@[simp] theorem ackNotices_nil : ackNotices ([] : List (Event τ)) = [] :=
  rfl

@[simp] theorem ackNotices_cons
    (event : Event τ)
    (rest : List (Event τ)) :
    ackNotices (event :: rest) =
      if event.notice.isOfAcks then
        event.notice :: ackNotices rest
      else
        ackNotices rest := by
  simp [ackNotices, List.filter_cons]

@[simp] theorem ackNotices_append (first second : List (Event τ)) :
    ackNotices (first ++ second) = ackNotices first ++ ackNotices second := by
  simp [ackNotices]

@[simp] theorem ackNotices_markArrived
    (state : SenderState τ)
    (segments : List Offset) :
    ackNotices (state.markArrived segments).events =
      (SenderState.unmarked state.scoreboard segments).map Notice.scoreboardAdd := by
  rw [ackNotices, SenderState.markArrived_notices, List.filter_eq_self]
  intro notice member
  obtain ⟨segment, _, rfl⟩ := List.mem_map.mp member
  rfl

@[simp] theorem novelties_append (first second : List (Event τ)) :
    novelties (first ++ second) = novelties first ++ novelties second := by
  simp [novelties]

theorem novelties_eq (events : List (Event τ)) :
    novelties events = (sendNotices events).filterMap Notice.novelty? := by
  rw [sendNotices, List.filterMap_filter, novelties]
  apply List.filterMap_congr
  intro notice _
  cases notice <;> rfl

/-! ## Each side as a machine of its own -/

namespace AckSide

/-- An acknowledgment that repeats the highest number is counted, and its ranges are read. -/
def repeats
    (config : ReplayConfig τ)
    (side : AckSide τ)
    (packet : Packet τ) :
    AckSide τ × List (Notice τ) :=
  let covered := Sack.coveredSegments packet.sackRanges config.segmentSize
  let missing := Sack.missingSegments packet.sackRanges config.segmentSize
  ({ side with
      duplicateAcks := countUpTo config.duplicateThreshold side.duplicateAcks
      sackRanges := packet.sackRanges
      missingCounts :=
        SenderState.missingAfter config.duplicateThreshold side.missingCounts missing
      scoreboard := SenderState.boardAfter side.scoreboard covered
      lastAckTime := packet.time },
    .duplicateAck packet ::
      ((SenderState.unmarked side.scoreboard covered).map .scoreboardAdd ++
        if packet.sackRanges = side.sackRanges then
          []
        else
          [.sackChange packet.sackRanges]))

/-- Any other acknowledgment clears the counts, and moves the highest number or comes late. -/
def moves
    (config : ReplayConfig τ)
    (side : AckSide τ)
    (packet : Packet τ) :
    AckSide τ × List (Notice τ) :=
  let passed :=
    if side.highestAcked < packet.ack then
      SenderState.passedSegments config.segmentSize side.highestAcked packet.ack
    else
      []
  ({ side with
      highestAcked := max side.highestAcked packet.ack
      duplicateAcks := 0
      missingCounts := ∅
      scoreboard := SenderState.boardAfter side.scoreboard passed
      lastAckTime := packet.time },
    .ack packet ::
      .duplicatesCleared ::
        (SenderState.unmarked side.scoreboard passed).map .scoreboardAdd)

/-- An acknowledgment changes the side and is reported by what the side holds. -/
def receive
    (config : ReplayConfig τ)
    (side : AckSide τ)
    (packet : Packet τ) :
    AckSide τ × List (Notice τ) :=
  if packet.ack = side.highestAcked then
    side.repeats config packet
  else
    side.moves config packet

end AckSide

/-- Acknowledgments are received by their side of the state, and nothing else touches it. -/
theorem SenderState.Effect.ackSide_eq
    [Timescale τ]
    {config : ReplayConfig τ}
    {source : Address}
    {state : SenderState τ}
    {packet : Packet τ}
    {outcome : Outcome τ}
    (effect : SenderState.Effect config source state packet outcome) :
    (outcome.state.ackSide, ackNotices outcome.events) =
      if packet.isAckTo source then
        state.ackSide.receive config packet
      else
        (state.ackSide, []) := by
  rw [Packet.isAckTo_eq]
  cases effect with
  | passedOver noAck noSend =>
      simp [noAck]
  | duplicate acknowledges repeats =>
      have received :
          state.ackSide.receive config packet = state.ackSide.repeats config packet :=
        if_pos repeats
      simp only [acknowledges, decide_true, ↓reduceIte, received, AckSide.repeats,
        Prod.mk.injEq]
      constructor
      · rfl
      · by_cases unchanged : packet.sackRanges = state.sackRanges <;>
          simp [SenderState.ackSide, unchanged, Notice.isOfAcks]
  | late acknowledges below =>
      have received :
          state.ackSide.receive config packet = state.ackSide.moves config packet :=
        if_neg (UInt64.ne_of_lt below)
      have notAbove : ¬ state.highestAcked < packet.ack :=
        UInt64.not_lt.mpr (UInt64.le_of_lt below)
      simp only [acknowledges, decide_true, ↓reduceIte, received, AckSide.moves,
        Prod.mk.injEq]
      constructor
      · simp [SenderState.ackSide, clearDuplicates, settle, notAbove, boardAfter,
          Offset.max_eq_left (UInt64.le_of_lt below)]
      · cases state.endsRecovery packet <;>
          simp [SenderState.ackSide, notAbove, unmarked, Notice.isOfAcks]
  | advance acknowledges above =>
      have received :
          state.ackSide.receive config packet = state.ackSide.moves config packet :=
        if_neg (UInt64.ne_of_lt above).symm
      simp only [acknowledges, decide_true, ↓reduceIte, received, AckSide.moves,
        Prod.mk.injEq]
      constructor
      · simp [SenderState.ackSide, clearDuplicates, settle, above,
          Offset.max_eq_right (UInt64.le_of_lt above)]
      · cases state.endsRecovery packet <;>
          simp [SenderState.ackSide, clearDuplicates, settle, above, Notice.isOfAcks]
  | newSend sends above =>
      simp [sends, SenderState.ackSide, Notice.isOfAcks]
  | timeout sends repeated isTimeout =>
      cases state.inRecovery <;>
        simp [sends, SenderState.ackSide, leaveRecovery, Notice.isOfAcks]
  | recoveryBegun sends repeated noTimeout closed =>
      simp [sends, SenderState.ackSide, enterRecovery, Notice.isOfAcks]
  | retransmission sends repeated noTimeout isOpen =>
      simp [sends, SenderState.ackSide, Notice.isOfAcks]

/-- A send is entered and reported, as new data if it lies above the highest number before it. -/
def SendSide.transmit
    (side : SendSide τ)
    (packet : Packet τ) :
    SendSide τ × List (Packet τ × Bool) :=
  (side.enter packet, [(packet, decide (side.highestSent < packet.seq))])

/-- Sends are transmitted by their side of the state, and nothing else touches it. -/
theorem SenderState.Effect.sendSide_eq
    [Timescale τ]
    {config : ReplayConfig τ}
    {source : Address}
    {state : SenderState τ}
    {packet : Packet τ}
    {outcome : Outcome τ}
    (effect : SenderState.Effect config source state packet outcome) :
    (outcome.state.sendSide, novelties outcome.events) =
      if packet.isSend source then
        state.sendSide.transmit packet
      else
        (state.sendSide, []) := by
  rw [novelties_eq, effect.sendNotices_eq, effect.sendSide]
  cases packet.isSend source with
  | false =>
      rfl
  | true =>
      simp only [↓reduceIte, SendSide.transmit, SenderState.sendSide, Prod.mk.injEq,
        true_and]
      by_cases above : state.highestSent < packet.seq
      · simp [above, Notice.novelty?]
      · cases (state.resendEvidence config packet).isTimeout <;>
          simp [above, Notice.novelty?]

/-- A packet leaves the clock as it was set for it. -/
theorem SenderState.Effect.clock
    [Timescale τ]
    {config : ReplayConfig τ}
    {source : Address}
    {state : SenderState τ}
    {packet : Packet τ}
    {outcome : Outcome τ}
    (effect : SenderState.Effect config source state packet outcome) :
    outcome.state.time = state.time := by
  cases effect <;> rfl

/-! ## Runs without the packets of the other side -/

/-- The packets that travel towards the source, in order. -/
def towards (source : Address) (packets : List (Packet τ)) : List (Packet τ) :=
  packets.filter fun packet => packet.dst = source

/-- The packets that do not travel towards the source, in order. -/
def elsewhere (source : Address) (packets : List (Packet τ)) : List (Packet τ) :=
  packets.filter fun packet => packet.dst ≠ source

namespace Run

section

variable
  [Timescale τ]
  (config : ReplayConfig τ)
  (source : Address)

/-- What a run holds and reports of acknowledgments. -/
def ackView (packets : List (Packet τ)) : AckSide τ × List (Notice τ) :=
  ((state config source packets).ackSide, ackNotices (events config source packets))

/-- What a run holds and reports of sends. -/
def sendView (packets : List (Packet τ)) : SendSide τ × List (Packet τ × Bool) :=
  ((state config source packets).sendSide, novelties (events config source packets))

/-- What a side makes of a packet is added to what was reported before. -/
theorem grown_of_next
    {σ α : Type}
    {concerned : Prop}
    [Decidable concerned]
    {side : σ}
    {told : List α}
    {next made : σ × List α}
    (isNext : next = if concerned then made else (side, [])) :
    (next.1, told ++ next.2) =
      if concerned then (made.1, told ++ made.2) else (side, told) := by
  rw [isNext]
  split <;> simp

/-- An acknowledgment is received by its side of the run, and no other packet touches it. -/
theorem ackView_concat
    (earlier : List (Packet τ))
    (packet : Packet τ) :
    ackView config source (earlier ++ [packet]) =
      if packet.isAckTo source then
        let received := (ackView config source earlier).1.receive config packet
        (received.1, (ackView config source earlier).2 ++ received.2)
      else
        ackView config source earlier := by
  rw [ackView, state_concat, events_concat, ackNotices_append]
  exact grown_of_next (next_effect config source earlier packet).ackSide_eq

/-- A send is transmitted by its side of the run, and no other packet touches it. -/
theorem sendView_concat
    (earlier : List (Packet τ))
    (packet : Packet τ) :
    sendView config source (earlier ++ [packet]) =
      if packet.isSend source then
        let transmitted := (sendView config source earlier).1.transmit packet
        (transmitted.1, (sendView config source earlier).2 ++ transmitted.2)
      else
        sendView config source earlier := by
  rw [sendView, state_concat, events_concat, novelties_append]
  exact grown_of_next (next_effect config source earlier packet).sendSide_eq

/-- The acknowledgments alone make their side of a run, whatever other packets there are. -/
theorem ackView_filter
    {keeps : Packet τ → Bool}
    (keepsAcks : ∀ packet, packet.isAckTo source = true → keeps packet = true)
    (packets : List (Packet τ)) :
    ackView config source (packets.filter keeps) = ackView config source packets := by
  apply view_filter (ackView config source)
  · intro first second packet same
    rw [ackView_concat, ackView_concat, same]
  · intro earlier packet leftOut
    have noAck : ¬ packet.isAckTo source = true := by
      intro isAck
      rw [keepsAcks packet isAck] at leftOut
      cases leftOut
    rw [ackView_concat, if_neg noAck]

/-- The sends alone make their side of a run, whatever other packets there are. -/
theorem sendView_filter
    {keeps : Packet τ → Bool}
    (keepsSends : ∀ packet, packet.isSend source = true → keeps packet = true)
    (packets : List (Packet τ)) :
    sendView config source (packets.filter keeps) = sendView config source packets := by
  apply view_filter (sendView config source)
  · intro first second packet same
    rw [sendView_concat, sendView_concat, same]
  · intro earlier packet leftOut
    have noSend : ¬ packet.isSend source = true := by
      intro isSend
      rw [keepsSends packet isSend] at leftOut
      cases leftOut
    rw [sendView_concat, if_neg noSend]

/--
The two sides of a run do not interfere.

Without the packets that travel elsewhere the acknowledgments leave the same and
are reported alike; without those that travel towards the source the sends leave
the same, and the same ones are reported as new data.  So the order in which
acknowledgments and sends come between each other tells on nothing but the
recoveries and whether data sent again follows a timeout, and on the clock,
which shows the time of whichever packet comes last.
-/
structure KeepsSidesApart : Prop where
  acksAlone :
    ∀ packets : List (Packet τ),
      (state config source (towards source packets)).ackSide =
          (state config source packets).ackSide ∧
        ackNotices (events config source (towards source packets)) =
          ackNotices (events config source packets)
  sendsAlone :
    ∀ packets : List (Packet τ),
      (state config source (elsewhere source packets)).sendSide =
          (state config source packets).sendSide ∧
        novelties (events config source (elsewhere source packets)) =
          novelties (events config source packets)
  anyOrder :
    ∀ first second : List (Packet τ),
      acks source first = acks source second →
      sends source first = sends source second →
        ackNotices (events config source first) =
            ackNotices (events config source second) ∧
          novelties (events config source first) =
            novelties (events config source second) ∧
          (state config source first).withoutRecovery =
            (state config source second).withoutRecovery
  clock :
    ∀ (earlier : List (Packet τ)) (packet : Packet τ),
      (state config source (earlier ++ [packet])).time = packet.time

/-- The two sides of every run do not interfere. -/
theorem sides_do_not_interfere : KeepsSidesApart config source := by
  constructor
  case acksAlone =>
    intro packets
    apply Prod.mk.inj
    apply ackView_filter
    intro packet isAck
    simp only [Packet.isAckTo, Bool.and_eq_true] at isAck
    exact isAck.1
  case sendsAlone =>
    intro packets
    apply Prod.mk.inj
    apply sendView_filter
    intro packet isSend
    simp only [Packet.isSend, Bool.and_eq_true] at isSend
    exact isSend.1.2
  case anyOrder =>
    intro first second sameAcks sameSends
    -- Either run is compared with the run over its acknowledgments, or its sends, alone.
    have sameAckView : ackView config source first = ackView config source second :=
      calc
        _ = ackView config source (acks source first) :=
            (ackView_filter config source (fun _ isAck => isAck) first).symm
        _ = ackView config source (acks source second) := by rw [sameAcks]
        _ = ackView config source second :=
            ackView_filter config source (fun _ isAck => isAck) second
    have sameSendView : sendView config source first = sendView config source second :=
      calc
        _ = sendView config source (sends source first) :=
            (sendView_filter config source (fun _ isSend => isSend) first).symm
        _ = sendView config source (sends source second) := by rw [sameSends]
        _ = sendView config source second :=
            sendView_filter config source (fun _ isSend => isSend) second
    obtain ⟨sameAckSide, sameAckNotices⟩ := Prod.mk.inj sameAckView
    obtain ⟨sameSendSide, sameNovelties⟩ := Prod.mk.inj sameSendView
    exact ⟨sameAckNotices, sameNovelties,
      SenderState.withoutRecovery_congr sameAckSide sameSendSide⟩
  case clock =>
    intro earlier packet
    rw [state_concat]
    exact (next_effect config source earlier packet).clock

end

/-- A segment is acknowledged at the very instant at which it is sent again, and before that. -/
def resentBehindAck : List (Packet Float) :=
  [Flow.sample.segment 1 0.0, Flow.sample.acknowledgment 1447 none 0.75,
    Flow.sample.segment 1 0.75]

/-- The same packets, the segment sent again before the acknowledgment. -/
def resentBeforeAck : List (Packet Float) :=
  [Flow.sample.segment 1 0.0, Flow.sample.segment 1 0.75,
    Flow.sample.acknowledgment 1447 none 0.75]

/--
A segment sent again follows a timeout or not, as it comes before or behind the
acknowledgment of the same instant; all else is the same.
-/
theorem resentSegment_told_by_order :
    acks (.v4 1) resentBehindAck = acks (.v4 1) resentBeforeAck ∧
      sends (.v4 1) resentBehindAck = sends (.v4 1) resentBeforeAck ∧
      ackNotices (events ReplayConfig.standard (.v4 1) resentBehindAck) =
        ackNotices (events ReplayConfig.standard (.v4 1) resentBeforeAck) ∧
      novelties (events ReplayConfig.standard (.v4 1) resentBehindAck) =
        novelties (events ReplayConfig.standard (.v4 1) resentBeforeAck) ∧
      (state ReplayConfig.standard (.v4 1) resentBehindAck).withoutRecovery =
        (state ReplayConfig.standard (.v4 1) resentBeforeAck).withoutRecovery ∧
      sendNotices (events ReplayConfig.standard (.v4 1) resentBehindAck) ≠
        sendNotices (events ReplayConfig.standard (.v4 1) resentBeforeAck) := by
  have sameAcks : acks (.v4 1) resentBehindAck = acks (.v4 1) resentBeforeAck := by
    rfl
  have sameSends : sends (.v4 1) resentBehindAck = sends (.v4 1) resentBeforeAck := by
    rfl
  obtain ⟨sameAckNotices, sameNovelties, sameState⟩ :=
    (sides_do_not_interfere ReplayConfig.standard (.v4 1)).anyOrder _ _
      sameAcks sameSends
  refine ⟨sameAcks, sameSends, sameAckNotices, sameNovelties, sameState, ?_⟩
  decide +kernel

end Run

end Retrace
