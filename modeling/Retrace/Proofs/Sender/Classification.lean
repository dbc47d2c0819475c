import Retrace.Proofs.Sender.Episodes
import Retrace.Proofs.Sender.Marks
namespace Retrace

/-!
# Sends classified by their history

The replay tells a send new, retransmitted, or timed out by fields that four
operations set, raise and reset.  `verdict` decides the same from the packets
before the send and the events they gave rise to, and this module proves that
every run reports for every send its verdict and nothing else.
-/

variable {τ : Type}

/-- The packet that a notice says was sent. -/
def Notice.sent? : Notice τ → Option (Packet τ)
  | .newSend packet => some packet
  | .retransmission packet => some packet
  | .timeout packet => some packet
  | _ => none

/-- The three ways in which a packet is sent. -/
inductive SendKind
  | new
  | retransmitted
  | timedOut
deriving DecidableEq, Repr

/-- In which way a notice says a packet was sent. -/
def Notice.sendKind? : Notice τ → Option SendKind
  | .newSend _ => some .new
  | .retransmission _ => some .retransmitted
  | .timeout _ => some .timedOut
  | _ => none

/-- How many events report a send of a kind. -/
def countSends (kind : SendKind) (events : List (Event τ)) : Nat :=
  events.countP fun event => event.notice.sendKind? = some kind

/-- What events say about packets sent, in order. -/
def sendNotices (events : List (Event τ)) : List (Notice τ) :=
  (events.map Event.notice).filter fun notice => notice.sent?.isSome

@[simp] theorem sendNotices_cons
    (event : Event τ)
    (rest : List (Event τ)) :
    sendNotices (event :: rest) =
      if event.notice.sent?.isSome then
        event.notice :: sendNotices rest
      else
        sendNotices rest := by
  simp [sendNotices, List.filter_cons]

@[simp] theorem sendNotices_append (first second : List (Event τ)) :
    sendNotices (first ++ second) =
      sendNotices first ++ sendNotices second := by
  simp [sendNotices]

/-! ## The verdict on a send -/

section

variable
  [Timescale τ]
  (config : ReplayConfig τ)
  (source : Address)

/--
Whether data sent again follows a timeout: nothing was acknowledged for longer
than the idle limit; or the sender fell back below the highest retransmission
of the open recovery, to data retransmitted before, away from any
acknowledgment.
-/
def timedOut
    (earlier : List (Packet τ))
    (packet : Packet τ) :
    Bool :=
  let past := Run.events config source earlier
  let lastAck := lastAckTime source earlier
  Timescale.less config.idleLimit (Timescale.sub packet.time lastAck) ||
    (decide (packet.seq < Offset.highest (Episodes.openResends past)) &&
      decide (packet.seq ∈ Episodes.resends past) &&
      Timescale.farApart config.tolerance packet.time lastAck)

/-- What a send is, judged by the packets before it. -/
def verdict
    (earlier : List (Packet τ))
    (packet : Packet τ) :
    Notice τ :=
  if highestSeq source earlier < packet.seq then
    .newSend packet
  else if timedOut config source earlier packet then
    .timeout packet
  else
    .retransmission packet

/-- The evidence that the state gives for a timeout is that of the history. -/
theorem isTimeout_eq_timedOut
    (earlier : List (Packet τ))
    (packet : Packet τ) :
    ({ Run.state config source earlier with
        time := packet.time }.resendEvidence config packet).isTimeout =
      timedOut config source earlier packet := by
  have remembers := Run.remembers config source earlier
  have highest :
      (Run.state config source earlier).highestResent =
        Offset.highest
          (Episodes.openResends (Run.events config source earlier)) :=
    remembers.highestResent
  have known :
      (Run.state config source earlier).retransmitted.contains packet.seq =
        decide (packet.seq ∈
          Episodes.resends (Run.events config source earlier)) := by
    rw [Bool.eq_iff_iff, decide_eq_true_iff, ← remembers.retransmitted]
    exact Std.TreeMap.contains_iff_mem
  have lastAck :
      (Run.state config source earlier).lastAckTime =
        lastAckTime source earlier :=
    Run.state_lastAckTime config source earlier
  simp only [SenderState.ResendEvidence.isTimeout, SenderState.resendEvidence,
    timedOut, highest, known, lastAck]
  exact Bool.or_comm _ _

end

/-! ## The event of a send -/

/-- Whether an event reports a send. -/
def Event.isSend (event : Event τ) : Bool :=
  event.notice.sent?.isSome

theorem sendNotices_eq_map (events : List (Event τ)) :
    sendNotices events = (events.filter Event.isSend).map Event.notice := by
  rw [sendNotices, List.filter_map]
  rfl

namespace SenderState

/-- The state that a packet is reported at if it is retransmitted. -/
def resendState (state : SenderState τ) (packet : Packet τ) : SenderState τ :=
  let opened := if state.inRecovery then state else state.enterRecovery packet
  { opened with highestResent := max opened.highestResent packet.seq }

/-- What is reported of a packet that is sent. -/
def sendEvent
    [Timescale τ]
    (config : ReplayConfig τ)
    (state : SenderState τ)
    (packet : Packet τ) :
    Event τ :=
  if state.highestSent < packet.seq then
    ⟨.newSend packet, state⟩
  else if (state.resendEvidence config packet).isTimeout then
    ⟨.timeout packet, state⟩
  else
    ⟨.retransmission packet, state.resendState packet⟩

@[simp] theorem sendEvents_markArrived
    (state : SenderState τ)
    (segments : List Offset) :
    (state.markArrived segments).events.filter Event.isSend = [] := by
  rw [List.filter_eq_nil_iff]
  intro event member
  obtain ⟨segment, isAnnouncement⟩ := notice_of_mem_markArrived member
  simp [Event.isSend, isAnnouncement, Notice.sent?]

namespace Effect

variable
  [Timescale τ]
  {config : ReplayConfig τ}
  {source : Address}
  {state : SenderState τ}
  {packet : Packet τ}
  {outcome : Outcome τ}

/-- A packet reports on exactly one send if it is one, by what the state holds, and else on none. -/
theorem sendEvents_eq
    (effect : Effect config source state packet outcome) :
    outcome.events.filter Event.isSend =
      if packet.isSend source then [state.sendEvent config packet] else [] := by
  rw [Packet.isSend_eq, sendEvent]
  cases effect with
  | passedOver noAck noSend =>
      simp [noSend]
  | duplicate acknowledges repeats =>
      by_cases unchanged : packet.sackRanges = state.sackRanges <;>
        simp [acknowledges, unchanged, Event.isSend, Notice.sent?]
  | late acknowledges below =>
      cases state.endsRecovery packet <;>
        simp [acknowledges, Event.isSend, Notice.sent?]
  | advance acknowledges above =>
      cases state.endsRecovery packet <;>
        simp [acknowledges, Event.isSend, Notice.sent?]
  | newSend sends above =>
      simp [sends, above, Event.isSend, Notice.sent?]
  | timeout sends repeated isTimeout =>
      have notAbove : ¬ state.highestSent < packet.seq :=
        UInt64.not_lt.mpr repeated
      cases state.inRecovery <;>
        simp [sends, notAbove, isTimeout, List.filter_cons, Event.isSend, Notice.sent?]
  | recoveryBegun sends repeated noTimeout closed =>
      have notAbove : ¬ state.highestSent < packet.seq :=
        UInt64.not_lt.mpr repeated
      simp [sends, notAbove, noTimeout, Event.isSend, Notice.sent?, resendState, closed,
        enterRecovery, Offset.max_eq_left]
  | retransmission sends repeated noTimeout isOpen =>
      have notAbove : ¬ state.highestSent < packet.seq :=
        UInt64.not_lt.mpr repeated
      simp [sends, notAbove, noTimeout, Event.isSend, Notice.sent?, resendState, isOpen]

/-- A packet that is sent is reported as new, as timed out, or as retransmitted. -/
theorem sendNotices_eq
    (effect : Effect config source state packet outcome) :
    sendNotices outcome.events =
      if packet.isSend source then
        [if state.highestSent < packet.seq then
          .newSend packet
        else if (state.resendEvidence config packet).isTimeout then
          .timeout packet
        else
          .retransmission packet]
      else
        [] := by
  rw [sendNotices_eq_map, effect.sendEvents_eq, sendEvent, apply_ite (List.map Event.notice),
    List.map_singleton, apply_ite Event.notice, apply_ite Event.notice]
  rfl

end Effect

end SenderState

theorem countSends_append
    (kind : SendKind)
    (first second : List (Event τ)) :
    countSends kind (first ++ second) =
      countSends kind first + countSends kind second :=
  List.countP_append

theorem countSends_eq
    (kind : SendKind)
    (events : List (Event τ)) :
    countSends kind events =
      (sendNotices events).countP fun notice =>
        notice.sendKind? = some kind := by
  rw [sendNotices, List.countP_filter, List.countP_map]
  apply List.countP_congr
  intro event _
  cases notice : event.notice <;>
    simp [notice, Notice.sendKind?, Notice.sent?]

/-! ## Repeated sends, counted without the replay -/

/-- A send that does not lie above the highest number so far is one more repeat. -/
def tallySend (tallied : Offset × Nat) (packet : Packet τ) : Offset × Nat :=
  if packet.seq ≤ tallied.1 then
    (tallied.1, tallied.2 + 1)
  else
    (packet.seq, tallied.2)

/-- The highest sequence number sent, and how many sends did not lie above it. -/
def tally (source : Address) (packets : List (Packet τ)) : Offset × Nat :=
  (sends source packets).foldl tallySend (0, 0)

/-- How many sends do not lie above every send before them. -/
def repeatedSends (source : Address) (packets : List (Packet τ)) : Nat :=
  (tally source packets).2

theorem tally_concat
    (source : Address)
    (earlier : List (Packet τ))
    (packet : Packet τ) :
    tally source (earlier ++ [packet]) =
      if packet.isSend source then
        tallySend (tally source earlier) packet
      else
        tally source earlier := by
  cases isSend : packet.isSend source <;>
    simp [tally, sends, isSend]

theorem tally_fst (source : Address) (packets : List (Packet τ)) :
    (tally source packets).1 = highestSeq source packets := by
  induction packets using List.reverseRecOn with
  | nil =>
      rfl
  | append_singleton earlier packet inductionHypothesis =>
      rw [tally_concat, tallySend, highestSeq_concat, inductionHypothesis]
      cases packet.isSend source with
      | false =>
          exact inductionHypothesis
      | true =>
          by_cases repeated : packet.seq ≤ highestSeq source earlier
          · simp [repeated, Offset.max_eq_left repeated]
          · have above : highestSeq source earlier ≤ packet.seq :=
              UInt64.le_of_lt (UInt64.not_le.mp repeated)
            simp [repeated, Offset.max_eq_right above]

theorem repeatedSends_concat
    (source : Address)
    (earlier : List (Packet τ))
    (packet : Packet τ) :
    repeatedSends source (earlier ++ [packet]) =
      repeatedSends source earlier +
        if packet.isSend source ∧ packet.seq ≤ highestSeq source earlier then
          1
        else
          0 := by
  rw [repeatedSends, tally_concat, tallySend, tally_fst, repeatedSends]
  cases packet.isSend source with
  | false =>
      simp
  | true =>
      by_cases repeated : packet.seq ≤ highestSeq source earlier <;>
        simp [repeated]

/-! ## Every run reports the verdicts -/

section

variable
  [Timescale τ]
  (config : ReplayConfig τ)
  (source : Address)

theorem sendNotices_next
    (earlier : List (Packet τ))
    (packet : Packet τ) :
    sendNotices (Run.next config source earlier packet).events =
      if packet.isSend source then
        [verdict config source earlier packet]
      else
        [] := by
  rw [(Run.next_effect config source earlier packet).sendNotices_eq,
    isTimeout_eq_timedOut, Run.state_highestSent]
  rfl

theorem countSends_next
    (kind : SendKind)
    (earlier : List (Packet τ))
    (packet : Packet τ) :
    countSends kind (Run.next config source earlier packet).events =
      if packet.isSend source ∧
          (verdict config source earlier packet).sendKind? = some kind then
        1
      else
        0 := by
  rw [countSends_eq, sendNotices_next]
  cases packet.isSend source <;>
    simp [List.countP_singleton]

theorem countSends_new_next
    (earlier : List (Packet τ))
    (packet : Packet τ) :
    countSends .new (Run.next config source earlier packet).events =
      if packet.isSend source ∧ ¬ packet.seq ≤ highestSeq source earlier then
        1
      else
        0 := by
  rw [countSends_next, verdict]
  simp only [UInt64.not_le]
  by_cases above : highestSeq source earlier < packet.seq
  · simp [above, Notice.sendKind?]
  · cases timedOut config source earlier packet <;>
      simp [above, Notice.sendKind?]

theorem countSends_resent_next
    (earlier : List (Packet τ))
    (packet : Packet τ) :
    countSends .retransmitted (Run.next config source earlier packet).events +
        countSends .timedOut (Run.next config source earlier packet).events =
      if packet.isSend source ∧ packet.seq ≤ highestSeq source earlier then
        1
      else
        0 := by
  rw [countSends_next, countSends_next, verdict]
  simp only [← UInt64.not_lt]
  by_cases above : highestSeq source earlier < packet.seq
  · simp [above, Notice.sendKind?]
  · cases timedOut config source earlier packet <;>
      simp [above, Notice.sendKind?]

/-- Every repeated send is reported once as retransmitted or timed out. -/
theorem countSends_resent (packets : List (Packet τ)) :
    countSends .retransmitted (Run.events config source packets) +
        countSends .timedOut (Run.events config source packets) =
      repeatedSends source packets := by
  induction packets using List.reverseRecOn with
  | nil =>
      rfl
  | append_singleton earlier packet inductionHypothesis =>
      have added := countSends_resent_next config source earlier packet
      rw [Run.events_concat, countSends_append, countSends_append,
        repeatedSends_concat, ← inductionHypothesis, ← added]
      omega

/-- Every send is reported once as new, retransmitted, or timed out. -/
theorem countSends_sum (packets : List (Packet τ)) :
    countSends .new (Run.events config source packets) +
        countSends .retransmitted (Run.events config source packets) +
        countSends .timedOut (Run.events config source packets) =
      (sends source packets).length := by
  rw [Nat.add_assoc, countSends_resent]
  induction packets using List.reverseRecOn with
  | nil =>
      rfl
  | append_singleton earlier packet inductionHypothesis =>
      rw [Run.events_concat, countSends_append, countSends_new_next,
        repeatedSends_concat]
      cases isSend : packet.isSend source with
      | false =>
          simpa [sends, isSend] using inductionHypothesis
      | true =>
          have grown :
              (sends source (earlier ++ [packet])).length =
                (sends source earlier).length + 1 := by
            simp [sends, isSend]
          rw [grown, ← inductionHypothesis]
          -- The send is either new or repeated, and counted on that side.
          by_cases repeated : packet.seq ≤ highestSeq source earlier
          · simp only [repeated, not_true_eq_false, and_false, and_true,
              ↓reduceIte]
            omega
          · simp only [repeated, not_false_eq_true, and_false, and_true,
              ↓reduceIte]
            omega

/--
Every send is reported exactly once, as what its history makes it.

Whoever observes a replay observes the events of the run.  Wherever a packet
stands in it, the events of the packet come between those of the earlier and
those of the later packets, and say of sends its verdict if it is one, and
nothing if it is none.  So all sends are accounted for, and those sent again by
the retransmissions and the timeouts.
-/
theorem sends_classified_by_history :
    (∀ {σ : Type} (observer : Observer τ σ) (packets : List (Packet τ)),
      observeReplay config source observer packets =
        observer.observeAll observer.start
          (Run.events config source packets)) ∧
    (∀ (earlier later : List (Packet τ)) (packet : Packet τ),
      Run.events config source (earlier ++ packet :: later) =
          Run.events config source earlier ++
            ((Run.next config source earlier packet).events ++
              (Run.next config source earlier packet).state.history
                config source later) ∧
        sendNotices (Run.next config source earlier packet).events =
          if packet.isSend source then
            [verdict config source earlier packet]
          else
            []) ∧
    ∀ packets : List (Packet τ),
      countSends .new (Run.events config source packets) +
            countSends .retransmitted (Run.events config source packets) +
            countSends .timedOut (Run.events config source packets) =
          (sends source packets).length ∧
        countSends .retransmitted (Run.events config source packets) +
            countSends .timedOut (Run.events config source packets) =
          repeatedSends source packets := by
  refine ⟨?_, ?_, ?_⟩
  · intro σ observer packets
    rw [observeReplay, Run.replay_eq]
  · intro earlier later packet
    constructor
    · exact Run.events_append_cons config source earlier later packet
    · exact sendNotices_next config source earlier packet
  · intro packets
    constructor
    · exact countSends_sum config source packets
    · exact countSends_resent config source packets

end

end Retrace
