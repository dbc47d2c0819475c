import Mathlib.Tactic.Convert
import Retrace.Proofs.Offset
import Retrace.Sender.History
namespace Retrace.SenderState

/-!
# What one packet does

`Effect` lists, once and for all, what a packet can do to the sender's state and
which events it gives rise to: eight cases, each with the condition under which
it occurs.  `step_effect` says that a step of the replay is one of them, so that
whatever holds of a step is proved by going through the cases, and no later
proof opens the operations of the sender again.

The two operations that go through a list of segments are first brought into a
form that shows which single field they change.
-/

variable {τ : Type}

/-! ## Marking segments and counting them missing -/

/-- The scoreboard once segments have been marked on it. -/
def boardAfter
    (board : Std.TreeSet Offset) :
    List Offset → Std.TreeSet Offset
  | [] => board
  | segment :: rest =>
      boardAfter (if segment ∈ board then board else board.insert segment) rest

/-- The segments that are not on a scoreboard, each where it first occurs. -/
def unmarked
    (board : Std.TreeSet Offset) :
    List Offset → List Offset
  | [] => []
  | segment :: rest =>
      if segment ∈ board then
        unmarked board rest
      else
        segment :: unmarked (board.insert segment) rest

/-- Marking segments puts them on the scoreboard and takes nothing off it. -/
theorem mem_boardAfter
    {board : Std.TreeSet Offset}
    {segments : List Offset}
    {segment : Offset} :
    segment ∈ boardAfter board segments ↔
      segment ∈ board ∨ segment ∈ segments := by
  induction segments generalizing board with
  | nil =>
      simp [boardAfter]
  | cons first rest inductionHypothesis =>
      rw [boardAfter, inductionHypothesis]
      by_cases marked : first ∈ board
      · simp only [marked, ↓reduceIte, List.mem_cons]
        constructor
        · rintro (onBoard | inRest)
          · exact Or.inl onBoard
          · exact Or.inr (Or.inr inRest)
        · rintro (onBoard | isFirst | inRest)
          · exact Or.inl onBoard
          · subst isFirst
            exact Or.inl marked
          · exact Or.inr inRest
      · simp only [marked, ↓reduceIte, List.mem_cons, Std.TreeSet.mem_insert,
          Std.LawfulEqOrd.compare_eq_iff_eq]
        rw [eq_comm (a := first), or_comm (a := segment = first), or_assoc]

theorem mem_unmarked
    {board : Std.TreeSet Offset}
    {segments : List Offset}
    {segment : Offset} :
    segment ∈ unmarked board segments ↔
      segment ∈ segments ∧ segment ∉ board := by
  induction segments generalizing board with
  | nil =>
      simp [unmarked]
  | cons first rest inductionHypothesis =>
      rw [unmarked]
      by_cases marked : first ∈ board
      · rw [if_pos marked, inductionHypothesis, List.mem_cons]
        constructor
        · rintro ⟨inRest, notMarked⟩
          exact ⟨Or.inr inRest, notMarked⟩
        · rintro ⟨isFirst | inRest, notMarked⟩
          · rw [isFirst] at notMarked
            exact (notMarked marked).elim
          · exact ⟨inRest, notMarked⟩
      · rw [if_neg marked, List.mem_cons, List.mem_cons, inductionHypothesis,
          Std.TreeSet.mem_insert, Std.LawfulEqOrd.compare_eq_iff_eq]
        by_cases isFirst : segment = first
        · simp [isFirst, marked]
        · simp [isFirst, Ne.symm isFirst]

/-- Of the segments those on the scoreboard are left out, and the others keep their order. -/
theorem unmarked_sublist
    (board : Std.TreeSet Offset)
    (segments : List Offset) :
    (unmarked board segments).Sublist segments := by
  induction segments generalizing board with
  | nil =>
      exact List.Sublist.slnil
  | cons first rest inductionHypothesis =>
      rw [unmarked]
      split
      · exact (inductionHypothesis _).cons first
      · exact (inductionHypothesis _).cons_cons first

/-- Of segments that differ from each other those not on the scoreboard are unmarked. -/
theorem unmarked_eq_filter
    {board : Std.TreeSet Offset}
    {segments : List Offset}
    (nodup : segments.Nodup) :
    unmarked board segments = segments.filter (· ∉ board) := by
  induction segments generalizing board with
  | nil =>
      rfl
  | cons first rest inductionHypothesis =>
      obtain ⟨notLater, restNodup⟩ := List.nodup_cons.mp nodup
      rw [unmarked]
      split
      · next marked =>
          rw [List.filter_cons_of_neg (by simpa using marked)]
          exact inductionHypothesis restNodup
      · next notMarked =>
          rw [List.filter_cons_of_pos (by simpa using notMarked),
            inductionHypothesis restNodup]
          congr 1
          refine List.filter_congr fun segment later => ?_
          have differs : first ≠ segment := by
            rintro rfl
            exact notLater later
          simp [differs]

@[simp] theorem markArrived_state
    (state : SenderState τ)
    (segments : List Offset) :
    (state.markArrived segments).state =
      { state with scoreboard := boardAfter state.scoreboard segments } := by
  induction segments generalizing state with
  | nil =>
      rfl
  | cons segment rest inductionHypothesis =>
      rw [markArrived_cons, boardAfter]
      split
      · exact inductionHypothesis state
      · simp only [inductionHypothesis]

@[simp] theorem markArrived_notices
    (state : SenderState τ)
    (segments : List Offset) :
    (state.markArrived segments).events.map Event.notice =
      (unmarked state.scoreboard segments).map Notice.scoreboardAdd := by
  induction segments generalizing state with
  | nil =>
      rfl
  | cons segment rest inductionHypothesis =>
      rw [markArrived_cons, unmarked]
      split
      · exact inductionHypothesis state
      · simp [inductionHypothesis]

theorem notice_of_mem_markArrived
    {state : SenderState τ}
    {segments : List Offset}
    {event : Event τ}
    (member : event ∈ (state.markArrived segments).events) :
    ∃ segment, event.notice = .scoreboardAdd segment := by
  have told : event.notice ∈ (state.markArrived segments).events.map Event.notice :=
    List.mem_map_of_mem member
  rw [markArrived_notices] at told
  obtain ⟨segment, _, isAnnouncement⟩ := List.mem_map.mp told
  exact ⟨segment, isAnnouncement.symm⟩

/-- Nothing that is told of other notices is told of segments that are marked. -/
theorem filterMap_markArrived
    {β : Type}
    (told? : Notice τ → Option β)
    (ignores : ∀ segment, told? (.scoreboardAdd segment) = none)
    (state : SenderState τ)
    (segments : List Offset) :
    ((state.markArrived segments).events.map Event.notice).filterMap told? = [] := by
  rw [markArrived_notices, List.filterMap_map, List.filterMap_eq_nil_iff]
  intro segment _
  exact ignores segment

theorem time_of_mem_markArrived
    {state : SenderState τ}
    {segments : List Offset} :
    ∀ event ∈ (state.markArrived segments).events,
      event.state.time = state.time := by
  induction segments generalizing state with
  | nil =>
      exact List.forall_mem_nil _
  | cons segment rest inductionHypothesis =>
      rw [markArrived_cons]
      split
      · exact inductionHypothesis
      · exact List.forall_mem_cons.mpr ⟨rfl, inductionHypothesis⟩

/-- The missing counts once segments have been inferred missing once more. -/
def missingAfter
    (threshold : Nat)
    (counts : Std.TreeMap Offset Nat)
    (segments : List Offset) :
    Std.TreeMap Offset Nat :=
  segments.foldl
    (fun counts segment =>
      let count := counts.getD segment 0
      counts.insert segment (if count < threshold then count + 1 else count))
    counts

@[simp] theorem countMissing_eq
    (state : SenderState τ)
    (threshold : Nat)
    (segments : List Offset) :
    state.countMissing threshold segments =
      { state with
        missingCounts := missingAfter threshold state.missingCounts segments } := by
  induction segments generalizing state with
  | nil =>
      rfl
  | cons segment rest inductionHypothesis =>
      simp only [countMissing, missingAfter, List.foldl_cons] at inductionHypothesis ⊢
      rw [inductionHypothesis]
      rfl

/-! ## The cases of a step -/

/-- The state once an acknowledgment that is no duplicate has ended the recovery it passes. -/
def settle (state : SenderState τ) (packet : Packet τ) : SenderState τ :=
  { state with
    highestResent := if state.endsRecovery packet then 0 else state.highestResent
    recoveryPoint := if state.endsRecovery packet then 0 else state.recoveryPoint
    inRecovery := !state.endsRecovery packet && state.inRecovery }

theorem settle_eq
    (state : SenderState τ)
    (packet : Packet τ) :
    state.settle packet =
      if state.endsRecovery packet then state.leaveRecovery else state := by
  cases ends : state.endsRecovery packet <;>
    simp [settle, leaveRecovery, ends]

/-- The state once a duplicate acknowledgment was counted, its ranges not yet adopted. -/
def counted
    (config : ReplayConfig τ)
    (state : SenderState τ)
    (packet : Packet τ) :
    SenderState τ :=
  { state with
    scoreboard :=
      boardAfter state.scoreboard
        (Sack.coveredSegments packet.sackRanges config.segmentSize)
    missingCounts :=
      missingAfter config.duplicateThreshold state.missingCounts
        (Sack.missingSegments packet.sackRanges config.segmentSize)
    duplicateAcks :=
      if state.duplicateAcks < config.duplicateThreshold then
        state.duplicateAcks + 1
      else
        state.duplicateAcks }

/--
What a packet does to a state whose clock shows it.

The packet is passed over; or it is an acknowledgment that repeats the highest
number, comes late, or moves it; or it sends data that is new, follows a
timeout, or is retransmitted, in a recovery that begins with it or in one that
is open.
-/
inductive Effect
    [Timescale τ]
    (config : ReplayConfig τ)
    (source : Address)
    (state : SenderState τ)
    (packet : Packet τ) :
    Outcome τ → Prop
  | passedOver
      (noAck : packet.concern source ≠ .acknowledges)
      (noSend : packet.concern source ≠ .sends) :
      Effect config source state packet ⟨state, []⟩
  | duplicate
      (acknowledges : packet.concern source = .acknowledges)
      (repeats : packet.ack = state.highestAcked) :
      Effect config source state packet
        ⟨{ state.counted config packet with
            sackRanges := packet.sackRanges
            lastAckTime := packet.time },
          ⟨.duplicateAck packet, state⟩ ::
            ((state.markArrived
                (Sack.coveredSegments packet.sackRanges config.segmentSize)).events ++
              if packet.sackRanges = state.sackRanges then
                []
              else
                [⟨.sackChange packet.sackRanges, state.counted config packet⟩])⟩
  | late
      (acknowledges : packet.concern source = .acknowledges)
      (below : packet.ack < state.highestAcked) :
      Effect config source state packet
        ⟨{ (state.settle packet).clearDuplicates with
            lastAckTime := packet.time },
          ⟨.ack packet, state⟩ ::
            ((if state.endsRecovery packet then [⟨.recoveryLeft, state⟩] else []) ++
              [⟨.duplicatesCleared, state.settle packet⟩])⟩
  | advance
      (acknowledges : packet.concern source = .acknowledges)
      (above : state.highestAcked < packet.ack) :
      Effect config source state packet
        ⟨{ (state.settle packet).clearDuplicates with
            highestAcked := packet.ack
            scoreboard :=
              boardAfter state.scoreboard
                (passedSegments config.segmentSize state.highestAcked packet.ack)
            lastAckTime := packet.time },
          ⟨.ack packet, state⟩ ::
            ((if state.endsRecovery packet then [⟨.recoveryLeft, state⟩] else []) ++
              ⟨.duplicatesCleared, state.settle packet⟩ ::
              ({ (state.settle packet).clearDuplicates with
                  highestAcked := packet.ack }.markArrived
                (passedSegments config.segmentSize state.highestAcked packet.ack)).events)⟩
  | newSend
      (sends : packet.concern source = .sends)
      (above : state.highestSent < packet.seq) :
      Effect config source state packet
        ⟨{ state with
            highestSent := packet.seq
            sentTimes := state.sentTimes.insert packet.seq packet.time
            lastSendTime := packet.time },
          [⟨.newSend packet, state⟩]⟩
  | timeout
      (sends : packet.concern source = .sends)
      (repeated : packet.seq ≤ state.highestSent)
      (isTimeout : (state.resendEvidence config packet).isTimeout = true) :
      Effect config source state packet
        ⟨{ state.leaveRecovery with
            sentTimes := state.sentTimes.insert packet.seq packet.time
            lastSendTime := packet.time },
          ⟨.timeout packet, state⟩ ::
            if state.inRecovery then [⟨.recoveryLeft, state⟩] else []⟩
  | recoveryBegun
      (sends : packet.concern source = .sends)
      (repeated : packet.seq ≤ state.highestSent)
      (noTimeout : (state.resendEvidence config packet).isTimeout = false)
      (closed : state.inRecovery = false) :
      Effect config source state packet
        ⟨{ state.enterRecovery packet with
            retransmitted :=
              state.retransmitted.insert packet.seq (state.recoveryNumber + 1)
            sentTimes := state.sentTimes.insert packet.seq packet.time
            lastSendTime := packet.time },
          [⟨.recoveryEntered, state.enterRecovery packet⟩,
            ⟨.retransmission packet, state.enterRecovery packet⟩]⟩
  | retransmission
      (sends : packet.concern source = .sends)
      (repeated : packet.seq ≤ state.highestSent)
      (noTimeout : (state.resendEvidence config packet).isTimeout = false)
      (isOpen : state.inRecovery = true) :
      Effect config source state packet
        ⟨{ state with
            highestResent := max state.highestResent packet.seq
            retransmitted :=
              state.retransmitted.insert packet.seq state.recoveryNumber
            sentTimes := state.sentTimes.insert packet.seq packet.time
            lastSendTime := packet.time },
          [⟨.retransmission packet,
            { state with
              highestResent := max state.highestResent packet.seq }⟩]⟩

/-- An acknowledgment that is no duplicate settles the recovery, then moves the number or not. -/
theorem receiveNew_eq
    (config : ReplayConfig τ)
    (state : SenderState τ)
    (packet : Packet τ) :
    state.receiveNew config packet =
      let cleared := (state.settle packet).clearDuplicates
      let advanced :=
        if packet.ack < state.highestAcked then
          ⟨cleared, []⟩
        else
          cleared.advance config packet.ack
      ⟨advanced.state,
        ⟨.ack packet, state⟩ ::
          ((if state.endsRecovery packet then [⟨.recoveryLeft, state⟩] else []) ++
            ⟨.duplicatesCleared, state.settle packet⟩ :: advanced.events)⟩ := by
  have kept :
      (state.settle packet).clearDuplicates.highestAcked = state.highestAcked :=
    rfl
  rw [← kept, settle_eq]
  rfl

section

variable
  [Timescale τ]
  (config : ReplayConfig τ)
  (source : Address)
  (state : SenderState τ)
  (packet : Packet τ)

theorem receive_effect
    (acknowledges : packet.concern source = .acknowledges) :
    Effect config source state packet (state.receive config packet) := by
  rcases Nat.lt_trichotomy packet.ack.toNat state.highestAcked.toNat with
    below | repeats | above
  · have less : packet.ack < state.highestAcked :=
      below
    have differs : (packet.ack == state.highestAcked) = false :=
      beq_eq_false_iff_ne.mpr (UInt64.ne_of_lt less)
    convert @Effect.late τ _ config source state packet acknowledges less using 1
    simp [receive, isDuplicate, differs, receiveNew_eq, less]
  · have same : packet.ack = state.highestAcked :=
      UInt64.toNat_inj.mp repeats
    convert @Effect.duplicate τ _ config source state packet acknowledges same using 1
    by_cases unchanged : packet.sackRanges = state.sackRanges
    · simp [receive, isDuplicate, same, receiveDuplicate, adoptRanges, unchanged, counted,
        countDuplicate]
    · simp [receive, isDuplicate, same, receiveDuplicate, adoptRanges, unchanged, counted,
        countDuplicate]
  · have greater : state.highestAcked < packet.ack :=
      above
    have differs : (packet.ack == state.highestAcked) = false :=
      beq_eq_false_iff_ne.mpr (UInt64.ne_of_lt greater).symm
    have notLess : ¬ packet.ack < state.highestAcked :=
      Nat.lt_asymm above
    convert @Effect.advance τ _ config source state packet acknowledges greater using 1
    simp [receive, isDuplicate, differs, receiveNew_eq, notLess, clearDuplicates,
      SenderState.advance, settle]

theorem transmit_effect
    (sends : packet.concern source = .sends) :
    Effect config source state packet (state.transmit config packet) := by
  by_cases repeated : packet.seq ≤ state.highestSent
  · cases isTimeout : (state.resendEvidence config packet).isTimeout with
    | true =>
        convert @Effect.timeout τ _ config source state packet sends repeated isTimeout using 1
        simp [transmit, isRepeated, repeated, isTimeout, timeOut, leaveRecovery]
    | false =>
        cases isOpen : state.inRecovery with
        | true =>
            convert @Effect.retransmission τ _ config source state packet
              sends repeated isTimeout isOpen using 1
            simp [transmit, isRepeated, repeated, isTimeout, retransmit, isOpen]
        | false =>
            convert @Effect.recoveryBegun τ _ config source state packet
              sends repeated isTimeout isOpen using 1
            simp [transmit, isRepeated, repeated, isTimeout, retransmit, isOpen,
              enterRecovery, Offset.max_eq_left]
  · have above : state.highestSent < packet.seq :=
      UInt64.not_le.mp repeated
    convert @Effect.newSend τ _ config source state packet sends above using 1
    simp [transmit, isRepeated, repeated, sendNew]

/-- A step of the replay sets the clock and then has one of the effects. -/
theorem step_effect :
    Effect config source { state with time := packet.time } packet
      (state.step config source packet) := by
  cases concern : packet.concern source with
  | acknowledges =>
      simp only [step, concern]
      exact receive_effect config source _ packet concern
  | sends =>
      simp only [step, concern]
      exact transmit_effect config source _ packet concern
  | control =>
      simp only [step, concern]
      exact .passedOver (by simp [concern]) (by simp [concern])
  | bare =>
      simp only [step, concern]
      exact .passedOver (by simp [concern]) (by simp [concern])
  | foreign =>
      simp only [step, concern]
      exact .passedOver (by simp [concern]) (by simp [concern])

end

end Retrace.SenderState
