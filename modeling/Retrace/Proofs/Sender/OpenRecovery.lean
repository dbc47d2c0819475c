import Retrace.Proofs.Sender.Recovery
namespace Retrace

/-!
# The open recovery

A recovery stays open from the retransmission that began it up to the next
bracket.  `Run.OpenSince` splits the packets of a run at that retransmission.
What the state holds while a recovery is open is then read off the two sides:
the recovery point off the packets before, the highest retransmission off those
since.  Whether there is anything left to recover is settled as it begins.
-/

variable {τ : Type}

namespace Episodes

section

variable
  {past later : List (Event τ)}
  {seq : Offset}

theorem brackets_append (first second : List (Event τ)) :
    brackets (first ++ second) = brackets first ++ brackets second :=
  List.filterMap_append

theorem resends_append (first second : List (Event τ)) :
    resends (first ++ second) = resends first ++ resends second :=
  List.filterMap_append

@[simp] theorem brackets_markArrived
    (state : SenderState τ)
    (segments : List Offset) :
    brackets (state.markArrived segments).events = [] := by
  apply List.filterMap_eq_nil_iff.mpr
  intro event member
  exact (isQuiet_of_mem_markArrived member).1

/-- As long as no bracket comes the same recovery stays open. -/
theorem openRecovery?_append
    (unbroken : brackets later = []) :
    openRecovery? (past ++ later) = openRecovery? past := by
  induction later using List.reverseRecOn with
  | nil =>
      simp
  | append_singleton rest event inductionHypothesis =>
      rw [brackets_concat] at unbroken
      obtain ⟨restUnbroken, noBracket⟩ := List.append_eq_nil_iff.mp unbroken
      have other : event.notice.bracket? = none :=
        Option.toList_eq_nil_iff.mp noBracket
      rw [← List.append_assoc, openRecovery?_other other,
        inductionHypothesis restUnbroken]

/-- As long as no bracket comes, what is retransmitted adds to the open recovery. -/
theorem openResends_append
    (unbroken : brackets later = [])
    (isOpen : (openRecovery? past).isSome = true) :
    openResends (past ++ later) = openResends past ++ resends later := by
  induction later using List.reverseRecOn with
  | nil =>
      simp [resends]
  | append_singleton rest event inductionHypothesis =>
      rw [brackets_concat] at unbroken
      obtain ⟨restUnbroken, noBracket⟩ := List.append_eq_nil_iff.mp unbroken
      have other : event.notice.bracket? = none :=
        Option.toList_eq_nil_iff.mp noBracket
      rw [← List.append_assoc, openResends_other other,
        openRecovery?_append restUnbroken, isOpen, if_pos rfl,
        inductionHypothesis restUnbroken, resends_concat, List.append_assoc]

end

end Episodes

/-! ## What a packet does to the brackets -/

namespace SenderState.Effect

variable
  [Timescale τ]
  {config : ReplayConfig τ}
  {source : Address}
  {state : SenderState τ}
  {packet : Packet τ}
  {outcome : Outcome τ}

/-- A packet reports no bracket, or one end, or it begins a recovery. -/
theorem brackets_cases
    (effect : Effect config source state packet outcome) :
    Episodes.brackets outcome.events = [] ∨
      Episodes.brackets outcome.events = [.left] ∨
      (packet.isSend source = true ∧
        outcome.events =
          [⟨.recoveryEntered, state.enterRecovery packet⟩,
            ⟨.retransmission packet, state.enterRecovery packet⟩]) := by
  cases effect with
  | passedOver noAck noSend =>
      exact Or.inl rfl
  | duplicate acknowledges repeats =>
      left
      change Episodes.brackets (_ ++ _) = []
      rw [Episodes.brackets_append, Episodes.brackets_markArrived]
      split <;> rfl
  | late acknowledges below =>
      cases state.endsRecovery packet with
      | false => exact Or.inl rfl
      | true => exact Or.inr (Or.inl rfl)
  | advance acknowledges above =>
      cases state.endsRecovery packet with
      | false =>
          left
          exact Episodes.brackets_markArrived _ _
      | true =>
          right
          left
          exact congrArg (Bracket.left :: ·) (Episodes.brackets_markArrived _ _)
  | newSend sends above =>
      exact Or.inl rfl
  | timeout sends repeated isTimeout =>
      cases state.inRecovery with
      | false => exact Or.inl rfl
      | true => exact Or.inr (Or.inl rfl)
  | recoveryBegun sends repeated noTimeout closed =>
      exact Or.inr (Or.inr ⟨Packet.isSend_of_concern sends, rfl⟩)
  | retransmission sends repeated noTimeout isOpen =>
      exact Or.inl rfl

end SenderState.Effect

namespace Run

section

variable
  [Timescale τ]
  (config : ReplayConfig τ)
  (source : Address)

/--
The recovery that is open after some packets began with one of them: it stands
after the earlier packets, and no packet later than it brackets a recovery.
-/
structure OpenSince
    (packets earlier : List (Packet τ))
    (packet : Packet τ)
    (later : List (Packet τ)) : Prop where
  shape :
    packets = earlier ++ packet :: later
  entered :
    .recoveryEntered ∈ notices config source earlier packet
  unbroken :
    Episodes.brackets
      ((next config source earlier packet).state.history config source later) = []

/-- The state with which the recovery of a packet begins. -/
def opening
    (earlier : List (Packet τ))
    (packet : Packet τ) :
    SenderState τ :=
  { state config source earlier with time := packet.time }.enterRecovery packet

/-- A packet that begins a recovery is a send, and reports just that and its retransmission. -/
theorem events_of_entered
    {earlier : List (Packet τ)}
    {packet : Packet τ}
    (entered : .recoveryEntered ∈ notices config source earlier packet) :
    packet.isSend source = true ∧
      (next config source earlier packet).events =
        [⟨.recoveryEntered, opening config source earlier packet⟩,
          ⟨.retransmission packet, opening config source earlier packet⟩] := by
  obtain ⟨event, member, isEntered⟩ := List.mem_map.mp entered
  have isBracket :
      .entered ∈
        Episodes.brackets (next config source earlier packet).events :=
    List.mem_filterMap.mpr ⟨event, member, by rw [isEntered]; rfl⟩
  rcases (next_effect config source earlier packet).brackets_cases with
    noBracket | oneEnd | begins
  · rw [noBracket] at isBracket
    exact (List.not_mem_nil isBracket).elim
  · rw [oneEnd] at isBracket
    cases List.mem_singleton.mp isBracket
  · exact begins

theorem exists_openSince
    {packets : List (Packet τ)}
    (isOpen : (state config source packets).inRecovery = true) :
    ∃ (earlier : List (Packet τ)) (packet : Packet τ) (later : List (Packet τ)),
      OpenSince config source packets earlier packet later := by
  rw [(remembers config source packets).inRecovery] at isOpen
  induction packets using List.reverseRecOn with
  | nil =>
      cases isOpen
  | append_singleton earlier packet inductionHypothesis =>
      rw [events_concat] at isOpen
      rcases (next_effect config source earlier packet).brackets_cases with
        noBracket | oneEnd | ⟨_, begins⟩
      · rw [Episodes.openRecovery?_append noBracket] at isOpen
        obtain ⟨front, opener, later, shape, entered, unbroken⟩ :=
          inductionHypothesis isOpen
        refine ⟨front, opener, later ++ [packet], ?_, entered, ?_⟩
        · rw [shape, List.append_assoc, List.cons_append]
        · have reached :
              (next config source front opener).state.stateAfter
                  config source later =
                state config source earlier := by
            rw [shape]
            simp [state, next]
          rw [SenderState.history_append, Episodes.brackets_append, unbroken,
            reached]
          simpa [next] using noBracket
      · -- After an end nothing is open.
        rw [Episodes.openRecovery?_isSome_iff, Episodes.brackets_append,
          oneEnd, List.getLast?_concat] at isOpen
        cases isOpen
      · refine ⟨earlier, packet, [], rfl, ?_, rfl⟩
        rw [notices, begins]
        exact List.mem_cons_self

end

namespace OpenSince

variable
  [Timescale τ]
  {config : ReplayConfig τ}
  {source : Address}
  {packets earlier later : List (Packet τ)}
  {packet latest : Packet τ}

theorem events_eq
    (since : OpenSince config source packets earlier packet later) :
    events config source packets =
      events config source earlier ++
        [⟨.recoveryEntered, opening config source earlier packet⟩] ++
        ⟨.retransmission packet, opening config source earlier packet⟩ ::
          (next config source earlier packet).state.history config source later := by
  rw [since.shape, events_append_cons, (events_of_entered config source since.entered).2]
  simp

theorem openRecovery?_eq
    (since : OpenSince config source packets earlier packet later) :
    Episodes.openRecovery? (events config source packets) =
      some ⟨.recoveryEntered, opening config source earlier packet⟩ := by
  rw [since.events_eq, Episodes.openRecovery?_append]
  · exact Episodes.openRecovery?_entered rfl
  · exact since.unbroken

theorem openResends_eq
    (since : OpenSince config source packets earlier packet later) :
    Episodes.openResends (events config source packets) =
      Episodes.resends
        ((state config source earlier).history config source (packet :: later)) := by
  have entered := (events_of_entered config source since.entered).2
  have opened :
      Episodes.openRecovery?
          (events config source earlier ++
            [⟨.recoveryEntered, opening config source earlier packet⟩]) =
        some ⟨.recoveryEntered, opening config source earlier packet⟩ :=
    Episodes.openRecovery?_entered rfl
  have noneBefore :
      Episodes.openResends
          (events config source earlier ++
            [⟨.recoveryEntered, opening config source earlier packet⟩]) =
        [] :=
    Episodes.openResends_bracket rfl
  rw [since.events_eq, Episodes.openResends_append, noneBefore,
    SenderState.history_cons, ← next, entered]
  · rfl
  · exact since.unbroken
  · rw [opened]
    rfl

theorem inRecovery
    (since : OpenSince config source packets earlier packet later) :
    (state config source packets).inRecovery = true := by
  rw [(remembers config source packets).inRecovery, since.openRecovery?_eq]
  rfl

theorem recoveryPoint
    (since : OpenSince config source packets earlier packet later) :
    (state config source packets).recoveryPoint =
      (state config source earlier).highestSent := by
  rw [(remembers config source packets).recoveryPoint, since.openRecovery?_eq]
  rfl

theorem recoveryPoint_le
    (since : OpenSince config source packets earlier packet later) :
    (state config source packets).recoveryPoint ≤
      (state config source packets).highestSent := by
  rw [since.recoveryPoint, state_highestSent, state_highestSent, since.shape]
  exact highestSeq_le_append source earlier (packet :: later)

theorem highestResent
    (since : OpenSince config source packets earlier packet later) :
    (state config source packets).highestResent =
      Offset.highest
        (Episodes.resends
          ((state config source earlier).history config source (packet :: later))) := by
  rw [(remembers config source packets).highestResent, since.openResends_eq]

theorem resends_ne_nil
    (since : OpenSince config source packets earlier packet later) :
    Episodes.resends
        ((state config source earlier).history config source (packet :: later)) ≠
      [] := by
  have entered := (events_of_entered config source since.entered).2
  rw [SenderState.history_cons, ← next, entered]
  exact List.cons_ne_nil _ _

theorem mem_resends_of_since
    (since : OpenSince config source packets earlier packet later)
    {seq : Offset}
    (resent :
      seq ∈ Episodes.resends
        ((state config source earlier).history config source (packet :: later))) :
    seq ∈ Episodes.resends (events config source packets) := by
  rw [since.shape, events, SenderState.history_append, Episodes.resends_append]
  exact List.mem_append_right _ resent

/-! ## What is left to recover -/

/-- Without its last packet a run is in the same recovery, and that packet ends none. -/
theorem concat_inv
    (since :
      OpenSince config source (earlier ++ packet :: (later ++ [latest])) earlier packet
        (later ++ [latest])) :
    OpenSince config source (earlier ++ packet :: later) earlier packet later ∧
      .recoveryLeft ∉
        notices config source (earlier ++ packet :: later) latest := by
  have reached :
      (next config source earlier packet).state.stateAfter config source later =
        state config source (earlier ++ packet :: later) := by
    simp [state, next]
  have unbroken := since.unbroken
  rw [SenderState.history_append, reached, Episodes.brackets_append,
    List.append_eq_nil_iff] at unbroken
  obtain ⟨restUnbroken, latestUnbroken⟩ := unbroken
  refine ⟨⟨rfl, since.entered, restUnbroken⟩, ?_⟩
  intro left
  obtain ⟨event, member, isLeft⟩ := List.mem_map.mp left
  rw [SenderState.history_cons, Episodes.brackets_append,
    List.append_eq_nil_iff] at latestUnbroken
  have noBracket := List.filterMap_eq_nil_iff.mp latestUnbroken.1 event member
  rw [isLeft] at noBracket
  cases noBracket

/-- No acknowledgment passes the point of the recovery it leaves open. -/
theorem ack_le_point
    (since : OpenSince config source packets earlier packet later)
    (isAck : latest.isAckTo source = true)
    (notLeft : .recoveryLeft ∉ notices config source packets latest)
    (isNew : latest.ack ≠ highestAck source packets) :
    latest.ack ≤ (state config source earlier).highestSent := by
  apply UInt64.not_lt.mp
  intro passes
  apply notLeft
  rw [left_iff]
  refine ⟨_, since.openRecovery?_eq, Or.inr ⟨isAck, ?_, passes⟩⟩
  rw [state_highestAcked]
  exact isNew

/-- An open recovery is ahead of the acknowledgments exactly when it began so. -/
theorem acked_le_iff
    (since : OpenSince config source packets earlier packet later) :
    highestAck source packets ≤ (state config source earlier).highestSent ↔
      highestAck source earlier ≤ (state config source earlier).highestSent := by
  -- By induction on what came since: new data acknowledged stays within the point.
  obtain rfl := since.shape
  induction later using List.reverseRecOn with
  | nil =>
      have isSend := (events_of_entered config source since.entered).1
      rw [highestAck_concat, Packet.isAckTo_of_isSend isSend]
      rfl
  | append_singleton rest latest inductionHypothesis =>
      obtain ⟨sinceBefore, notLeft⟩ := since.concat_inv
      rw [← inductionHypothesis sinceBefore, ← List.cons_append,
        ← List.append_assoc, highestAck_concat]
      cases isAck : latest.isAckTo source with
      | false =>
          rfl
      | true =>
          rw [if_pos rfl]
          by_cases repeats :
              latest.ack = highestAck source (earlier ++ packet :: rest)
          · rw [repeats, Offset.max_eq_left (UInt64.le_refl _)]
          · have within := sinceBefore.ack_le_point isAck notLeft repeats
            rw [Offset.max_le_iff]
            exact and_iff_left within

end OpenSince

section

variable
  [Timescale τ]
  (config : ReplayConfig τ)
  (source : Address)

/--
When an open recovery still has something to recover.

While a recovery is open, the highest acknowledgment does not lie above its
point exactly when it did not lie above the highest number sent as the recovery
began: no later acknowledgment passes the point and leaves the recovery open.
-/
theorem open_recovery_ahead_iff (packets : List (Packet τ)) :
    ((state config source packets).inRecovery = true →
        (state config source packets).highestAcked ≤
          (state config source packets).recoveryPoint) ↔
      ∀ (earlier : List (Packet τ)) (packet : Packet τ) (later : List (Packet τ)),
        OpenSince config source packets earlier packet later →
          (state config source earlier).highestAcked ≤
            (state config source earlier).highestSent := by
  constructor
  · intro ahead earlier packet later since
    have within := ahead since.inRecovery
    rw [state_highestAcked, since.recoveryPoint, since.acked_le_iff] at within
    rw [state_highestAcked]
    exact within
  · intro beganAhead isOpen
    obtain ⟨earlier, packet, later, since⟩ := exists_openSince config source isOpen
    have within := beganAhead earlier packet later since
    rw [state_highestAcked] at within
    rw [state_highestAcked, since.recoveryPoint, since.acked_le_iff]
    exact within

end

/-- A segment is sent, acknowledged, and sent again. -/
def acknowledgedSegment : List (Packet Float) :=
  [Flow.sample.segment 1 0.0, Flow.sample.acknowledgment 1447 none 0.25,
    Flow.sample.segment 1 0.5]

/-- A segment that is sent again after its acknowledgment begins a recovery of nothing. -/
theorem acknowledgedSegment_recovered :
    ¬ ((state ReplayConfig.standard (.v4 1) acknowledgedSegment).inRecovery = true →
        (state ReplayConfig.standard (.v4 1) acknowledgedSegment).highestAcked ≤
          (state ReplayConfig.standard (.v4 1) acknowledgedSegment).recoveryPoint) := by
  decide +kernel

end Run

end Retrace
