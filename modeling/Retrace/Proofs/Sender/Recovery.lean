import Retrace.Proofs.Sender.Classification
namespace Retrace

/-!
# Recoveries of a run

The events of every run are well bracketed.  This module reads that off the
grammar as facts about the brackets and their numbers, says of every packet
whether it begins or ends a recovery, and collects both in `BracketsRecoveries`.
-/

variable {τ : Type}

namespace Episodes

/-! ## Readings of the grammar -/

theorem openRecovery?_isSome_iff (events : List (Event τ)) :
    (openRecovery? events).isSome = true ↔
      (brackets events).getLast? = some .entered := by
  induction events using List.reverseRecOn with
  | nil =>
      simp [openRecovery?, brackets]
  | append_singleton past event inductionHypothesis =>
      rw [brackets_concat]
      cases bracket : event.notice.bracket? with
      | none =>
          rw [openRecovery?_other bracket, inductionHypothesis]
          simp
      | some kind =>
          cases kind with
          | entered =>
              simp [openRecovery?_entered bracket]
          | left =>
              simp [openRecovery?_left bracket]

/-- A bracket that differs from the last one goes on alternating. -/
theorem alternates_concat
    {past : List Bracket}
    {bracket : Bracket}
    (alternates : (Bracket.left :: past).IsChain (· ≠ ·))
    (differs : (Bracket.left :: past).getLast? ≠ some bracket) :
    (Bracket.left :: (past ++ [bracket])).IsChain (· ≠ ·) := by
  rw [← List.cons_append, List.isChain_append]
  refine ⟨alternates, List.isChain_singleton bracket, ?_⟩
  intro last isLast next isNext same
  have nextIs : bracket = next := by
    simpa using isNext
  apply differs
  rw [nextIs, ← same]
  exact isLast

namespace WellBracketed

variable
  {past events : List (Event τ)}
  {event : Event τ}

/-- Beginnings and ends alternate, as if an end had come first. -/
theorem alternates
    (wellBracketed : WellBracketed events) :
    (Bracket.left :: brackets events).IsChain (· ≠ ·) := by
  induction wellBracketed with
  | nil =>
      exact List.isChain_singleton _
  | quiet earlier isQuiet inductionHypothesis =>
      rw [brackets_concat, isQuiet.1]
      simpa using inductionHypothesis
  | @enter past event earlier closed entered numbered inductionHypothesis =>
      -- Nothing is open, so the last bracket is an end or there is none.
      have notOpen : (brackets past).getLast? ≠ some .entered := by
        rw [ne_eq, ← openRecovery?_isSome_iff, closed]
        exact Bool.false_ne_true
      rw [brackets_concat, entered]
      apply alternates_concat inductionHypothesis
      cases last : (brackets past).getLast? with
      | none =>
          simp [List.getLast?_cons, last]
      | some bracket =>
          rw [last] at notOpen
          simpa [List.getLast?_cons, last] using notOpen
  | resend earlier isOpen resent numbered inductionHypothesis =>
      rw [brackets_concat, resent]
      simpa [Notice.bracket?] using inductionHypothesis
  | @leave past event entry earlier isOpen left inductionHypothesis =>
      have lastEntered : (brackets past).getLast? = some .entered := by
        rw [← openRecovery?_isSome_iff, isOpen]
        rfl
      rw [brackets_concat, left]
      apply alternates_concat inductionHypothesis
      simp [List.getLast?_cons, lastEntered]

theorem numbers
    (wellBracketed : WellBracketed events) :
    (entries events).map (fun entry => entry.state.recoveryNumber) =
      List.range' 1 (entries events).length := by
  induction wellBracketed with
  | nil =>
      rfl
  | quiet earlier isQuiet inductionHypothesis =>
      rw [entries_other (by simp [isQuiet.1])]
      exact inductionHypothesis
  | enter earlier closed entered numbered inductionHypothesis =>
      rw [entries_entered (by rw [entered]; rfl), List.map_append,
        inductionHypothesis, List.length_append, List.length_singleton,
        List.range'_1_concat, List.map_singleton, numbered, Nat.add_comm]
  | resend earlier isOpen resent numbered inductionHypothesis =>
      rw [entries_other (by simp [resent, Notice.bracket?])]
      exact inductionHypothesis
  | leave earlier isOpen left inductionHypothesis =>
      rw [entries_other (by simp [left, Notice.bracket?])]
      exact inductionHypothesis

/-- Without its last event a list is well bracketed too; a retransmission was in a recovery. -/
theorem concat_inv
    (wellBracketed : WellBracketed (past ++ [event])) :
    WellBracketed past ∧
      ∀ packet,
        event.notice = .retransmission packet →
        ∃ entry,
          openRecovery? past = some entry ∧
            event.state.recoveryNumber = entry.state.recoveryNumber := by
  generalize shape : past ++ [event] = events at wellBracketed
  cases wellBracketed with
  | nil =>
      exact (List.append_ne_nil_of_right_ne_nil _ (List.cons_ne_nil _ _) shape).elim
  | quiet earlier isQuiet =>
      obtain ⟨rfl, same⟩ := List.append_inj' shape rfl
      cases same
      refine ⟨earlier, ?_⟩
      intro packet resent
      have noResend := isQuiet.2
      rw [resent] at noResend
      cases noResend
  | enter earlier closed entered numbered =>
      obtain ⟨rfl, same⟩ := List.append_inj' shape rfl
      cases same
      refine ⟨earlier, ?_⟩
      intro packet resent
      rw [entered] at resent
      cases resent
  | resend earlier isOpen resent numbered =>
      obtain ⟨rfl, same⟩ := List.append_inj' shape rfl
      cases same
      exact ⟨earlier, fun _ _ => ⟨_, isOpen, numbered⟩⟩
  | leave earlier isOpen left =>
      obtain ⟨rfl, same⟩ := List.append_inj' shape rfl
      cases same
      refine ⟨earlier, ?_⟩
      intro packet resent
      rw [left] at resent
      cases resent

theorem front
    {later : List (Event τ)}
    (wellBracketed : WellBracketed (past ++ later)) :
    WellBracketed past := by
  induction later using List.reverseRecOn with
  | nil =>
      simpa using wellBracketed
  | append_singleton rest event inductionHypothesis =>
      rw [← List.append_assoc] at wellBracketed
      exact inductionHypothesis wellBracketed.concat_inv.1

/-- Whatever is retransmitted carries the number of the recovery open then. -/
theorem resent_number
    {later : List (Event τ)}
    {packet : Packet τ}
    (wellBracketed : WellBracketed (past ++ event :: later))
    (resent : event.notice = .retransmission packet) :
    ∃ entry,
      openRecovery? past = some entry ∧
        event.state.recoveryNumber = entry.state.recoveryNumber := by
  rw [← List.singleton_append, ← List.append_assoc] at wellBracketed
  exact wellBracketed.front.concat_inv.2 packet resent

end WellBracketed

end Episodes

/-! ## What begins and ends a recovery -/

namespace SenderState.Effect

variable
  [Timescale τ]
  {config : ReplayConfig τ}
  {source : Address}
  {state : SenderState τ}
  {packet : Packet τ}
  {outcome : Outcome τ}

/--
Either a packet is retransmitted while no recovery is open, and reports the
beginning of one and then itself; or no recovery begins, and if the packet is
retransmitted one is open.
-/
theorem entered_cases
    (effect : Effect config source state packet outcome) :
    (state.inRecovery = false ∧
        outcome.events.map Event.notice =
          [.recoveryEntered, .retransmission packet]) ∨
      (.recoveryEntered ∉ outcome.events.map Event.notice ∧
        (.retransmission packet ∈ outcome.events.map Event.notice →
          state.inRecovery = true)) := by
  cases effect with
  | passedOver noAck noSend =>
      simp
  | duplicate acknowledges repeats =>
      by_cases unchanged : packet.sackRanges = state.sackRanges <;>
        simp [unchanged]
  | late acknowledges below =>
      cases state.endsRecovery packet <;>
        simp
  | advance acknowledges above =>
      cases state.endsRecovery packet <;>
        simp
  | newSend sends above =>
      simp
  | timeout sends repeated isTimeout =>
      cases state.inRecovery <;>
        simp
  | recoveryBegun sends repeated noTimeout closed =>
      exact Or.inl ⟨closed, rfl⟩
  | retransmission sends repeated noTimeout isOpen =>
      simp [isOpen]

theorem entered_iff
    (effect : Effect config source state packet outcome) :
    .recoveryEntered ∈ outcome.events.map Event.notice ↔
      .retransmission packet ∈ outcome.events.map Event.notice ∧
        state.inRecovery = false := by
  rcases effect.entered_cases with ⟨closed, notices⟩ | ⟨notEntered, keepsOpen⟩
  · simp [notices, closed]
  · constructor
    · intro entered
      exact (notEntered entered).elim
    · rintro ⟨resent, closed⟩
      have isOpen := keepsOpen resent
      rw [closed] at isOpen
      cases isOpen

theorem notices_of_entered
    (effect : Effect config source state packet outcome)
    (entered : .recoveryEntered ∈ outcome.events.map Event.notice) :
    outcome.events.map Event.notice =
      [.recoveryEntered, .retransmission packet] := by
  rcases effect.entered_cases with ⟨_, notices⟩ | ⟨notEntered, _⟩
  · exact notices
  · exact (notEntered entered).elim

/-- A recovery ends with a timeout, or with an acknowledgment of another number above its point. -/
theorem left_iff
    (effect : Effect config source state packet outcome) :
    .recoveryLeft ∈ outcome.events.map Event.notice ↔
      state.inRecovery = true ∧
        (.timeout packet ∈ outcome.events.map Event.notice ∨
          (packet.isAckTo source = true ∧
            packet.ack ≠ state.highestAcked ∧
            state.recoveryPoint < packet.ack)) := by
  rw [Packet.isAckTo_eq]
  cases effect with
  | passedOver noAck noSend =>
      simp [noAck]
  | duplicate acknowledges repeats =>
      by_cases unchanged : packet.sackRanges = state.sackRanges <;>
        simp [unchanged, repeats]
  | late acknowledges below =>
      have differs : packet.ack ≠ state.highestAcked :=
        UInt64.ne_of_lt below
      by_cases passes : state.recoveryPoint < packet.ack <;>
        cases isOpen : state.inRecovery <;>
        simp [acknowledges, differs, endsRecovery, passes, isOpen]
  | advance acknowledges above =>
      have differs : packet.ack ≠ state.highestAcked :=
        (UInt64.ne_of_lt above).symm
      by_cases passes : state.recoveryPoint < packet.ack <;>
        cases isOpen : state.inRecovery <;>
        simp [acknowledges, differs, endsRecovery, passes, isOpen]
  | newSend sends above =>
      simp [sends]
  | timeout sends repeated isTimeout =>
      cases isOpen : state.inRecovery <;>
        simp
  | recoveryBegun sends repeated noTimeout closed =>
      simp [closed]
  | retransmission sends repeated noTimeout isOpen =>
      simp [sends]

theorem isSend_of_timeout
    (effect : Effect config source state packet outcome)
    (told : .timeout packet ∈ outcome.events.map Event.notice) :
    packet.isSend source = true := by
  have among : .timeout packet ∈ sendNotices outcome.events :=
    List.mem_filter.mpr ⟨told, rfl⟩
  rw [effect.sendNotices_eq] at among
  by_contra notSend
  rw [if_neg notSend] at among
  exact List.not_mem_nil among

end SenderState.Effect

/-! ## The recoveries of a run -/

section

variable
  [Timescale τ]
  (config : ReplayConfig τ)
  (source : Address)

theorem Run.left_iff
    (earlier : List (Packet τ))
    (packet : Packet τ) :
    .recoveryLeft ∈ Run.notices config source earlier packet ↔
      ∃ entry,
        Episodes.openRecovery? (Run.events config source earlier) = some entry ∧
          (.timeout packet ∈ Run.notices config source earlier packet ∨
            (packet.isAckTo source = true ∧
              packet.ack ≠ (Run.state config source earlier).highestAcked ∧
              entry.state.recoveryPoint < packet.ack)) := by
  have remembers := Run.remembers config source earlier
  have pointOf {entry : Event τ}
      (isOpen :
        Episodes.openRecovery? (Run.events config source earlier) = some entry) :
      (Run.state config source earlier).recoveryPoint =
        entry.state.recoveryPoint := by
    rw [remembers.recoveryPoint, isOpen]
    rfl
  rw [Run.notices, (Run.next_effect config source earlier packet).left_iff]
  constructor
  · rintro ⟨inRecovery, ends⟩
    obtain ⟨entry, isOpen⟩ := remembers.isOpen_iff.mp inRecovery
    refine ⟨entry, isOpen, ?_⟩
    rw [← pointOf isOpen]
    exact ends
  · rintro ⟨entry, isOpen, ends⟩
    rw [← pointOf isOpen] at ends
    exact ⟨remembers.isOpen_iff.mpr ⟨entry, isOpen⟩, ends⟩

/--
Runs bracket their recoveries.

Beginnings and ends alternate, a beginning first, and the state is in recovery
exactly when a beginning came last.  A recovery begins exactly when data is
retransmitted while none is open, right before the retransmission is reported.
It ends exactly when a timeout follows, or when a number other than the highest
is acknowledged that exceeds the recovery point noted as it began; duplicate
acknowledgments, and timeouts while none is open, end nothing.  The recoveries
are numbered 1, 2, 3, … as they begin, and whatever is retransmitted carries the
number of the recovery open at that moment.
-/
structure BracketsRecoveries : Prop where
  alternate :
    ∀ packets : List (Packet τ),
      (Episodes.brackets (Run.events config source packets)).IsChain (· ≠ ·)
  enteredFirst :
    ∀ packets : List (Packet τ),
      (Episodes.brackets (Run.events config source packets)).head? ≠ some .left
  inRecovery :
    ∀ packets : List (Packet τ),
      (Run.state config source packets).inRecovery = true ↔
        (Episodes.brackets (Run.events config source packets)).getLast? =
          some .entered
  enters :
    ∀ (earlier : List (Packet τ)) (packet : Packet τ),
      .recoveryEntered ∈ Run.notices config source earlier packet ↔
        .retransmission packet ∈ Run.notices config source earlier packet ∧
          Episodes.openRecovery? (Run.events config source earlier) = none
  entersBefore :
    ∀ (earlier : List (Packet τ)) (packet : Packet τ),
      .recoveryEntered ∈ Run.notices config source earlier packet →
        Run.notices config source earlier packet =
          [.recoveryEntered, .retransmission packet]
  leaves :
    ∀ (earlier : List (Packet τ)) (packet : Packet τ),
      .recoveryLeft ∈ Run.notices config source earlier packet ↔
        ∃ entry,
          Episodes.openRecovery? (Run.events config source earlier) = some entry ∧
            (.timeout packet ∈ Run.notices config source earlier packet ∨
              (packet.isAckTo source = true ∧
                packet.ack ≠ (Run.state config source earlier).highestAcked ∧
                entry.state.recoveryPoint < packet.ack))
  duplicateEndsNone :
    ∀ (earlier : List (Packet τ)) (packet : Packet τ),
      packet.isAckTo source = true →
      packet.ack = (Run.state config source earlier).highestAcked →
        .recoveryLeft ∉ Run.notices config source earlier packet
  timeoutEndsNone :
    ∀ (earlier : List (Packet τ)) (packet : Packet τ),
      .timeout packet ∈ Run.notices config source earlier packet →
      Episodes.openRecovery? (Run.events config source earlier) = none →
        .recoveryLeft ∉ Run.notices config source earlier packet
  numbers :
    ∀ packets : List (Packet τ),
      (Episodes.entries (Run.events config source packets)).map
          (fun entry => entry.state.recoveryNumber) =
        List.range' 1
          (Episodes.entries (Run.events config source packets)).length
  resentNumber :
    ∀ (packets : List (Packet τ))
      (past later : List (Event τ))
      (event : Event τ)
      (packet : Packet τ),
      Run.events config source packets = past ++ event :: later →
      event.notice = .retransmission packet →
        ∃ entry,
          Episodes.openRecovery? past = some entry ∧
            event.state.recoveryNumber = entry.state.recoveryNumber

/-- Every run brackets its recoveries. -/
theorem recoveries_bracketed : BracketsRecoveries config source := by
  have remembers (packets : List (Packet τ)) :
      Episodes.Remembers (Run.events config source packets)
        (Run.state config source packets) :=
    Run.remembers config source packets
  constructor
  case alternate =>
    intro packets
    exact (List.isChain_cons.mp (remembers packets).wellBracketed.alternates).2
  case enteredFirst =>
    intro packets isLeft
    have differs :=
      (List.isChain_cons.mp (remembers packets).wellBracketed.alternates).1
    exact differs .left isLeft rfl
  case inRecovery =>
    intro packets
    rw [(remembers packets).inRecovery, Episodes.openRecovery?_isSome_iff]
  case enters =>
    intro earlier packet
    rw [← (remembers earlier).closed_iff]
    exact (Run.next_effect config source earlier packet).entered_iff
  case entersBefore =>
    intro earlier packet entered
    exact (Run.next_effect config source earlier packet).notices_of_entered entered
  case leaves =>
    exact Run.left_iff config source
  case duplicateEndsNone =>
    intro earlier packet isAck repeats left
    obtain ⟨entry, isOpen, ends⟩ := (Run.left_iff config source earlier packet).mp left
    rcases ends with told | ⟨_, differs, _⟩
    · have isSend :=
        (Run.next_effect config source earlier packet).isSend_of_timeout told
      rw [Packet.isAckTo_eq, decide_eq_true_iff] at isAck
      rw [Packet.isSend_eq, isAck] at isSend
      cases isSend
    · exact differs repeats
  case timeoutEndsNone =>
    intro earlier packet told closed left
    obtain ⟨entry, isOpen, _⟩ := (Run.left_iff config source earlier packet).mp left
    rw [closed] at isOpen
    cases isOpen
  case numbers =>
    intro packets
    exact (remembers packets).wellBracketed.numbers
  case resentNumber =>
    intro packets past later event packet shape resent
    have wellBracketed := (remembers packets).wellBracketed
    rw [shape] at wellBracketed
    exact wellBracketed.resent_number resent

end

end Retrace
