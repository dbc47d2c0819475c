import Mathlib.Data.List.Chain
import Mathlib.Data.List.DropRight
import Retrace.Proofs.Sender.Run
namespace Retrace

/-!
# Recoveries read off events

Two kinds of events bracket a recovery.  This module reads off a list of events
which recovery is open at its end and what was retransmitted in it, says which
lists of events are well bracketed, and proves that the sender's state remembers
of the events of a run exactly that.
-/

variable {τ : Type}

/-- What an event does to a recovery. -/
inductive Bracket
  | entered
  | left
deriving DecidableEq, Repr

namespace Notice

/-- Whether a notice says that a recovery began or ended. -/
def bracket? : Notice τ → Option Bracket
  | .recoveryEntered => some .entered
  | .recoveryLeft => some .left
  | _ => none

/-- The sequence number that a notice says was retransmitted. -/
def resent? : Notice τ → Option Offset
  | .retransmission packet => some packet.seq
  | _ => none

end Notice

namespace Event

/-- Whether a recovery begins or ends with an event. -/
def isBracket (event : Event τ) : Bool :=
  event.notice.bracket?.isSome

/-- Whether a recovery begins with an event. -/
def isEntry (event : Event τ) : Bool :=
  event.notice.bracket? == some .entered

/-- An event that neither brackets a recovery nor retransmits anything. -/
def IsQuiet (event : Event τ) : Prop :=
  event.notice.bracket? = none ∧ event.notice.resent? = none

end Event

namespace Episodes

/-- The beginnings and ends of recoveries, in order. -/
def brackets (events : List (Event τ)) : List Bracket :=
  events.filterMap fun event => event.notice.bracket?

/-- The events with which recoveries begin, in order. -/
def entries (events : List (Event τ)) : List (Event τ) :=
  events.filter Event.isEntry

/-- The event that began the recovery open at the end: the last bracket, if it is a beginning. -/
def openRecovery? (events : List (Event τ)) : Option (Event τ) :=
  (events.findRev? Event.isBracket).filter Event.isEntry

/-- The sequence numbers retransmitted, in order. -/
def resends (events : List (Event τ)) : List Offset :=
  events.filterMap fun event => event.notice.resent?

/-- The sequence numbers retransmitted since the open recovery began, none if none is open. -/
def openResends (events : List (Event τ)) : List Offset :=
  if (openRecovery? events).isSome then
    resends (events.rtakeWhile fun event => !event.isBracket)
  else
    []

section

variable
  {past : List (Event τ)}
  {event : Event τ}

theorem openRecovery?_entered
    (entered : event.notice.bracket? = some .entered) :
    openRecovery? (past ++ [event]) = some event := by
  simp [openRecovery?, List.findRev?_eq_find?_reverse, Event.isBracket,
    Event.isEntry, entered]

theorem openRecovery?_left
    (left : event.notice.bracket? = some .left) :
    openRecovery? (past ++ [event]) = none := by
  simp [openRecovery?, List.findRev?_eq_find?_reverse, Event.isBracket,
    Event.isEntry, left]

theorem openRecovery?_other
    (other : event.notice.bracket? = none) :
    openRecovery? (past ++ [event]) = openRecovery? past := by
  simp [openRecovery?, List.findRev?_eq_find?_reverse, Event.isBracket, other]

theorem openResends_bracket
    {bracket : Bracket}
    (isBracket : event.notice.bracket? = some bracket) :
    openResends (past ++ [event]) = [] := by
  simp [openResends, Event.isBracket, isBracket, resends]

theorem openResends_other
    (other : event.notice.bracket? = none) :
    openResends (past ++ [event]) =
      openResends past ++
        if (openRecovery? past).isSome then event.notice.resent?.toList else [] := by
  cases isOpen : (openRecovery? past).isSome with
  | false =>
      simp [openResends, openRecovery?_other other, isOpen]
  | true =>
      cases resent : event.notice.resent? <;>
        simp [openResends, openRecovery?_other other, isOpen, Event.isBracket,
          other, resends, resent]

theorem brackets_concat :
    brackets (past ++ [event]) = brackets past ++ event.notice.bracket?.toList := by
  cases bracket : event.notice.bracket? <;>
    simp [brackets, bracket]

theorem resends_concat :
    resends (past ++ [event]) = resends past ++ event.notice.resent?.toList := by
  cases resent : event.notice.resent? <;>
    simp [resends, resent]

theorem entries_entered
    (entered : event.notice.bracket? = some .entered) :
    entries (past ++ [event]) = entries past ++ [event] := by
  simp [entries, Event.isEntry, entered]

theorem entries_other
    (other : event.notice.bracket? ≠ some .entered) :
    entries (past ++ [event]) = entries past := by
  simp [entries, Event.isEntry, other]

end

/--
Well-bracketed events, built up event by event.

A recovery begins only while none is open and takes the next number; it ends
only while it is open; and whatever is retransmitted is retransmitted in the
open recovery, under that recovery's number.
-/
inductive WellBracketed : List (Event τ) → Prop
  | nil :
      WellBracketed []
  | quiet
      {past : List (Event τ)}
      {event : Event τ}
      (earlier : WellBracketed past)
      (isQuiet : event.IsQuiet) :
      WellBracketed (past ++ [event])
  | enter
      {past : List (Event τ)}
      {event : Event τ}
      (earlier : WellBracketed past)
      (closed : openRecovery? past = none)
      (entered : event.notice = .recoveryEntered)
      (numbered : event.state.recoveryNumber = (entries past).length + 1) :
      WellBracketed (past ++ [event])
  | resend
      {past : List (Event τ)}
      {event entry : Event τ}
      {packet : Packet τ}
      (earlier : WellBracketed past)
      (isOpen : openRecovery? past = some entry)
      (resent : event.notice = .retransmission packet)
      (numbered : event.state.recoveryNumber = entry.state.recoveryNumber) :
      WellBracketed (past ++ [event])
  | leave
      {past : List (Event τ)}
      {event entry : Event τ}
      (earlier : WellBracketed past)
      (isOpen : openRecovery? past = some entry)
      (left : event.notice = .recoveryLeft) :
      WellBracketed (past ++ [event])

/-! ## What the state remembers -/

/-- What the state holds about recoveries. -/
def recoveryFields
    (state : SenderState τ) :
    Bool × Offset × Nat × Offset × Std.TreeMap Offset Nat :=
  (state.inRecovery, state.recoveryPoint, state.recoveryNumber,
    state.highestResent, state.retransmitted)

/-- A state remembers of well-bracketed events what bears on the recoveries. -/
structure Remembers
    (past : List (Event τ))
    (state : SenderState τ) : Prop where
  wellBracketed :
    WellBracketed past
  inRecovery :
    state.inRecovery = (openRecovery? past).isSome
  recoveryPoint :
    state.recoveryPoint =
      ((openRecovery? past).map fun entry => entry.state.recoveryPoint).getD 0
  recoveryNumber :
    state.recoveryNumber = (entries past).length
  openNumber :
    ∀ {entry},
      openRecovery? past = some entry →
      entry.state.recoveryNumber = state.recoveryNumber
  highestResent :
    state.highestResent = Offset.highest (openResends past)
  retransmitted :
    ∀ seq,
      seq ∈ state.retransmitted ↔ seq ∈ resends past

namespace Remembers

variable
  {past : List (Event τ)}
  {event : Event τ}
  {state : SenderState τ}

theorem initial [Timescale τ] :
    Remembers [] (SenderState.initial : SenderState τ) where
  wellBracketed := .nil
  inRecovery := rfl
  recoveryPoint := rfl
  recoveryNumber := rfl
  openNumber isOpen := by
    cases isOpen
  highestResent := rfl
  retransmitted seq := by
    simp [SenderState.initial, resends]

/-- Only the recovery fields of a state take part. -/
theorem transfer
    {other : SenderState τ}
    (remembers : Remembers past state)
    (same : recoveryFields other = recoveryFields state) :
    Remembers past other := by
  simp only [recoveryFields, Prod.mk.injEq] at same
  obtain ⟨inRecovery, recoveryPoint, recoveryNumber, highestResent,
    retransmitted⟩ := same
  constructor
  · exact remembers.wellBracketed
  · rw [inRecovery, remembers.inRecovery]
  · rw [recoveryPoint, remembers.recoveryPoint]
  · rw [recoveryNumber, remembers.recoveryNumber]
  · intro entry isOpen
    rw [recoveryNumber, remembers.openNumber isOpen]
  · rw [highestResent, remembers.highestResent]
  · intro seq
    rw [retransmitted, remembers.retransmitted]

theorem quiet
    (remembers : Remembers past state)
    (isQuiet : event.IsQuiet) :
    Remembers (past ++ [event]) state := by
  obtain ⟨noBracket, noResend⟩ := isQuiet
  constructor
  · exact .quiet remembers.wellBracketed ⟨noBracket, noResend⟩
  · rw [openRecovery?_other noBracket, remembers.inRecovery]
  · rw [openRecovery?_other noBracket, remembers.recoveryPoint]
  · rw [entries_other (by simp [noBracket]), remembers.recoveryNumber]
  · rw [openRecovery?_other noBracket]
    exact remembers.openNumber
  · simp [openResends_other noBracket, noResend, remembers.highestResent]
  · simp [resends_concat, noResend, remembers.retransmitted]

theorem quiets
    {later : List (Event τ)}
    (remembers : Remembers past state)
    (allQuiet : ∀ event ∈ later, event.IsQuiet) :
    Remembers (past ++ later) state := by
  induction later generalizing past with
  | nil =>
      simpa using remembers
  | cons event rest inductionHypothesis =>
      have first : Remembers (past ++ [event]) state :=
        remembers.quiet (allQuiet event List.mem_cons_self)
      have all := inductionHypothesis first fun event member =>
        allQuiet event (List.mem_cons_of_mem _ member)
      simpa using all

theorem isOpen_iff
    (remembers : Remembers past state) :
    state.inRecovery = true ↔ ∃ entry, openRecovery? past = some entry := by
  rw [remembers.inRecovery]
  exact Option.isSome_iff_exists

theorem closed_iff
    (remembers : Remembers past state) :
    state.inRecovery = false ↔ openRecovery? past = none := by
  rw [remembers.inRecovery]
  exact Option.isSome_eq_false_iff.trans Option.isNone_iff_eq_none

/-- When an open recovery ends, the state forgets its fields. -/
theorem leave
    (remembers : Remembers past state)
    (isOpen : state.inRecovery = true)
    (left : event.notice = .recoveryLeft) :
    Remembers (past ++ [event]) state.leaveRecovery := by
  have isLeft : event.notice.bracket? = some .left := by
    rw [left]
    rfl
  have noResend : event.notice.resent? = none := by
    rw [left]
    rfl
  obtain ⟨entry, entryShape⟩ := remembers.isOpen_iff.mp isOpen
  constructor
  · exact .leave remembers.wellBracketed entryShape left
  · simp [openRecovery?_left isLeft, SenderState.leaveRecovery]
  · simp [openRecovery?_left isLeft, SenderState.leaveRecovery]
  · rw [entries_other (by simp [isLeft])]
    exact remembers.recoveryNumber
  · simp [openRecovery?_left isLeft]
  · simp [openResends_bracket isLeft, SenderState.leaveRecovery]
  · simp [resends_concat, noResend, SenderState.leaveRecovery,
      remembers.retransmitted]

theorem leave_of_closed
    (remembers : Remembers past state)
    (closed : state.inRecovery = false) :
    Remembers past state.leaveRecovery := by
  have noEntry := remembers.closed_iff.mp closed
  apply remembers.transfer
  have noResent : state.highestResent = 0 := by
    simp [remembers.highestResent, openResends, noEntry]
  have noPoint : state.recoveryPoint = 0 := by
    simp [remembers.recoveryPoint, noEntry]
  simp [recoveryFields, SenderState.leaveRecovery, closed, noResent, noPoint]

private theorem mem_insert_iff
    {numbers : Std.TreeMap Offset Nat}
    {seq added : Offset}
    {number : Nat} :
    seq ∈ numbers.insert added number ↔ seq ∈ numbers ∨ seq = added := by
  rw [Std.TreeMap.mem_insert, Std.LawfulEqOrd.compare_eq_iff_eq, or_comm,
    eq_comm (a := added)]

/-- The retransmission that finds no recovery open begins one. -/
theorem enter
    (remembers : Remembers past state)
    (packet : Packet τ)
    (closed : state.inRecovery = false) :
    Remembers
      (past ++ [⟨.recoveryEntered, state.enterRecovery packet⟩,
        ⟨.retransmission packet, state.enterRecovery packet⟩])
      { state.enterRecovery packet with
        retransmitted :=
          state.retransmitted.insert packet.seq (state.recoveryNumber + 1) } := by
  have noEntry := remembers.closed_iff.mp closed
  let entry : Event τ := ⟨.recoveryEntered, state.enterRecovery packet⟩
  let resent : Event τ := ⟨.retransmission packet, state.enterRecovery packet⟩
  have numbered :
      entry.state.recoveryNumber = (entries past).length + 1 :=
    congrArg (· + 1) remembers.recoveryNumber
  have entered : WellBracketed (past ++ [entry]) :=
    .enter remembers.wellBracketed noEntry rfl numbered
  have opened : openRecovery? (past ++ [entry]) = some entry :=
    openRecovery?_entered rfl
  have isOpen : openRecovery? (past ++ [entry] ++ [resent]) = some entry := by
    rw [openRecovery?_other rfl, opened]
  have split : past ++ [entry, resent] = past ++ [entry] ++ [resent] := by
    simp
  rw [split]
  constructor
  · exact .resend entered opened rfl rfl
  · rw [isOpen]
    rfl
  · rw [isOpen]
    rfl
  · rw [entries_other (by simp [resent, Notice.bracket?]),
      entries_entered rfl, List.length_append]
    exact numbered
  · intro other otherOpen
    rw [isOpen] at otherOpen
    cases otherOpen
    rfl
  · have reopened : openResends (past ++ [entry]) = [] :=
      openResends_bracket rfl
    rw [openResends_other rfl, reopened, opened]
    simp [resent, Notice.resent?, SenderState.enterRecovery]
  · intro seq
    have known :
        seq ∈ resends (past ++ [entry] ++ [resent]) ↔
          seq ∈ resends past ∨ seq = packet.seq := by
      rw [resends_concat, resends_concat]
      simp [entry, resent, Notice.resent?]
    rw [known, ← remembers.retransmitted]
    exact mem_insert_iff

theorem resend
    (remembers : Remembers past state)
    (packet : Packet τ)
    (isOpen : state.inRecovery = true) :
    Remembers
      (past ++ [⟨.retransmission packet,
        { state with
          highestResent := max state.highestResent packet.seq }⟩])
      { state with
        highestResent := max state.highestResent packet.seq
        retransmitted :=
          state.retransmitted.insert packet.seq state.recoveryNumber } := by
  obtain ⟨entry, entryShape⟩ := remembers.isOpen_iff.mp isOpen
  constructor
  · exact .resend remembers.wellBracketed entryShape rfl
      (remembers.openNumber entryShape).symm
  · rw [openRecovery?_other rfl]
    exact remembers.inRecovery
  · rw [openRecovery?_other rfl]
    exact remembers.recoveryPoint
  · rw [entries_other (by simp [Notice.bracket?])]
    exact remembers.recoveryNumber
  · rw [openRecovery?_other rfl]
    exact remembers.openNumber
  · rw [openResends_other rfl, entryShape]
    simp [Notice.resent?, remembers.highestResent]
  · intro seq
    have known :
        seq ∈ resends (past ++ [⟨.retransmission packet,
            { state with
              highestResent := max state.highestResent packet.seq }⟩]) ↔
          seq ∈ resends past ∨ seq = packet.seq := by
      simp [resends_concat, Notice.resent?]
    rw [known, ← remembers.retransmitted]
    exact mem_insert_iff

/-- An acknowledgment that is no duplicate ends the recovery it passes, and nothing else. -/
theorem settle
    {later : List (Event τ)}
    (remembers : Remembers past state)
    (packet : Packet τ)
    (allQuiet : ∀ event ∈ later, event.IsQuiet) :
    Remembers
      (past ++ ⟨.ack packet, state⟩ ::
        ((if state.endsRecovery packet then [⟨.recoveryLeft, state⟩] else []) ++
          later))
      (state.settle packet) := by
  have acked : Remembers (past ++ [⟨.ack packet, state⟩]) state :=
    remembers.quiet ⟨rfl, rfl⟩
  rw [SenderState.settle_eq]
  cases ends : state.endsRecovery packet with
  | false =>
      simpa using acked.quiets allQuiet
  | true =>
      have isOpen : state.inRecovery = true := by
        simp only [SenderState.endsRecovery, Bool.and_eq_true] at ends
        exact ends.1
      have left :
          Remembers (past ++ [⟨.ack packet, state⟩] ++ [⟨.recoveryLeft, state⟩])
            state.leaveRecovery :=
        acked.leave isOpen rfl
      simpa using left.quiets allQuiet

theorem timeout
    (remembers : Remembers past state)
    (packet : Packet τ) :
    Remembers
      (past ++ ⟨.timeout packet, state⟩ ::
        if state.inRecovery then [⟨.recoveryLeft, state⟩] else [])
      state.leaveRecovery := by
  have told : Remembers (past ++ [⟨.timeout packet, state⟩]) state :=
    remembers.quiet ⟨rfl, rfl⟩
  cases isOpen : state.inRecovery with
  | false =>
      simpa using told.leave_of_closed isOpen
  | true =>
      have left :
          Remembers
            (past ++ [⟨.timeout packet, state⟩] ++ [⟨.recoveryLeft, state⟩])
            state.leaveRecovery :=
        told.leave isOpen rfl
      simpa using left

end Remembers

theorem isQuiet_of_mem_markArrived
    {state : SenderState τ}
    {segments : List Offset}
    {event : Event τ}
    (member : event ∈ (state.markArrived segments).events) :
    event.IsQuiet := by
  obtain ⟨segment, isAnnouncement⟩ := SenderState.notice_of_mem_markArrived member
  rw [Event.IsQuiet, isAnnouncement]
  exact ⟨rfl, rfl⟩

/-- Whatever a packet does, the state remembers the events of it as well. -/
theorem remembers_of_effect
    [Timescale τ]
    {config : ReplayConfig τ}
    {source : Address}
    {past : List (Event τ)}
    {state : SenderState τ}
    {packet : Packet τ}
    {outcome : Outcome τ}
    (remembers : Remembers past state)
    (effect : SenderState.Effect config source state packet outcome) :
    Remembers (past ++ outcome.events) outcome.state := by
  cases effect with
  | passedOver noAck noSend =>
      simpa using remembers
  | duplicate acknowledges repeats =>
      refine (remembers.quiets ?_).transfer rfl
      intro event member
      rcases List.mem_cons.mp member with isFirst | inRest
      · rw [isFirst]
        exact ⟨rfl, rfl⟩
      · rcases List.mem_append.mp inRest with marks | adopts
        · exact isQuiet_of_mem_markArrived marks
        · split at adopts
          · cases adopts
          · rw [List.mem_singleton.mp adopts]
            exact ⟨rfl, rfl⟩
  | late acknowledges below =>
      refine (remembers.settle packet ?_).transfer rfl
      intro event member
      rw [List.mem_singleton.mp member]
      exact ⟨rfl, rfl⟩
  | advance acknowledges above =>
      refine (remembers.settle packet ?_).transfer rfl
      intro event member
      rcases List.mem_cons.mp member with isFirst | marks
      · rw [isFirst]
        exact ⟨rfl, rfl⟩
      · exact isQuiet_of_mem_markArrived marks
  | newSend sends above =>
      exact (remembers.quiet ⟨rfl, rfl⟩).transfer rfl
  | timeout sends repeated isTimeout =>
      exact (remembers.timeout packet).transfer rfl
  | recoveryBegun sends repeated noTimeout closed =>
      exact (remembers.enter packet closed).transfer rfl
  | retransmission sends repeated noTimeout isOpen =>
      exact (remembers.resend packet isOpen).transfer rfl

end Episodes

namespace Run

/-- At every moment of a run the state remembers the events so far. -/
theorem remembers
    [Timescale τ]
    (config : ReplayConfig τ)
    (source : Address)
    (packets : List (Packet τ)) :
    Episodes.Remembers (events config source packets)
      (state config source packets) := by
  refine @invariant τ _ config source (fun _ => Episodes.Remembers) ?_ ?_ packets
  · exact Episodes.Remembers.initial
  · intro packets past state packet remembers
    have clockSet :
        Episodes.Remembers past { state with time := packet.time } :=
      remembers.transfer rfl
    exact Episodes.remembers_of_effect clockSet
      (SenderState.step_effect config source state packet)

end Run

end Retrace
