import Retrace.Proofs.Sender.Scoreboard
namespace Retrace

/-!
# The announcements of a run

Whoever observes a replay learns of the scoreboard only through the segments
announced as arrived.  `BoardTrail` follows a scoreboard through events: every
event sees the board as the announcements before it left it, and what it
announces is not on the board yet.  Each step of the replay leaves such a trail,
trails join, and so the events of a run are one trail from the empty scoreboard
to the last.
-/

variable {τ : Type}

/-- The segment that an event announces as arrived, if it announces one. -/
def Event.announced? (event : Event τ) : Option Offset :=
  match event.notice with
  | .scoreboardAdd segment => some segment
  | _ => none

theorem Event.announced?_eq_some_iff
    {event : Event τ}
    {segment : Offset} :
    event.announced? = some segment ↔
      event.notice = .scoreboardAdd segment := by
  rw [announced?]
  cases event.notice <;>
    simp

/-- The segments that events announce as arrived, in order. -/
def announced (events : List (Event τ)) : List Offset :=
  events.filterMap Event.announced?

theorem announced_cons_some
    {event : Event τ}
    {segment : Offset}
    (announces : event.announced? = some segment)
    (rest : List (Event τ)) :
    announced (event :: rest) = segment :: announced rest :=
  List.filterMap_cons_some announces

theorem announced_cons_none
    {event : Event τ}
    (announcesNone : event.announced? = none)
    (rest : List (Event τ)) :
    announced (event :: rest) = announced rest :=
  List.filterMap_cons_none announcesNone

theorem announced_append (earlier later : List (Event τ)) :
    announced (earlier ++ later) = announced earlier ++ announced later :=
  List.filterMap_append

/--
Events that lead from one scoreboard to another: each sees the scoreboard at its
place, and an announcement puts a segment on it that was not there.
-/
inductive BoardTrail :
    Std.TreeSet Offset → List (Event τ) → Std.TreeSet Offset → Prop
  | nil (board : Std.TreeSet Offset) :
      BoardTrail board [] board
  | announce
      {board final : Std.TreeSet Offset}
      {event : Event τ}
      {rest : List (Event τ)}
      {segment : Offset}
      (announces : event.announced? = some segment)
      (sees : event.state.scoreboard = board)
      (isNew : segment ∉ board)
      (onwards : BoardTrail (board.insert segment) rest final) :
      BoardTrail board (event :: rest) final
  | other
      {board final : Std.TreeSet Offset}
      {event : Event τ}
      {rest : List (Event τ)}
      (announcesNone : event.announced? = none)
      (sees : event.state.scoreboard = board)
      (onwards : BoardTrail board rest final) :
      BoardTrail board (event :: rest) final

namespace BoardTrail

variable
  {board middle final : Std.TreeSet Offset}
  {events earlier later : List (Event τ)}

/-- Trails join where one ends and the other begins. -/
theorem append
    (first : BoardTrail board earlier middle)
    (second : BoardTrail middle later final) :
    BoardTrail board (earlier ++ later) final := by
  induction first with
  | nil board =>
      exact second
  | announce announces sees isNew onwards inductionHypothesis =>
      exact .announce announces sees isNew (inductionHypothesis second)
  | other announcesNone sees onwards inductionHypothesis =>
      exact .other announcesNone sees (inductionHypothesis second)

/-- A trail can be cut between any two events. -/
theorem split
    (trail : BoardTrail board (earlier ++ later) final) :
    ∃ middle,
      BoardTrail board earlier middle ∧ BoardTrail middle later final := by
  induction earlier generalizing board with
  | nil =>
      exact ⟨board, .nil board, trail⟩
  | cons event rest inductionHypothesis =>
      cases trail with
      | announce announces sees isNew onwards =>
          obtain ⟨middle, first, second⟩ := inductionHypothesis onwards
          exact ⟨middle, .announce announces sees isNew first, second⟩
      | other announcesNone sees onwards =>
          obtain ⟨middle, first, second⟩ := inductionHypothesis onwards
          exact ⟨middle, .other announcesNone sees first, second⟩

/-- A trail adds to the scoreboard what its events announce, and takes nothing off. -/
theorem mem_iff
    (trail : BoardTrail board events final)
    (segment : Offset) :
    segment ∈ final ↔ segment ∈ board ∨ segment ∈ announced events := by
  induction trail with
  | nil board =>
      simp [announced]
  | announce announces sees isNew onwards inductionHypothesis =>
      rw [inductionHypothesis, announced_cons_some announces,
        Std.TreeSet.mem_insert, Std.LawfulEqOrd.compare_eq_iff_eq,
        List.mem_cons, eq_comm (a := segment), or_assoc, or_left_comm]
  | other announcesNone sees onwards inductionHypothesis =>
      rw [inductionHypothesis, announced_cons_none announcesNone]

/-- What the events of a trail announce was not on the scoreboard before them. -/
theorem not_mem_of_announced
    (trail : BoardTrail board events final)
    {segment : Offset}
    (isAnnounced : segment ∈ announced events) :
    segment ∉ board := by
  induction trail with
  | nil board =>
      exact (List.not_mem_nil isAnnounced).elim
  | announce announces sees isNew onwards inductionHypothesis =>
      rw [announced_cons_some announces] at isAnnounced
      rcases List.mem_cons.mp isAnnounced with isFirst | isLater
      · rw [isFirst]
        exact isNew
      · have notThen := inductionHypothesis isLater
        rw [Std.TreeSet.mem_insert, not_or] at notThen
        exact notThen.2
  | other announcesNone sees onwards inductionHypothesis =>
      rw [announced_cons_none announcesNone] at isAnnounced
      exact inductionHypothesis isAnnounced

/-- No segment is announced twice on a trail. -/
theorem nodup
    (trail : BoardTrail board events final) :
    (announced events).Nodup := by
  induction trail with
  | nil board =>
      exact List.nodup_nil
  | announce announces sees isNew onwards inductionHypothesis =>
      rw [announced_cons_some announces, List.nodup_cons]
      refine ⟨?_, inductionHypothesis⟩
      intro again
      exact onwards.not_mem_of_announced again Std.TreeSet.mem_insert_self
  | other announcesNone sees onwards inductionHypothesis =>
      rw [announced_cons_none announcesNone]
      exact inductionHypothesis

/-- Anywhere on a trail an event sees the scoreboard that the events before it lead to. -/
theorem at_event
    {event : Event τ}
    (trail : BoardTrail board (earlier ++ event :: later) final) :
    BoardTrail board earlier event.state.scoreboard ∧
      ∀ segment, event.announced? = some segment →
        segment ∉ event.state.scoreboard := by
  obtain ⟨middle, first, second⟩ := trail.split
  cases second with
  | announce announces sees isNew onwards =>
      rw [sees]
      refine ⟨first, ?_⟩
      intro segment announcesIt
      rw [announces, Option.some.injEq] at announcesIt
      rw [← announcesIt]
      exact isNew
  | other announcesNone sees onwards =>
      rw [sees]
      refine ⟨first, ?_⟩
      intro segment announcesIt
      rw [announcesNone] at announcesIt
      exact (Option.some_ne_none segment announcesIt.symm).elim

end BoardTrail

namespace SenderState

/-- Segments that are marked leave a trail to the scoreboard with them. -/
theorem markArrived_trail
    (state : SenderState τ)
    (segments : List Offset) :
    BoardTrail state.scoreboard (state.markArrived segments).events
      (boardAfter state.scoreboard segments) := by
  induction segments generalizing state with
  | nil =>
      exact .nil _
  | cons segment rest inductionHypothesis =>
      rw [markArrived_cons, boardAfter]
      split
      · exact inductionHypothesis state
      · next notMarked =>
          have later :=
            inductionHypothesis
              { state with scoreboard := state.scoreboard.insert segment }
          exact .announce rfl rfl notMarked later

/-- An event that is reported or not, and announces no segment, leaves the scoreboard. -/
theorem ite_trail
    {condition : Prop}
    [Decidable condition]
    (event : Event τ)
    (announcesNone : event.announced? = none) :
    BoardTrail event.state.scoreboard (if condition then [event] else [])
      event.state.scoreboard := by
  split
  · exact .other announcesNone rfl (.nil _)
  · exact .nil _

/-- The events of a packet are a trail from the scoreboard before it to the one after it. -/
theorem Effect.trail
    [Timescale τ]
    {config : ReplayConfig τ}
    {source : Address}
    {state : SenderState τ}
    {packet : Packet τ}
    {outcome : Outcome τ}
    (effect : Effect config source state packet outcome) :
    BoardTrail state.scoreboard outcome.events outcome.state.scoreboard := by
  cases effect with
  | passedOver noAck noSend =>
      exact .nil _
  | duplicate acknowledges repeats =>
      refine .other rfl rfl ((markArrived_trail state _).append ?_)
      split
      · exact .nil _
      · exact .other rfl rfl (.nil _)
  | late acknowledges below =>
      exact .other rfl rfl
        ((ite_trail ⟨.recoveryLeft, state⟩ rfl).append
          (.other rfl rfl (.nil _)))
  | advance acknowledges above =>
      have marks :=
        markArrived_trail
          { (state.settle packet).clearDuplicates with highestAcked := packet.ack }
          (passedSegments config.segmentSize state.highestAcked packet.ack)
      exact .other rfl rfl
        ((ite_trail ⟨.recoveryLeft, state⟩ rfl).append
          (.other rfl rfl marks))
  | newSend sends above =>
      exact .other rfl rfl (.nil _)
  | timeout sends repeated isTimeout =>
      exact .other rfl rfl (ite_trail ⟨.recoveryLeft, state⟩ rfl)
  | recoveryBegun sends repeated noTimeout closed =>
      exact .other rfl rfl (.other rfl rfl (.nil _))
  | retransmission sends repeated noTimeout isOpen =>
      exact .other rfl rfl (.nil _)

end SenderState

namespace Run

variable
  [Timescale τ]
  (config : ReplayConfig τ)
  (source : Address)

/-- The events of a run are a trail from the empty scoreboard to the one it ends with. -/
theorem events_trail (packets : List (Packet τ)) :
    BoardTrail ∅ (events config source packets)
      (state config source packets).scoreboard := by
  induction packets using List.reverseRecOn with
  | nil =>
      exact .nil ∅
  | append_singleton earlier packet inductionHypothesis =>
      rw [events_concat, state_concat]
      exact inductionHypothesis.append
        (next_effect config source earlier packet).trail

/-- The scoreboard of a run holds what the run announced. -/
theorem mem_scoreboard_iff_announced
    (packets : List (Packet τ))
    (segment : Offset) :
    segment ∈ (state config source packets).scoreboard ↔
      segment ∈ announced (events config source packets) := by
  rw [(events_trail config source packets).mem_iff]
  simp

/-- What earlier packets announced a run announces first. -/
theorem announced_grows (earlier later : List (Packet τ)) :
    announced (events config source earlier) <+:
      announced (events config source (earlier ++ later)) := by
  refine ⟨announced ((state config source earlier).history config source later), ?_⟩
  rw [← announced_append]
  simp [events, state]

/-- The announcements of a run tell its scoreboard, at every event and after every packet. -/
structure AnnouncedScoreboard (packets : List (Packet τ)) : Prop where
  /-- No segment is announced twice. -/
  once : (announced (events config source packets)).Nodup
  /-- An event sees what was announced before it; what it announces itself is not there yet. -/
  atEvents :
    ∀ past event future,
      events config source packets = past ++ event :: future →
        (∀ segment,
          segment ∈ event.state.scoreboard ↔ segment ∈ announced past) ∧
        ∀ segment, event.notice = .scoreboardAdd segment →
          segment ∉ event.state.scoreboard
  /-- After every packet the scoreboard is what was announced so far. -/
  afterPackets :
    ∀ earlier later, packets = earlier ++ later →
      announced (events config source earlier) <+:
          announced (events config source packets) ∧
        ∀ segment,
          segment ∈ (state config source earlier).scoreboard ↔
            segment ∈ announced (events config source earlier)
  /-- Later packets take nothing off the scoreboard. -/
  grows :
    ∀ earlier later, packets = earlier ++ later →
      ∀ segment ∈ (state config source earlier).scoreboard,
        segment ∈ (state config source packets).scoreboard
  /-- Announced is what the ranges of a duplicate cover and what the walk of an advance passes. -/
  origin :
    ∀ segment,
      segment ∈ announced (events config source packets) ↔
        Occurs
          (fun earlier packet =>
            packet.isAckTo source = true ∧
              ((packet.ack = highestAck source earlier ∧
                  segment ∈
                    Sack.coveredSegments packet.sackRanges config.segmentSize) ∨
                (highestAck source earlier < packet.ack ∧
                  segment ∈
                    SenderState.passedSegments config.segmentSize
                      (highestAck source earlier) packet.ack)))
          packets

/-- In every run the scoreboard is what was announced, each segment once. -/
theorem scoreboard_is_announced (packets : List (Packet τ)) :
    AnnouncedScoreboard config source packets where
  once := (events_trail config source packets).nodup
  atEvents := by
    intro past event future shape
    have trail := events_trail config source packets
    rw [shape] at trail
    obtain ⟨before, isNew⟩ := trail.at_event
    constructor
    · intro segment
      rw [before.mem_iff]
      simp
    · intro segment announces
      exact isNew segment (Event.announced?_eq_some_iff.mpr announces)
  afterPackets := by
    rintro earlier later rfl
    exact ⟨announced_grows config source earlier later,
      mem_scoreboard_iff_announced config source earlier⟩
  grows := by
    rintro earlier later rfl segment marked
    rw [mem_scoreboard_iff_announced] at marked ⊢
    exact (announced_grows config source earlier later).subset marked
  origin := by
    intro segment
    rw [← mem_scoreboard_iff_announced, mem_scoreboard_iff]
    simp only [mem_arrivals_iff]

end Run

end Retrace
