import Retrace.Observer.Recovery
import Retrace.Proofs.Sender.Grammar
import Retrace.Proofs.Sender.OpenRecovery
namespace Retrace

/-!
# Recoveries timed

The observer notes when a recovery begins, over whatever it noted before; when a
recovery ends it adds the time since then, unless nothing was noted.  In a run
nothing is noted over and nothing is missing, because beginnings and ends
alternate: what is timed are the recoveries of the run, each from the packet
that began it to the packet that ended it.
-/

variable {τ : Type}

namespace Notice

theorem bracket?_eq_entered_iff {notice : Notice τ} :
    notice.bracket? = some .entered ↔ notice = .recoveryEntered := by
  cases notice <;> simp [bracket?]

theorem bracket?_eq_left_iff {notice : Notice τ} :
    notice.bracket? = some .left ↔ notice = .recoveryLeft := by
  cases notice <;> simp [bracket?]

end Notice

theorem Episodes.length_entries (events : List (Event τ)) :
    (entries events).length = (brackets events).count .entered := by
  rw [entries, brackets, ← List.countP_eq_length_filter, List.count_filterMap]
  rfl

/-! ## The packets that bracket recoveries -/

namespace Run

section

variable
  [Timescale τ]
  (config : ReplayConfig τ)
  (source : Address)

/-- Whether a packet, after the earlier ones, begins or ends a recovery. -/
def bracket? (earlier : List (Packet τ)) (packet : Packet τ) : Option Bracket :=
  (Episodes.brackets (next config source earlier packet).events).head?

/-- No packet brackets a recovery twice. -/
theorem brackets_next
    (earlier : List (Packet τ))
    (packet : Packet τ) :
    Episodes.brackets (next config source earlier packet).events =
      (bracket? config source earlier packet).toList := by
  rw [bracket?]
  rcases (next_effect config source earlier packet).brackets_cases with
    noBracket | oneEnd | ⟨_, begins⟩
  · rw [noBracket]
    rfl
  · rw [oneEnd]
    rfl
  · rw [begins]
    rfl

variable
  {earlier : List (Packet τ)}
  {packet : Packet τ}

theorem bracket?_eq_some_iff {bracket : Bracket} :
    bracket? config source earlier packet = some bracket ↔
      ∃ notice ∈ notices config source earlier packet,
        notice.bracket? = some bracket := by
  rw [← Option.mem_toList, ← brackets_next, Episodes.brackets, notices,
    List.mem_filterMap]
  simp

theorem entered_mem_iff :
    .recoveryEntered ∈ notices config source earlier packet ↔
      bracket? config source earlier packet = some .entered := by
  simp [bracket?_eq_some_iff, Notice.bracket?_eq_entered_iff]

theorem left_mem_iff :
    .recoveryLeft ∈ notices config source earlier packet ↔
      bracket? config source earlier packet = some .left := by
  simp [bracket?_eq_some_iff, Notice.bracket?_eq_left_iff]

/-- A recovery begins only while none is open. -/
theorem closed_of_entered
    (enters : bracket? config source earlier packet = some .entered) :
    (state config source earlier).inRecovery = false :=
  ((next_effect config source earlier packet).entered_iff.mp
    ((entered_mem_iff config source).mpr enters)).2

/-- A recovery ends only while one is open. -/
theorem open_of_left
    (leaves : bracket? config source earlier packet = some .left) :
    (state config source earlier).inRecovery = true :=
  ((next_effect config source earlier packet).left_iff.mp
    ((left_mem_iff config source).mpr leaves)).1

/-- A packet that begins a recovery leaves it open, and one that ends it leaves none open. -/
theorem inRecovery_next
    (earlier : List (Packet τ))
    (packet : Packet τ) :
    (next config source earlier packet).state.inRecovery =
      (bracket? config source earlier packet).elim
        (state config source earlier).inRecovery (· == .entered) := by
  rw [← state_concat, (remembers config source _).inRecovery,
    (remembers config source _).inRecovery, Bool.eq_iff_iff, Episodes.openRecovery?_isSome_iff, events_concat,
    Episodes.brackets_append, brackets_next]
  cases bracket? config source earlier packet with
  | none =>
      simp [Episodes.openRecovery?_isSome_iff]
  | some bracket =>
      simp

/-- The packets that bracket recoveries in the one way or the other, in order. -/
def bracketing (bracket : Bracket) (packets : List (Packet τ)) : List (Packet τ) :=
  ((moments packets).filter fun moment =>
    bracket? config source moment.1 moment.2 = some bracket).map Prod.snd

theorem bracketing_concat
    (bracket : Bracket)
    (earlier : List (Packet τ))
    (packet : Packet τ) :
    bracketing config source bracket (earlier ++ [packet]) =
      bracketing config source bracket earlier ++
        if bracket? config source earlier packet = some bracket then
          [packet]
        else
          [] := by
  by_cases brackets : bracket? config source earlier packet = some bracket <;>
    simp [bracketing, brackets]

/-- As many packets bracket recoveries in a way as brackets of that kind are reported. -/
theorem length_bracketing
    (bracket : Bracket)
    (packets : List (Packet τ)) :
    (bracketing config source bracket packets).length =
      (Episodes.brackets (events config source packets)).count bracket := by
  induction packets using List.reverseRecOn with
  | nil =>
      rfl
  | append_singleton earlier packet inductionHypothesis =>
      rw [bracketing_concat, events_concat, Episodes.brackets_append, brackets_next,
        List.length_append, List.count_append, inductionHypothesis]
      cases kind : bracket? config source earlier packet with
      | none =>
          simp
      | some other =>
          by_cases same : other = bracket <;>
            simp [same]

/-- A recovery was begun for each that has ended, and one more if one is open. -/
theorem length_openers (packets : List (Packet τ)) :
    (bracketing config source .entered packets).length =
      (bracketing config source .left packets).length +
        (state config source packets).inRecovery.toNat := by
  induction packets using List.reverseRecOn with
  | nil =>
      rfl
  | append_singleton earlier packet inductionHypothesis =>
      rw [bracketing_concat, bracketing_concat, state_concat, inRecovery_next,
        List.length_append, List.length_append, inductionHypothesis]
      cases kind : bracket? config source earlier packet with
      | none =>
          simp
      | some bracket =>
          cases bracket with
          | entered =>
              simp [closed_of_entered config source kind]
          | left =>
              simp [open_of_left config source kind]

/-- The packet that began the open recovery is the last that began any. -/
theorem OpenSince.openers_eq
    {config : ReplayConfig τ}
    {source : Address}
    {packets earlier later : List (Packet τ)}
    {packet : Packet τ}
    (since : OpenSince config source packets earlier packet later) :
    bracketing config source .entered packets =
      bracketing config source .entered earlier ++ [packet] := by
  -- By induction on what came since: with a recovery open, none begins.
  obtain rfl := since.shape
  induction later using List.reverseRecOn with
  | nil =>
      have enters := (entered_mem_iff config source).mp since.entered
      rw [bracketing_concat, if_pos enters]
  | append_singleton rest latest inductionHypothesis =>
      obtain ⟨sinceBefore, _⟩ := since.concat_inv
      have notEntered :
          bracket? config source (earlier ++ packet :: rest) latest ≠ some .entered := by
        intro enters
        have closed := closed_of_entered config source enters
        rw [sinceBefore.inRecovery] at closed
        cases closed
      rw [← List.cons_append, ← List.append_assoc, bracketing_concat,
        inductionHypothesis sinceBefore, if_neg notEntered, List.append_nil]

end

end Run

/-! ## The recoveries that have ended -/

/-- What the first of two lists has more than the second is paired with nothing. -/
theorem zipWith_concat_left
    {α β γ : Type}
    (pair : α → β → γ)
    {firsts : List α}
    {seconds : List β}
    (further : α)
    (sameLength : firsts.length = seconds.length) :
    List.zipWith pair (firsts ++ [further]) seconds =
      List.zipWith pair firsts seconds := by
  calc
    List.zipWith pair (firsts ++ [further]) seconds =
        List.zipWith pair (firsts ++ [further]) (seconds ++ []) := by
          rw [List.append_nil]
    _ = List.zipWith pair firsts seconds ++ List.zipWith pair [further] [] :=
        List.zipWith_append sameLength
    _ = List.zipWith pair firsts seconds :=
        List.append_nil _

/-- A recovery that has ended. -/
structure EndedRecovery (τ : Type) where
  /-- The packet that began it. -/
  opener : Packet τ
  /-- The packet that ended it. -/
  closer : Packet τ

namespace EndedRecovery

variable [Timescale τ]

/-- How long the recovery lasted. -/
def duration (recovery : EndedRecovery τ) : τ :=
  Timescale.sub recovery.closer.time recovery.opener.time

/-- The durations of recoveries, added up in order. -/
def totalDuration (recoveries : List (EndedRecovery τ)) : τ :=
  Timescale.total (recoveries.map duration)

theorem totalDuration_concat
    (earlier : List (EndedRecovery τ))
    (recovery : EndedRecovery τ) :
    totalDuration (earlier ++ [recovery]) =
      Timescale.add (totalDuration earlier) recovery.duration := by
  simp [totalDuration, Timescale.total_concat]

end EndedRecovery

namespace Run

variable
  [Timescale τ]
  (config : ReplayConfig τ)
  (source : Address)

/-- The recoveries that have ended: the first begun is the first ended, and so on. -/
def endedRecoveries (packets : List (Packet τ)) : List (EndedRecovery τ) :=
  List.zipWith EndedRecovery.mk
    (bracketing config source .entered packets)
    (bracketing config source .left packets)

section

variable
  {earlier front since : List (Packet τ)}
  {packet opener : Packet τ}

/-- The packet that ends a recovery ends the one that is open. -/
theorem endedRecoveries_left
    (isOpen : OpenSince config source earlier front opener since)
    (leaves : bracket? config source earlier packet = some .left) :
    endedRecoveries config source (earlier ++ [packet]) =
      endedRecoveries config source earlier ++ [⟨opener, packet⟩] := by
  have allEnded :
      (bracketing config source .entered front).length =
        (bracketing config source .left earlier).length := by
    have counted := length_openers config source earlier
    rw [isOpen.openers_eq, isOpen.inRecovery, List.length_append] at counted
    exact Nat.succ_inj.mp counted
  have before :
      endedRecoveries config source earlier =
        List.zipWith EndedRecovery.mk
          (bracketing config source .entered front)
          (bracketing config source .left earlier) := by
    rw [endedRecoveries, isOpen.openers_eq]
    exact zipWith_concat_left EndedRecovery.mk opener allEnded
  rw [before, endedRecoveries, bracketing_concat, bracketing_concat, isOpen.openers_eq,
    if_pos leaves, leaves, if_neg (by simp), List.append_nil,
    List.zipWith_append allEnded]
  rfl

/-- A packet that ends no recovery adds none to those that have ended. -/
theorem endedRecoveries_other
    (other : bracket? config source earlier packet ≠ some .left) :
    endedRecoveries config source (earlier ++ [packet]) =
      endedRecoveries config source earlier := by
  rw [endedRecoveries, bracketing_concat, bracketing_concat, if_neg other,
    List.append_nil]
  split
  · next enters =>
      have allEnded := length_openers config source earlier
      rw [closed_of_entered config source enters] at allEnded
      simpa [endedRecoveries] using
        zipWith_concat_left EndedRecovery.mk packet allEnded
  · rw [List.append_nil]
    rfl

end

end Run

/-! ## What the observer finds -/

namespace RecoveryTimes

variable [Timescale τ]

/-- The times once a recovery has begun or ended at an instant. -/
def bracketed (times : RecoveryTimes τ) (instant : τ) : Bracket → RecoveryTimes τ
  | .entered => { times with openedAt := some instant }
  | .left => times.close instant

/-- Of the events at one instant only brackets are timed. -/
theorem observeAll_eq
    {instant : τ}
    {events : List (Event τ)}
    (times : RecoveryTimes τ)
    (timed : ∀ event ∈ events, event.state.time = instant) :
    Observer.recoveryTimes.observeAll times events =
      (Episodes.brackets events).foldl (fun times => times.bracketed instant) times := by
  induction events generalizing times with
  | nil =>
      rfl
  | cons event rest inductionHypothesis =>
      obtain ⟨now, later⟩ := List.forall_mem_cons.mp timed
      rw [Observer.observeAll, List.foldl_cons, ← Observer.observeAll,
        inductionHypothesis _ later]
      obtain ⟨notice, state⟩ := event
      obtain rfl : state.time = instant := now
      cases notice <;> rfl

/-- A packet is timed as what it does to a recovery, and else not. -/
theorem found_concat
    (config : ReplayConfig τ)
    (source : Address)
    (earlier : List (Packet τ))
    (packet : Packet τ) :
    observeReplay config source Observer.recoveryTimes (earlier ++ [packet]) =
      let found := observeReplay config source Observer.recoveryTimes earlier
      (Run.bracket? config source earlier packet).elim found
        (found.bracketed packet.time) := by
  rw [Run.observeReplay_concat,
    observeAll_eq _ (Run.next_effect config source earlier packet).time,
    Run.brackets_next]
  cases Run.bracket? config source earlier packet <;>
    rfl

/-- What the observer has found after a run is what the packets say. -/
structure Tells
    (config : ReplayConfig τ)
    (source : Address)
    (packets : List (Packet τ))
    (found : RecoveryTimes τ) : Prop where
  openedAt :
    found.openedAt =
      if (Run.state config source packets).inRecovery then
        (Run.bracketing config source .entered packets).getLast?.map Packet.time
      else
        none
  episodes :
    found.episodes = (Run.bracketing config source .left packets).length
  total :
    found.total =
      EndedRecovery.totalDuration (Run.endedRecoveries config source packets)

theorem tells
    (config : ReplayConfig τ)
    (source : Address)
    (packets : List (Packet τ)) :
    Tells config source packets
      (observeReplay config source Observer.recoveryTimes packets) := by
  induction packets using List.reverseRecOn with
  | nil =>
      exact ⟨rfl, rfl, rfl⟩
  | append_singleton earlier packet inductionHypothesis =>
      obtain ⟨openedAt, episodes, total⟩ := inductionHypothesis
      rw [found_concat]
      cases kind : Run.bracket? config source earlier packet with
      | none =>
          constructor
          · simpa [Run.inRecovery_next, Run.bracketing_concat, kind] using openedAt
          · simpa [Run.bracketing_concat, kind] using episodes
          · rw [Run.endedRecoveries_other config source (by simp [kind])]
            exact total
      | some bracket =>
          cases bracket with
          | entered =>
              constructor
              · simp [Run.inRecovery_next, Run.bracketing_concat, kind, bracketed]
              · simpa [Run.bracketing_concat, kind, bracketed] using episodes
              · rw [Run.endedRecoveries_other config source (by simp [kind])]
                exact total
          | left =>
              obtain ⟨front, opener, since, isOpen⟩ :=
                Run.exists_openSince config source
                  (Run.open_of_left config source kind)
              -- The end finds noted what the packet that began the recovery noted.
              have noted :
                  (observeReplay config source Observer.recoveryTimes
                    earlier).openedAt = some opener.time := by
                rw [openedAt, isOpen.inRecovery, isOpen.openers_eq]
                simp
              simp only [Option.elim_some, bracketed, close, noted]
              constructor
              · simp [Run.inRecovery_next, kind]
              · simp [Run.bracketing_concat, kind, episodes]
              · rw [Run.endedRecoveries_left config source isOpen kind,
                  EndedRecovery.totalDuration_concat, ← total]
                rfl

end RecoveryTimes

/--
Recoveries are timed as the run has them.

As many are counted as have ended, which with the one that may be open are all
that were begun.  While one is open, and only then, an instant is noted, that of
the packet that began it.  The total is that of the recoveries that have ended,
in order: each packet that ends a recovery adds one to these, from the packet
that began the open recovery to itself, and no other packet adds any.
-/
structure TimesRecoveries
    [Timescale τ]
    (config : ReplayConfig τ)
    (source : Address) : Prop where
  counted :
    ∀ packets : List (Packet τ),
      (observeReplay config source Observer.recoveryTimes packets).episodes =
        (Episodes.brackets (Run.events config source packets)).count .left
  numbered :
    ∀ packets : List (Packet τ),
      (observeReplay config source Observer.recoveryTimes packets).episodes +
          (Run.state config source packets).inRecovery.toNat =
        (Run.state config source packets).recoveryNumber
  noted :
    ∀ packets : List (Packet τ),
      (observeReplay config source Observer.recoveryTimes packets).openedAt.isSome =
        (Run.state config source packets).inRecovery
  notedAt :
    ∀ (packets earlier later : List (Packet τ)) (packet : Packet τ),
      Run.OpenSince config source packets earlier packet later →
        (observeReplay config source Observer.recoveryTimes packets).openedAt =
          some packet.time
  total :
    ∀ packets : List (Packet τ),
      (observeReplay config source Observer.recoveryTimes packets).total =
        EndedRecovery.totalDuration (Run.endedRecoveries config source packets)
  noneEnded :
    Run.endedRecoveries config source [] = []
  ended :
    ∀ (earlier : List (Packet τ)) (packet : Packet τ),
      .recoveryLeft ∈ Run.notices config source earlier packet →
        ∃ (front : List (Packet τ)) (opener : Packet τ) (since : List (Packet τ)),
          Run.OpenSince config source earlier front opener since ∧
            Run.endedRecoveries config source (earlier ++ [packet]) =
              Run.endedRecoveries config source earlier ++ [⟨opener, packet⟩]
  notEnded :
    ∀ (earlier : List (Packet τ)) (packet : Packet τ),
      .recoveryLeft ∉ Run.notices config source earlier packet →
        Run.endedRecoveries config source (earlier ++ [packet]) =
          Run.endedRecoveries config source earlier

/-- Recoveries are timed as every run has them. -/
theorem recoveries_timed
    [Timescale τ]
    (config : ReplayConfig τ)
    (source : Address) :
    TimesRecoveries config source := by
  constructor
  case counted =>
    intro packets
    rw [(RecoveryTimes.tells config source packets).episodes, Run.length_bracketing]
  case numbered =>
    intro packets
    rw [(RecoveryTimes.tells config source packets).episodes,
      ← Run.length_openers, Run.length_bracketing,
      (Run.remembers config source packets).recoveryNumber, Episodes.length_entries]
  case noted =>
    intro packets
    rw [(RecoveryTimes.tells config source packets).openedAt]
    cases isOpen : (Run.state config source packets).inRecovery with
    | false =>
        rfl
    | true =>
        obtain ⟨earlier, packet, later, since⟩ :=
          Run.exists_openSince config source isOpen
        rw [if_pos rfl, since.openers_eq, List.getLast?_concat]
        rfl
  case notedAt =>
    intro packets earlier later packet since
    rw [(RecoveryTimes.tells config source packets).openedAt, since.inRecovery,
      if_pos rfl, since.openers_eq, List.getLast?_concat]
    rfl
  case total =>
    intro packets
    exact (RecoveryTimes.tells config source packets).total
  case noneEnded =>
    rfl
  case ended =>
    intro earlier packet left
    have leaves := (Run.left_mem_iff config source).mp left
    obtain ⟨front, opener, since, isOpen⟩ :=
      Run.exists_openSince config source (Run.open_of_left config source leaves)
    exact ⟨front, opener, since, isOpen,
      Run.endedRecoveries_left config source isOpen leaves⟩
  case notEnded =>
    intro earlier packet notLeft
    exact Run.endedRecoveries_other config source
      fun leaves => notLeft ((Run.left_mem_iff config source).mpr leaves)

end Retrace
