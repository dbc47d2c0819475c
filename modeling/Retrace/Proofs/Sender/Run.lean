import Mathlib.Data.List.Basic
import Mathlib.Data.List.Induction
import Retrace.Proofs.Sender.Effect
namespace Retrace

/-!
# Runs

A run replays a whole capture from the initial state.  `Run.state` and
`Run.events` are what it leaves and what it reports; `Run.next` is the part one
more packet has in it.  A fact about runs is proved by `Run.invariant`: it holds
before any packet, and every step preserves it.
-/

variable {τ σ : Type}

namespace Packet

/-- Whether a packet carries data from the source to another host. -/
def isSend (packet : Packet τ) (source : Address) : Bool :=
  decide (packet.src = source) && decide (packet.dst ≠ source) && packet.payload

/-- Whether a packet carries an acknowledgment to the source. -/
def isAckTo (packet : Packet τ) (source : Address) : Bool :=
  decide (packet.dst = source) && packet.flags.isAck

/-- The replay takes a packet for a send exactly when it is one. -/
theorem isSend_eq
    (packet : Packet τ)
    (source : Address) :
    packet.isSend source = decide (packet.concern source = .sends) := by
  unfold isSend concern
  by_cases towards : packet.dst = source
  · cases packet.flags.isAck <;>
      simp [towards]
  · by_cases leaves : packet.src = source
    · cases packet.payload <;>
        simp [towards, leaves]
    · simp [towards, leaves]

/-- The replay takes a packet for an acknowledgment exactly when it is one. -/
theorem isAckTo_eq
    (packet : Packet τ)
    (source : Address) :
    packet.isAckTo source = decide (packet.concern source = .acknowledges) := by
  unfold isAckTo concern
  by_cases towards : packet.dst = source
  · cases packet.flags.isAck <;>
      simp [towards]
  · by_cases leaves : packet.src = source
    · cases packet.payload <;>
        simp [towards, leaves]
    · simp [towards, leaves]

theorem isSend_of_concern
    {packet : Packet τ}
    {source : Address}
    (sends : packet.concern source = .sends) :
    packet.isSend source = true := by
  rw [isSend_eq, decide_eq_true sends]

theorem isAckTo_of_concern
    {packet : Packet τ}
    {source : Address}
    (acknowledges : packet.concern source = .acknowledges) :
    packet.isAckTo source = true := by
  rw [isAckTo_eq, decide_eq_true acknowledges]

theorem isAckTo_of_isSend
    {packet : Packet τ}
    {source : Address}
    (isSend : packet.isSend source = true) :
    packet.isAckTo source = false := by
  rw [isSend_eq, decide_eq_true_iff] at isSend
  rw [isAckTo_eq, isSend]
  rfl

end Packet

/-- At some packet, given those before it, something happens. -/
def Occurs
    (happens : List (Packet τ) → Packet τ → Prop)
    (packets : List (Packet τ)) :
    Prop :=
  ∃ earlier packet later,
    packets = earlier ++ packet :: later ∧ happens earlier packet

namespace Occurs

variable {happens : List (Packet τ) → Packet τ → Prop}

theorem nil_iff : Occurs happens [] ↔ False := by
  constructor
  · rintro ⟨earlier, packet, later, shape, _⟩
    exact List.append_ne_nil_of_right_ne_nil _ (List.cons_ne_nil _ _) shape.symm
  · exact False.elim

/-- Something happens up to the last packet if it happens before it or at it. -/
theorem concat_iff
    {earlier : List (Packet τ)}
    {packet : Packet τ} :
    Occurs happens (earlier ++ [packet]) ↔
      Occurs happens earlier ∨ happens earlier packet := by
  constructor
  · rintro ⟨front, chosen, later, shape, happened⟩
    rcases List.eq_nil_or_concat' later with isNil | ⟨rest, last, isConcat⟩
    · rw [isNil] at shape
      obtain ⟨rfl, same⟩ := List.append_inj' shape rfl
      cases same
      exact Or.inr happened
    · rw [isConcat, ← List.cons_append, ← List.append_assoc] at shape
      obtain ⟨rfl, _⟩ := List.append_inj' shape rfl
      exact Or.inl ⟨front, chosen, rest, rfl, happened⟩
  · rintro (⟨front, chosen, rest, rfl, happened⟩ | happened)
    · exact ⟨front, chosen, rest ++ [packet], by simp, happened⟩
    · exact ⟨earlier, packet, [], rfl, happened⟩

/-- What happens at all happens at some packet for the first time. -/
theorem first
    {packets : List (Packet τ)}
    (occurs : Occurs happens packets) :
    ∃ earlier packet later,
      packets = earlier ++ packet :: later ∧
        happens earlier packet ∧
        ¬ Occurs happens earlier := by
  induction packets using List.reverseRecOn with
  | nil =>
      exact (nil_iff.mp occurs).elim
  | append_singleton rest latest inductionHypothesis =>
      by_cases before : Occurs happens rest
      · obtain ⟨earlier, packet, later, rfl, happened, notBefore⟩ :=
          inductionHypothesis before
        exact ⟨earlier, packet, later ++ [latest], by simp, happened, notBefore⟩
      · rcases concat_iff.mp occurs with occursBefore | happened
        · exact (before occursBefore).elim
        · exact ⟨rest, latest, [], rfl, happened, before⟩

end Occurs

/-- Every packet together with those before it, in order. -/
def moments (packets : List (Packet τ)) : List (List (Packet τ) × Packet τ) :=
  packets.mapIdx fun place packet => (packets.take place, packet)

@[simp] theorem moments_nil : moments ([] : List (Packet τ)) = [] :=
  rfl

/-- One more packet comes after all others and leaves them what was before them. -/
@[simp] theorem moments_concat
    (earlier : List (Packet τ))
    (packet : Packet τ) :
    moments (earlier ++ [packet]) = moments earlier ++ [(earlier, packet)] := by
  rw [moments, List.mapIdx_concat, List.take_left']
  · congr 1
    apply List.mapIdx_eq_mapIdx_iff.mpr
    intro place within
    rw [List.take_append_of_le_length (Nat.le_of_lt within)]
  · rfl

/--
What a view shows of packets it shows without those it does not notice: each
packet makes the next view from the one before, and those left out make no
difference to it.
-/
theorem view_filter
    {α : Type}
    (view : List (Packet τ) → α)
    {keeps : Packet τ → Bool}
    (follows :
      ∀ (first second : List (Packet τ)) (packet : Packet τ),
        view first = view second →
          view (first ++ [packet]) = view (second ++ [packet]))
    (unnoticed :
      ∀ (earlier : List (Packet τ)) (packet : Packet τ),
        keeps packet = false → view (earlier ++ [packet]) = view earlier)
    (packets : List (Packet τ)) :
    view (packets.filter keeps) = view packets := by
  induction packets using List.reverseRecOn with
  | nil =>
      rfl
  | append_singleton earlier packet inductionHypothesis =>
      rw [List.filter_append, List.filter_singleton]
      cases kept : keeps packet with
      | true =>
          exact follows _ _ packet inductionHypothesis
      | false =>
          calc
            view (earlier.filter keeps ++ []) = view (earlier.filter keeps) := by
                rw [List.append_nil]
            _ = view earlier := inductionHypothesis
            _ = view (earlier ++ [packet]) := (unnoticed earlier packet kept).symm

/-- An observer that notices nothing but changes follows the changes that events report. -/
theorem Observer.observeAll_eq_foldl
    {α : Type}
    (observer : Observer τ σ)
    {change? : Notice τ → Option α}
    {after : σ → α → σ}
    (observe_eq :
      ∀ (result : σ) (event : Event τ),
        observer.observe result event =
          (change? event.notice).elim result (after result))
    (result : σ)
    (events : List (Event τ)) :
    observer.observeAll result events =
      ((events.map Event.notice).filterMap change?).foldl after result := by
  rw [observeAll, List.foldl_filterMap, List.foldl_map]
  congr 1
  funext result event
  rw [observe_eq]
  cases change? event.notice <;> rfl

namespace Run

variable
  [Timescale τ]
  (config : ReplayConfig τ)
  (source : Address)

/-- The state after a run over packets. -/
def state (packets : List (Packet τ)) : SenderState τ :=
  SenderState.initial.stateAfter config source packets

/-- The events of a run over packets, oldest first. -/
def events (packets : List (Packet τ)) : List (Event τ) :=
  SenderState.initial.history config source packets

/-- What one more packet does after a run over the earlier ones. -/
def next (earlier : List (Packet τ)) (packet : Packet τ) : Outcome τ :=
  (state config source earlier).step config source packet

/-- What is reported of one more packet after a run over the earlier ones. -/
def notices (earlier : List (Packet τ)) (packet : Packet τ) : List (Notice τ) :=
  (next config source earlier packet).events.map Event.notice

/-- An observed replay ends in the state of the run, its events observed in order. -/
theorem replay_eq
    (observer : Observer τ σ)
    (packets : List (Packet τ)) :
    replay config source observer packets =
      (state config source packets,
        observer.observeAll observer.start (events config source packets)) :=
  replayFrom_eq config source observer SenderState.initial observer.start packets

@[simp] theorem state_nil :
    state config source [] = SenderState.initial :=
  rfl

@[simp] theorem events_nil :
    events config source [] = [] :=
  rfl

/-- The last packet of a run leaves its state. -/
@[simp] theorem state_concat
    (earlier : List (Packet τ))
    (packet : Packet τ) :
    state config source (earlier ++ [packet]) =
      (next config source earlier packet).state := by
  simp [state, next]

/-- The last packet of a run reports its events after all others. -/
@[simp] theorem events_concat
    (earlier : List (Packet τ))
    (packet : Packet τ) :
    events config source (earlier ++ [packet]) =
      events config source earlier ++
        (next config source earlier packet).events := by
  simp [events, state, next]

/-- After one more packet an observer has observed the events of that packet as well. -/
theorem observeReplay_concat
    (observer : Observer τ σ)
    (earlier : List (Packet τ))
    (packet : Packet τ) :
    observeReplay config source observer (earlier ++ [packet]) =
      observer.observeAll (observeReplay config source observer earlier)
        (next config source earlier packet).events := by
  simp [observeReplay, replay_eq, Observer.observeAll]

/-- Anywhere in a run, a packet reports its events after those of the earlier packets. -/
theorem events_append_cons
    (earlier later : List (Packet τ))
    (packet : Packet τ) :
    events config source (earlier ++ packet :: later) =
      events config source earlier ++
        ((next config source earlier packet).events ++
          (next config source earlier packet).state.history config source later) := by
  simp [events, state, next]

/-- What one more packet does is one of the effects on the run's state, its clock set. -/
theorem next_effect
    (earlier : List (Packet τ))
    (packet : Packet τ) :
    SenderState.Effect config source
      { state config source earlier with time := packet.time }
      packet (next config source earlier packet) :=
  SenderState.step_effect config source (state config source earlier) packet

/--
What holds before any packet and is preserved by every step holds of every run:
of its packets, the events it has reported, and the state it has reached.
-/
theorem invariant
    {Holds : List (Packet τ) → List (Event τ) → SenderState τ → Prop}
    (initially : Holds [] [] SenderState.initial)
    (preserved :
      ∀ {packets past state packet},
        Holds packets past state →
        Holds (packets ++ [packet])
          (past ++ (state.step config source packet).events)
          (state.step config source packet).state)
    (packets : List (Packet τ)) :
    Holds packets (events config source packets) (state config source packets) := by
  induction packets using List.reverseRecOn with
  | nil =>
      exact initially
  | append_singleton earlier packet inductionHypothesis =>
      rw [events_concat, state_concat]
      exact preserved inductionHypothesis

end Run

end Retrace
