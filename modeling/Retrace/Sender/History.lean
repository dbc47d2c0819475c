import Retrace.Sender.Replay
namespace Retrace.SenderState

/-!
# The history of a replay

The events of a replay and the state it ends in, as plain functions of the
packets.  A history splits wherever its packets split, and an observed replay
is the replay's last state together with the observer's result on the history:
what is watched does not change what happens.
-/

variable {τ σ : Type}

/-- The state after packets have been replayed from an earlier state. -/
def stateAfter
    [Timescale τ]
    (config : ReplayConfig τ)
    (source : Address) :
    SenderState τ → List (Packet τ) → SenderState τ
  | state, [] => state
  | state, packet :: rest =>
      stateAfter config source (state.step config source packet).state rest

/-- The events of packets replayed from an earlier state, oldest first. -/
def history
    [Timescale τ]
    (config : ReplayConfig τ)
    (source : Address) :
    SenderState τ → List (Packet τ) → List (Event τ)
  | _, [] => []
  | state, packet :: rest =>
      let outcome := state.step config source packet
      outcome.events ++ history config source outcome.state rest

section

variable
  [Timescale τ]
  (config : ReplayConfig τ)
  (source : Address)

@[simp] theorem stateAfter_nil (state : SenderState τ) :
    state.stateAfter config source [] = state :=
  rfl

@[simp] theorem stateAfter_cons
    (state : SenderState τ)
    (packet : Packet τ)
    (rest : List (Packet τ)) :
    state.stateAfter config source (packet :: rest) =
      (state.step config source packet).state.stateAfter config source rest :=
  rfl

/-- Later packets start from the state the earlier ones left. -/
@[simp] theorem stateAfter_append
    (state : SenderState τ)
    (earlier later : List (Packet τ)) :
    state.stateAfter config source (earlier ++ later) =
      (state.stateAfter config source earlier).stateAfter config source later := by
  induction earlier generalizing state with
  | nil => rfl
  | cons packet rest inductionHypothesis =>
      simp [inductionHypothesis]

@[simp] theorem history_nil (state : SenderState τ) :
    state.history config source [] = [] :=
  rfl

@[simp] theorem history_cons
    (state : SenderState τ)
    (packet : Packet τ)
    (rest : List (Packet τ)) :
    state.history config source (packet :: rest) =
      (state.step config source packet).events ++
        (state.step config source packet).state.history config source rest :=
  rfl

/-- The history of packets is that of the earlier ones, then that of the later ones. -/
@[simp] theorem history_append
    (state : SenderState τ)
    (earlier later : List (Packet τ)) :
    state.history config source (earlier ++ later) =
      state.history config source earlier ++
        (state.stateAfter config source earlier).history config source later := by
  induction earlier generalizing state with
  | nil => rfl
  | cons packet rest inductionHypothesis =>
      simp [inductionHypothesis]

/-- A packet that neither acknowledges nor carries data only moves the clock. -/
theorem step_of_not_relevant
    (state : SenderState τ)
    {packet : Packet τ}
    (irrelevant : packet.isRelevant source = false) :
    state.step config source packet = ⟨{ state with time := packet.time }, []⟩ := by
  unfold Packet.isRelevant at irrelevant
  unfold step
  split at irrelevant <;> simp_all

end

end Retrace.SenderState

namespace Retrace

variable {τ σ : Type}

/-- An observed replay ends in the replay's state with the observer's result on its history. -/
theorem replayFrom_eq
    [Timescale τ]
    (config : ReplayConfig τ)
    (source : Address)
    (observer : Observer τ σ)
    (state : SenderState τ)
    (result : σ)
    (packets : List (Packet τ)) :
    replayFrom config source observer state result packets =
      (state.stateAfter config source packets,
        observer.observeAll result (state.history config source packets)) := by
  induction packets generalizing state result with
  | nil => rfl
  | cons packet rest inductionHypothesis =>
      simp only [replayFrom, List.foldl_cons] at inductionHypothesis ⊢
      rw [inductionHypothesis]
      simp [Observer.observeAll]

end Retrace
