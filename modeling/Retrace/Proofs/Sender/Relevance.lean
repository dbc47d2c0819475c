import Retrace.Proofs.Sender.Run
namespace Retrace

/-!
# The packets that matter to a run

A packet matters to the sender at a source if it acknowledges to the source or
carries data away from it, whatever its other end is.  All other packets could
as well be missing from a capture: they move the clock, and the next packet
moves it anyway.  Those that matter all leave a trace, as each is the subject of
exactly one notice.  So packets put into a capture go unnoticed exactly when
none of them matters.
-/

variable {τ : Type}

namespace Packet

/-- Whether a packet travels between the two ends of a flow, either way. -/
def isOf (packet : Packet τ) (flow : Flow) : Bool :=
  (decide (packet.src = flow.source) && decide (packet.dst = flow.destination)) ||
    (decide (packet.src = flow.destination) && decide (packet.dst = flow.source))

/-- Whether the source of a flow gets an acknowledgment from, or sends data to, a third host. -/
def isAside (packet : Packet τ) (flow : Flow) : Bool :=
  (packet.isAckTo flow.source && decide (packet.src ≠ flow.destination)) ||
    (packet.isSend flow.source && decide (packet.dst ≠ flow.destination))

theorem isRelevant_eq
    (packet : Packet τ)
    (source : Address) :
    packet.isRelevant source =
      (packet.isAckTo source || packet.isSend source) := by
  rw [isRelevant, isAckTo_eq, isSend_eq]
  cases packet.concern source <;> rfl

/--
A packet that is not of the flow matters to its source exactly if it is exchanged
with a third host.
-/
theorem isRelevant_of_not_isOf
    {packet : Packet τ}
    {flow : Flow}
    (foreign : packet.isOf flow = false) :
    packet.isRelevant flow.source = packet.isAside flow := by
  simp only [isOf, Bool.or_eq_false_iff, Bool.and_eq_false_imp,
    decide_eq_true_eq, decide_eq_false_iff_not] at foreign
  obtain ⟨notThere, notBack⟩ := foreign
  have ackAside :
      packet.isAckTo flow.source = true → packet.src ≠ flow.destination := by
    intro acknowledges fromDestination
    simp only [isAckTo, Bool.and_eq_true, decide_eq_true_eq] at acknowledges
    exact notBack fromDestination acknowledges.1
  have sendAside :
      packet.isSend flow.source = true → packet.dst ≠ flow.destination := by
    intro sends toDestination
    simp only [isSend, Bool.and_eq_true, decide_eq_true_eq] at sends
    exact notThere sends.1.1 toDestination
  rw [isRelevant_eq, isAside]
  cases isAck : packet.isAckTo flow.source <;>
    cases isSend : packet.isSend flow.source <;>
    simp_all

end Packet

/-! ## What the clock has no part in -/

namespace SenderState

/-- A state with its clock put back. -/
def unclocked [Timescale τ] (state : SenderState τ) : SenderState τ :=
  { state with time := Timescale.zero }

variable
  [Timescale τ]
  {config : ReplayConfig τ}
  {source : Address}
  {packet : Packet τ}

/-- A step sets the clock before it reads it. -/
theorem step_congr
    {first second : SenderState τ}
    (same : first.unclocked = second.unclocked) :
    first.step config source packet = second.step config source packet := by
  have unread (state : SenderState τ) :
      state.unclocked.step config source packet = state.step config source packet :=
    rfl
  rw [← unread first, same, unread second]

end SenderState

namespace Run

variable
  [Timescale τ]
  (config : ReplayConfig τ)
  (source : Address)

/-- What a run reports, and the state it ends in with its clock put back. -/
def unclocked (packets : List (Packet τ)) : List (Event τ) × SenderState τ :=
  (events config source packets, (state config source packets).unclocked)

/-- The packets that matter give the events of a run and, up to its clock, its state. -/
theorem run_filter_relevant (packets : List (Packet τ)) :
    events config source (packets.filter fun packet => packet.isRelevant source) =
        events config source packets ∧
      (state config source
          (packets.filter fun packet => packet.isRelevant source)).unclocked =
        (state config source packets).unclocked := by
  have same :
      unclocked config source (packets.filter fun packet => packet.isRelevant source) =
        unclocked config source packets := by
    apply view_filter (unclocked config source)
    · intro first second packet sameRun
      obtain ⟨sameEvents, sameState⟩ := Prod.mk.inj sameRun
      have sameNext :
          next config source first packet = next config source second packet :=
        SenderState.step_congr sameState
      simp only [unclocked, events_concat, state_concat, sameEvents, sameNext]
    · intro earlier packet irrelevant
      have skipped :
          next config source earlier packet =
            ⟨{ state config source earlier with time := packet.time }, []⟩ :=
        SenderState.step_of_not_relevant config source _ irrelevant
      simp only [unclocked, events_concat, state_concat, skipped, List.append_nil]
      rfl
  exact Prod.mk.inj same

/-- The packets that acknowledge to the source or carry data away from it, in order. -/
def relevant (source : Address) (packets : List (Packet τ)) : List (Packet τ) :=
  packets.filter fun packet => packet.isAckTo source || packet.isSend source

/--
The packets that do not matter leave no trace.

Without them a run reports the same events, each at the same state, clock
included; it ends in the same state up to its clock; and whoever observes it
comes to the same result.
-/
theorem skipped_packets_leave_no_trace (packets : List (Packet τ)) :
    events config source (relevant source packets) = events config source packets ∧
      (state config source (relevant source packets)).unclocked =
        (state config source packets).unclocked ∧
      ∀ {σ : Type} (observer : Observer τ σ),
        observeReplay config source observer (relevant source packets) =
          observeReplay config source observer packets := by
  have sameRun := run_filter_relevant config source packets
  simp only [Packet.isRelevant_eq] at sameRun
  refine ⟨sameRun.1, sameRun.2, ?_⟩
  intro σ observer
  simp only [observeReplay, replay_eq]
  exact congrArg (observer.observeAll observer.start) sameRun.1

end Run

/-! ## The packets that notices are about -/

def Notice.subject? : Notice τ → Option (Packet τ)
  | .newSend packet => some packet
  | .retransmission packet => some packet
  | .timeout packet => some packet
  | .ack packet => some packet
  | .duplicateAck packet => some packet
  | _ => none

/-- The packets that events are about, in order. -/
def subjects (events : List (Event τ)) : List (Packet τ) :=
  (events.map Event.notice).filterMap Notice.subject?

@[simp] theorem subjects_append (first second : List (Event τ)) :
    subjects (first ++ second) = subjects first ++ subjects second := by
  simp [subjects]

@[simp] theorem subjects_markArrived
    (state : SenderState τ)
    (segments : List Offset) :
    subjects (state.markArrived segments).events = [] :=
  SenderState.filterMap_markArrived _ (fun _ => rfl) state segments

/-- A packet that matters is the subject of exactly one event it gives rise to. -/
theorem SenderState.Effect.subjects_eq
    [Timescale τ]
    {config : ReplayConfig τ}
    {source : Address}
    {state : SenderState τ}
    {packet : Packet τ}
    {outcome : Outcome τ}
    (effect : SenderState.Effect config source state packet outcome) :
    subjects outcome.events =
      if packet.isRelevant source then [packet] else [] := by
  rw [Packet.isRelevant]
  cases effect with
  | passedOver noAck noSend =>
      cases concern : packet.concern source with
      | acknowledges => exact (noAck concern).elim
      | sends => exact (noSend concern).elim
      | _ => rfl
  | duplicate acknowledges repeats =>
      rw [acknowledges]
      change packet :: subjects (_ ++ _) = _
      rw [subjects_append, subjects_markArrived]
      split <;> rfl
  | late acknowledges below =>
      rw [acknowledges]
      cases state.endsRecovery packet <;> rfl
  | advance acknowledges above =>
      rw [acknowledges]
      cases state.endsRecovery packet <;>
        exact congrArg (packet :: ·) (subjects_markArrived _ _)
  | newSend sends above =>
      rw [sends]
      rfl
  | timeout sends repeated isTimeout =>
      rw [sends]
      cases state.inRecovery <;> rfl
  | recoveryBegun sends repeated noTimeout closed =>
      rw [sends]
      rfl
  | retransmission sends repeated noTimeout isOpen =>
      rw [sends]
      rfl

/-- The events of a run are about the packets that matter, each once and in order. -/
theorem Run.subjects_events
    [Timescale τ]
    (config : ReplayConfig τ)
    (source : Address)
    (packets : List (Packet τ)) :
    subjects (Run.events config source packets) =
      packets.filter fun packet => packet.isRelevant source := by
  induction packets using List.reverseRecOn with
  | nil =>
      rfl
  | append_singleton earlier packet inductionHypothesis =>
      rw [events_concat, subjects_append, inductionHypothesis,
        (next_effect config source earlier packet).subjects_eq, List.filter_append]
      cases relevant : packet.isRelevant source <;>
        simp [relevant]

/-! ## Packets put into a capture -/

/-- A list into which further elements were put, anywhere and in order. -/
inductive Inserted {α : Type} : List α → List α → List α → Prop
  | nil :
      Inserted [] [] []
  | keep
      {base added mixed : List α}
      (element : α)
      (rest : Inserted base added mixed) :
      Inserted (element :: base) added (element :: mixed)
  | insert
      {base added mixed : List α}
      (element : α)
      (rest : Inserted base added mixed) :
      Inserted base (element :: added) (element :: mixed)

namespace Inserted

variable {α : Type} {base added mixed : List α}

theorem length
    (inserted : Inserted base added mixed) :
    mixed.length = base.length + added.length := by
  induction inserted with
  | nil =>
      rfl
  | keep element rest inductionHypothesis =>
      simp only [List.length_cons, inductionHypothesis]
      omega
  | insert element rest inductionHypothesis =>
      simp only [List.length_cons, inductionHypothesis]
      omega

theorem filter
    (keeps : α → Bool)
    (inserted : Inserted base added mixed) :
    Inserted (base.filter keeps) (added.filter keeps) (mixed.filter keeps) := by
  induction inserted with
  | nil =>
      exact .nil
  | keep element rest inductionHypothesis =>
      cases kept : keeps element with
      | false =>
          simpa [kept] using inductionHypothesis
      | true =>
          simpa [kept] using inductionHypothesis.keep element
  | insert element rest inductionHypothesis =>
      cases kept : keeps element with
      | false =>
          simpa [kept] using inductionHypothesis
      | true =>
          simpa [kept] using inductionHypothesis.insert element

/-- Nothing was put into a list exactly when it is the same as before. -/
theorem added_eq_nil_iff
    (inserted : Inserted base added mixed) :
    added = [] ↔ mixed = base := by
  constructor
  · intro noneAdded
    induction inserted with
    | nil =>
        rfl
    | keep element rest inductionHypothesis =>
        rw [inductionHypothesis noneAdded]
    | insert element rest inductionHypothesis =>
        cases noneAdded
  · intro same
    have grown := inserted.length
    rw [same] at grown
    exact List.length_eq_zero_iff.mp (by omega)

end Inserted

namespace Run

/-- Two captures give the same notices, and up to its clock the same state. -/
def SameReplay
    [Timescale τ]
    (config : ReplayConfig τ)
    (source : Address)
    (first second : List (Packet τ)) :
    Prop :=
  (events config source first).map Event.notice =
      (events config source second).map Event.notice ∧
    (state config source first).unclocked =
      (state config source second).unclocked

/--
Packets that are not of a flow, put into a capture, go unnoticed exactly when by
none of them the source gets an acknowledgment from, or sends data to, a third
host.
-/
theorem foreign_unnoticed_iff
    [Timescale τ]
    (config : ReplayConfig τ)
    (flow : Flow)
    {packets added mixed : List (Packet τ)}
    (inserted : Inserted packets added mixed)
    (foreign : ∀ packet ∈ added, packet.isOf flow = false) :
    SameReplay config flow.source mixed packets ↔
      ∀ packet ∈ added, packet.isAside flow = false := by
  have relevant :=
    inserted.filter fun packet => packet.isRelevant flow.source
  have noneAside :
      (∀ packet ∈ added, packet.isAside flow = false) ↔
        (added.filter fun packet => packet.isRelevant flow.source) = [] := by
    rw [List.filter_eq_nil_iff]
    refine forall₂_congr fun packet member => ?_
    rw [Packet.isRelevant_of_not_isOf (foreign packet member), Bool.not_eq_true]
  rw [noneAside, relevant.added_eq_nil_iff]
  constructor
  · -- The packets that matter can be read off the notices.
    rintro ⟨sameNotices, _⟩
    rw [← subjects_events config, ← subjects_events config, subjects, sameNotices,
      subjects]
  · intro sameRelevant
    have mixedRun := run_filter_relevant config flow.source mixed
    have packetsRun := run_filter_relevant config flow.source packets
    rw [sameRelevant] at mixedRun
    constructor
    · rw [← mixedRun.1, packetsRun.1]
    · rw [← mixedRun.2, packetsRun.2]

/-- The acknowledgment of one byte, from one host to another. -/
def ackBetween (src dst : Address) : Packet Float :=
  Flow.acknowledgment ⟨dst, src⟩ 1 none 0.0

/-- Between an acknowledgment and its duplicate, bystanders of two kinds go unnoticed. -/
theorem bystanders_unnoticed :
    Inserted
        [ackBetween (.v4 2) (.v4 1), ackBetween (.v4 2) (.v4 1)]
        [ackBetween (.v4 3) (.v4 2), ackBetween (.v4 1) (.v4 3)]
        [ackBetween (.v4 2) (.v4 1), ackBetween (.v4 3) (.v4 2),
          ackBetween (.v4 1) (.v4 3), ackBetween (.v4 2) (.v4 1)] ∧
      (∀ packet ∈ [ackBetween (.v4 3) (.v4 2), ackBetween (.v4 1) (.v4 3)],
        packet.isOf ⟨.v4 1, .v4 2⟩ = false) ∧
      SameReplay ReplayConfig.standard (.v4 1)
        [ackBetween (.v4 2) (.v4 1), ackBetween (.v4 3) (.v4 2),
          ackBetween (.v4 1) (.v4 3), ackBetween (.v4 2) (.v4 1)]
        [ackBetween (.v4 2) (.v4 1), ackBetween (.v4 2) (.v4 1)] := by
  have inserted :
      Inserted
        [ackBetween (.v4 2) (.v4 1), ackBetween (.v4 2) (.v4 1)]
        [ackBetween (.v4 3) (.v4 2), ackBetween (.v4 1) (.v4 3)]
        [ackBetween (.v4 2) (.v4 1), ackBetween (.v4 3) (.v4 2),
          ackBetween (.v4 1) (.v4 3), ackBetween (.v4 2) (.v4 1)] :=
    .keep _ (.insert _ (.insert _ (.keep _ .nil)))
  have foreign :
      ∀ packet ∈ [ackBetween (.v4 3) (.v4 2), ackBetween (.v4 1) (.v4 3)],
        packet.isOf ⟨.v4 1, .v4 2⟩ = false := by
    decide
  refine ⟨inserted, foreign, ?_⟩
  apply (foreign_unnoticed_iff _ ⟨.v4 1, .v4 2⟩ inserted foreign).mpr
  decide

/-- An acknowledgment from a third host is not of the flow, and is taken for one all the same. -/
theorem thirdHostAck_noticed :
    Inserted [] [ackBetween (.v4 3) (.v4 1)] [ackBetween (.v4 3) (.v4 1)] ∧
      (ackBetween (.v4 3) (.v4 1)).isOf ⟨.v4 1, .v4 2⟩ = false ∧
      ¬ SameReplay ReplayConfig.standard (.v4 1) [ackBetween (.v4 3) (.v4 1)] [] := by
  refine ⟨.insert _ .nil, by decide, ?_⟩
  rintro ⟨sameNotices, _⟩
  have sameLength := congrArg List.length sameNotices
  revert sameLength
  decide +kernel

end Run

end Retrace
