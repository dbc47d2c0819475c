import Mathlib.Data.List.Chain
import Retrace.Proofs.Sender.Duplicates
namespace Retrace

/-!
# The ranges of a run

Only duplicate acknowledgments have their ranges read, so the ranges that the
state keeps are those of the last one.  Other acknowledgments clear what was
counted of duplicates, but they leave the ranges: these can be older than every
duplicate that still counts.

Whoever observes a replay learns of the ranges when a duplicate has other ones
than the duplicate before it.  What is announced then is the list that the state
keeps from there on, so that the two never differ between packets.
-/

variable {τ : Type}

/-- The duplicate acknowledgments, in order. -/
def repeats (source : Address) (packets : List (Packet τ)) : List (Packet τ) :=
  ((markRepeats 0 (acks source packets)).filter Prod.snd).map Prod.fst

/-- An acknowledgment of the highest number is one more duplicate. -/
theorem repeats_concat
    (source : Address)
    (earlier : List (Packet τ))
    (packet : Packet τ) :
    repeats source (earlier ++ [packet]) =
      if packet.isAckTo source ∧ packet.ack = highestAck source earlier then
        repeats source earlier ++ [packet]
      else
        repeats source earlier := by
  cases isAck : packet.isAckTo source with
  | false =>
      simp [repeats, acks, isAck]
  | true =>
      have grown : acks source (earlier ++ [packet]) = acks source earlier ++ [packet] := by
        simp [acks, isAck]
      rw [repeats, grown, markRepeats_concat, List.filter_append, List.map_append,
        ← Offset.highest, ← highestAck, ← repeats]
      by_cases again : packet.ack = highestAck source earlier <;>
        simp [again]

/-- The ranges of the last duplicate acknowledgment, none if there was no duplicate. -/
def lastRanges (source : Address) (packets : List (Packet τ)) : List ByteRange :=
  ((repeats source packets).getLast?.map Packet.sackRanges).getD []

theorem lastRanges_concat
    (source : Address)
    (earlier : List (Packet τ))
    (packet : Packet τ) :
    lastRanges source (earlier ++ [packet]) =
      if packet.isAckTo source ∧ packet.ack = highestAck source earlier then
        packet.sackRanges
      else
        lastRanges source earlier := by
  rw [lastRanges, repeats_concat]
  split
  · simp
  · rfl

/-- A duplicate leaves its own ranges, any other packet those it finds. -/
theorem SenderState.Effect.sackRanges_eq
    [Timescale τ]
    {config : ReplayConfig τ}
    {source : Address}
    {state : SenderState τ}
    {packet : Packet τ}
    {outcome : Outcome τ}
    (effect : Effect config source state packet outcome) :
    outcome.state.sackRanges =
      if packet.isAckTo source ∧ packet.ack = state.highestAcked then
        packet.sackRanges
      else
        state.sackRanges := by
  rw [Packet.isAckTo_eq]
  cases effect with
  | passedOver noAck noSend =>
      simp [noAck]
  | duplicate acknowledges repeats =>
      simp [acknowledges, repeats]
  | late acknowledges below =>
      simp [UInt64.ne_of_lt below, clearDuplicates, settle]
  | advance acknowledges above =>
      simp [(UInt64.ne_of_lt above).symm, clearDuplicates, settle]
  | newSend sends above =>
      simp [sends]
  | timeout sends repeated isTimeout =>
      simp [sends, leaveRecovery]
  | recoveryBegun sends repeated noTimeout closed =>
      simp [sends, enterRecovery]
  | retransmission sends repeated noTimeout isOpen =>
      simp [sends]

/-- The ranges a run keeps are those of the last duplicate acknowledgment. -/
theorem Run.state_sackRanges
    [Timescale τ]
    (config : ReplayConfig τ)
    (source : Address)
    (packets : List (Packet τ)) :
    (state config source packets).sackRanges = lastRanges source packets := by
  induction packets using List.reverseRecOn with
  | nil =>
      rfl
  | append_singleton earlier packet inductionHypothesis =>
      rw [state_concat, (next_effect config source earlier packet).sackRanges_eq,
        lastRanges_concat, ← inductionHypothesis, ← state_highestAcked config]

/-! ## The ranges announced -/

/-- Whether a notice is of a duplicate acknowledgment or of its ranges. -/
def Notice.isOfDuplicate : Notice τ → Bool
  | .duplicateAck _ | .sackChange _ => true
  | _ => false

/-- What events say of duplicate acknowledgments and their ranges, in order. -/
def duplicateNotices (events : List (Event τ)) : List (Notice τ) :=
  (events.map Event.notice).filter Notice.isOfDuplicate

/-- The duplicate acknowledgment that a notice reports. -/
def Notice.duplicate? : Notice τ → Option (Packet τ)
  | .duplicateAck packet => some packet
  | _ => none

/-- The ranges that a notice announces in place of those before. -/
def Notice.changedTo? : Notice τ → Option (List ByteRange)
  | .sackChange ranges => some ranges
  | _ => none

/-- The duplicate acknowledgments that events report, in order. -/
def reportedDuplicates (events : List (Event τ)) : List (Packet τ) :=
  (events.map Event.notice).filterMap Notice.duplicate?

/-- The lists of ranges that events announce, in order. -/
def rangeChanges (events : List (Event τ)) : List (List ByteRange) :=
  (events.map Event.notice).filterMap Notice.changedTo?

@[simp] theorem duplicateNotices_nil : duplicateNotices ([] : List (Event τ)) = [] :=
  rfl

@[simp] theorem duplicateNotices_cons
    (event : Event τ)
    (rest : List (Event τ)) :
    duplicateNotices (event :: rest) =
      if event.notice.isOfDuplicate then
        event.notice :: duplicateNotices rest
      else
        duplicateNotices rest := by
  simp [duplicateNotices, List.filter_cons]

@[simp] theorem duplicateNotices_append (first second : List (Event τ)) :
    duplicateNotices (first ++ second) =
      duplicateNotices first ++ duplicateNotices second := by
  simp [duplicateNotices]

@[simp] theorem duplicateNotices_markArrived
    (state : SenderState τ)
    (segments : List Offset) :
    duplicateNotices (state.markArrived segments).events = [] := by
  rw [duplicateNotices, SenderState.markArrived_notices, List.filter_eq_nil_iff]
  intro notice member
  obtain ⟨segment, _, rfl⟩ := List.mem_map.mp member
  exact Bool.false_ne_true

theorem reportedDuplicates_eq_filterMap (events : List (Event τ)) :
    reportedDuplicates events = (duplicateNotices events).filterMap Notice.duplicate? := by
  rw [duplicateNotices, List.filterMap_filter, reportedDuplicates]
  apply List.filterMap_congr
  intro notice _
  cases notice <;> rfl

theorem rangeChanges_eq_filterMap (events : List (Event τ)) :
    rangeChanges events = (duplicateNotices events).filterMap Notice.changedTo? := by
  rw [duplicateNotices, List.filterMap_filter, rangeChanges]
  apply List.filterMap_congr
  intro notice _
  cases notice <;> rfl

theorem mem_rangeChanges
    {events : List (Event τ)}
    {ranges : List ByteRange} :
    ranges ∈ rangeChanges events ↔ .sackChange ranges ∈ events.map Event.notice := by
  have announces (notice : Notice τ) :
      notice.changedTo? = some ranges ↔ notice = .sackChange ranges := by
    cases notice <;>
      simp [Notice.changedTo?]
  simp [rangeChanges, List.mem_filterMap, announces]

namespace SenderState.Effect

variable
  [Timescale τ]
  {config : ReplayConfig τ}
  {source : Address}
  {state : SenderState τ}
  {packet : Packet τ}
  {outcome : Outcome τ}

/-- A duplicate is reported and then its ranges if they are not those before; nothing else is. -/
theorem duplicateNotices_eq
    (effect : Effect config source state packet outcome) :
    duplicateNotices outcome.events =
      if packet.isAckTo source ∧ packet.ack = state.highestAcked then
        .duplicateAck packet ::
          if packet.sackRanges = state.sackRanges then
            []
          else
            [.sackChange packet.sackRanges]
      else
        [] := by
  rw [Packet.isAckTo_eq]
  cases effect with
  | passedOver noAck noSend =>
      simp [noAck]
  | duplicate acknowledges repeats =>
      by_cases unchanged : packet.sackRanges = state.sackRanges <;>
        simp [acknowledges, repeats, unchanged, Notice.isOfDuplicate]
  | late acknowledges below =>
      cases state.endsRecovery packet <;>
        simp [UInt64.ne_of_lt below, Notice.isOfDuplicate]
  | advance acknowledges above =>
      cases state.endsRecovery packet <;>
        simp [(UInt64.ne_of_lt above).symm, Notice.isOfDuplicate]
  | newSend sends above =>
      simp [sends, Notice.isOfDuplicate]
  | timeout sends repeated isTimeout =>
      cases state.inRecovery <;>
        simp [sends, Notice.isOfDuplicate]
  | recoveryBegun sends repeated noTimeout closed =>
      simp [sends, Notice.isOfDuplicate]
  | retransmission sends repeated noTimeout isOpen =>
      simp [sends, Notice.isOfDuplicate]

theorem reportedDuplicates_eq
    (effect : Effect config source state packet outcome) :
    reportedDuplicates outcome.events =
      if packet.isAckTo source ∧ packet.ack = state.highestAcked then
        [packet]
      else
        [] := by
  rw [reportedDuplicates_eq_filterMap, effect.duplicateNotices_eq]
  split_ifs <;> rfl

/-- A duplicate announces its ranges if they are not those before, and nothing else does. -/
theorem rangeChanges_eq
    (effect : Effect config source state packet outcome) :
    rangeChanges outcome.events =
      if packet.isAckTo source ∧ packet.ack = state.highestAcked then
        if packet.sackRanges = state.sackRanges then [] else [packet.sackRanges]
      else
        [] := by
  rw [rangeChanges_eq_filterMap, effect.duplicateNotices_eq]
  split_ifs <;> rfl

end SenderState.Effect

namespace Run

variable
  [Timescale τ]
  (config : ReplayConfig τ)
  (source : Address)

theorem reportedDuplicates_events (packets : List (Packet τ)) :
    reportedDuplicates (events config source packets) = repeats source packets := by
  induction packets using List.reverseRecOn with
  | nil =>
      rfl
  | append_singleton earlier packet inductionHypothesis =>
      rw [events_concat, reportedDuplicates, List.map_append, List.filterMap_append,
        ← reportedDuplicates, ← reportedDuplicates, inductionHypothesis, repeats_concat,
        (next_effect config source earlier packet).reportedDuplicates_eq,
        ← state_highestAcked config]
      split
      · rfl
      · exact List.append_nil _

theorem rangeChanges_next
    (earlier : List (Packet τ))
    (packet : Packet τ) :
    rangeChanges (next config source earlier packet).events =
      if packet.isAckTo source ∧ packet.ack = highestAck source earlier then
        if packet.sackRanges = lastRanges source earlier then [] else [packet.sackRanges]
      else
        [] := by
  rw [(next_effect config source earlier packet).rangeChanges_eq,
    ← state_highestAcked config, ← state_sackRanges config]

theorem rangeChanges_concat
    (earlier : List (Packet τ))
    (packet : Packet τ) :
    rangeChanges (events config source (earlier ++ [packet])) =
      rangeChanges (events config source earlier) ++
        rangeChanges (next config source earlier packet).events := by
  simp [rangeChanges]

/-- The ranges announced last are those of the last duplicate. -/
theorem getLast?_rangeChanges (packets : List (Packet τ)) :
    (rangeChanges (events config source packets)).getLast?.getD [] =
      lastRanges source packets := by
  induction packets using List.reverseRecOn with
  | nil =>
      rfl
  | append_singleton earlier packet inductionHypothesis =>
      rw [rangeChanges_concat, rangeChanges_next, lastRanges_concat]
      split
      · by_cases unchanged : packet.sackRanges = lastRanges source earlier
        · rw [if_pos unchanged, List.append_nil, unchanged]
          exact inductionHypothesis
        · rw [if_neg unchanged, List.getLast?_concat]
          rfl
      · rw [List.append_nil]
        exact inductionHypothesis

/-- With no ranges at the beginning, each announcement differs from the one before. -/
theorem isChain_rangeChanges (packets : List (Packet τ)) :
    ([] :: rangeChanges (events config source packets)).IsChain (· ≠ ·) := by
  induction packets using List.reverseRecOn with
  | nil =>
      exact List.IsChain.singleton []
  | append_singleton earlier packet inductionHypothesis =>
      rw [rangeChanges_concat, rangeChanges_next]
      split_ifs with isDuplicate unchanged
      · rw [List.append_nil]
        exact inductionHypothesis
      · rw [← List.cons_append, List.isChain_append]
        refine ⟨inductionHypothesis, List.IsChain.singleton _, ?_⟩
        intro last isLast ranges isFirst
        rw [List.getLast?_cons, getLast?_rangeChanges] at isLast
        cases isLast
        cases isFirst
        exact Ne.symm unchanged
      · rw [List.append_nil]
        exact inductionHypothesis

/-- What is announced are the ranges of duplicates, in order. -/
theorem rangeChanges_sublist (packets : List (Packet τ)) :
    (rangeChanges (events config source packets)).Sublist
      ((repeats source packets).map Packet.sackRanges) := by
  induction packets using List.reverseRecOn with
  | nil =>
      exact List.Sublist.slnil
  | append_singleton earlier packet inductionHypothesis =>
      rw [rangeChanges_concat, rangeChanges_next, repeats_concat]
      split
      · rw [List.map_append]
        refine inductionHypothesis.append ?_
        split
        · exact List.nil_sublist _
        · exact List.Sublist.refl _
      · rw [List.append_nil]
        exact inductionHypothesis

/--
Changes of the ranges are announced exactly.

The ranges a run keeps are those of its last duplicate acknowledgment, and those
it announced last.  A duplicate announces its ranges if they are not those of
the duplicate before; any other packet announces none and leaves those it finds.
So no list is announced twice in a row, nor an empty one first, and every list
announced is in order.
-/
structure AnnouncesRanges : Prop where
  reported :
    ∀ packets : List (Packet τ),
      reportedDuplicates (events config source packets) = repeats source packets
  kept :
    ∀ packets : List (Packet τ),
      (state config source packets).sackRanges = lastRanges source packets
  announced :
    ∀ packets : List (Packet τ),
      (state config source packets).sackRanges =
        (rangeChanges (events config source packets)).getLast?.getD []
  atDuplicates :
    ∀ (earlier : List (Packet τ)) (packet : Packet τ),
      packet.isAckTo source = true →
        packet.ack = highestAck source earlier →
          rangeChanges (next config source earlier packet).events =
            if packet.sackRanges = lastRanges source earlier then
              []
            else
              [packet.sackRanges]
  atOthers :
    ∀ (earlier : List (Packet τ)) (packet : Packet τ),
      ¬ (packet.isAckTo source = true ∧ packet.ack = highestAck source earlier) →
        rangeChanges (next config source earlier packet).events = [] ∧
          (next config source earlier packet).state.sackRanges =
            (state config source earlier).sackRanges
  distinct :
    ∀ packets : List (Packet τ),
      (rangeChanges (events config source packets)).IsChain (· ≠ ·)
  firstHoldsRange :
    ∀ packets : List (Packet τ),
      (rangeChanges (events config source packets)).head? ≠ some []
  ordered :
    ∀ (packets : List (Packet τ)),
      ∀ ranges ∈ rangeChanges (events config source packets),
        ByteRange.Ordered ranges

/-- Every run announces changes of the ranges exactly. -/
theorem range_changes_announced : AnnouncesRanges config source := by
  constructor
  case reported =>
    exact reportedDuplicates_events config source
  case kept =>
    exact state_sackRanges config source
  case announced =>
    intro packets
    rw [getLast?_rangeChanges, state_sackRanges]
  case atDuplicates =>
    intro earlier packet isAck again
    rw [rangeChanges_next, if_pos ⟨isAck, again⟩]
  case atOthers =>
    intro earlier packet notDuplicate
    constructor
    · rw [rangeChanges_next, if_neg notDuplicate]
    · rw [← state_concat, state_sackRanges, state_sackRanges, lastRanges_concat,
        if_neg notDuplicate]
  case distinct =>
    intro packets
    exact (isChain_rangeChanges config source packets).tail
  case firstHoldsRange =>
    intro packets isEmpty
    exact (isChain_rangeChanges config source packets).rel_head? isEmpty rfl
  case ordered =>
    intro packets ranges isAnnounced
    obtain ⟨duplicate, _, rfl⟩ :=
      List.mem_map.mp ((rangeChanges_sublist config source packets).subset isAnnounced)
    exact duplicate.sackRanges_ordered

end Run

end Retrace
