import Retrace.Proofs.Analysis.Reordering
import Retrace.Proofs.Analysis.Spurious
import Retrace.Proofs.Sender.Classification
namespace Retrace

/-!
# Copies in the replay

The analyses of spurious retransmissions compare the keys of two captures; the
replay follows the sender's capture alone.  Where the first find a copy of data
that had been delivered, the second has met that data before, so it takes the
copy for data sent again, whatever acknowledgments, recoveries and timeouts came
in between: what ties them together is the highest sequence number sent.
-/

variable {τ : Type}

/-! ## Repeated sends in a run -/

section

variable
  [Timescale τ]
  (config : ReplayConfig τ)
  {source : Address}
  {earlier : List (Packet τ)}
  {packet : Packet τ}

/-- Data not above the highest number sent is retransmitted or follows a timeout. -/
theorem verdict_of_repeated
    (repeated : packet.seq ≤ highestSeq source earlier) :
    verdict config source earlier packet = .retransmission packet ∨
      verdict config source earlier packet = .timeout packet := by
  rw [verdict, if_neg (UInt64.not_lt.mpr repeated)]
  split
  · exact Or.inr rfl
  · exact Or.inl rfl

/-- A run reports the verdict on a send between what it reports of the sends around it. -/
theorem sendNotices_append_cons
    (later : List (Packet τ))
    (isSend : packet.isSend source = true) :
    sendNotices (Run.events config source (earlier ++ packet :: later)) =
      sendNotices (Run.events config source earlier) ++
        verdict config source earlier packet ::
          sendNotices
            ((Run.state config source (earlier ++ [packet])).history
              config source later) := by
  rw [Run.events_append_cons, sendNotices_append, sendNotices_append,
    sendNotices_next, if_pos isSend, Run.state_concat]
  rfl

end

namespace Analysis

/-! ## Copies among the packets sent -/

/-- A packet from the source carries data, and the receiver saw a packet of its key. -/
def IsDelivered
    (receiver : Trace τ)
    (source : Address)
    (packet : Packet τ) :
    Prop :=
  packet.src = source ∧
    packet.payload = true ∧
    ∃ seen ∈ receiver, seen.src = source ∧ seen.key = packet.key

/-- A packet is delivered after one with its sequence number that was delivered as well. -/
def IsLaterCopy
    (receiver : Trace τ)
    (source : Address)
    (earlier : Trace τ)
    (packet : Packet τ) :
    Prop :=
  IsDelivered receiver source packet ∧
    ∃ original ∈ earlier,
      IsDelivered receiver source original ∧ original.seq = packet.seq

instance (receiver : Trace τ) (source : Address) :
    DecidablePred (IsDelivered receiver source) :=
  fun _ => inferInstanceAs (Decidable (_ ∧ _ ∧ _))

instance (receiver : Trace τ) (source : Address) :
    DecidableRel (IsLaterCopy receiver source) :=
  fun _ _ => inferInstanceAs (Decidable (_ ∧ _))

section

variable
  (sender receiver : Trace τ)
  (source : Address)

theorem delivered_eq_filter :
    delivered sender receiver source =
      sender.filter fun packet => IsDelivered receiver source packet := by
  rw [delivered, Trace.sentBy, List.filter_filter]
  apply List.filter_congr
  intro packet _
  rw [Bool.eq_iff_iff, decide_eq_true_iff]
  simp only [Bool.and_eq_true, decide_eq_true_iff, Std.TreeSet.contains_iff_mem,
    mem_receivedKeys, IsDelivered]
  constructor
  · rintro ⟨⟨carriesData, wasSeen⟩, fromSource⟩
    exact ⟨fromSource, carriesData, wasSeen⟩
  · rintro ⟨fromSource, carriesData, wasSeen⟩
    exact ⟨⟨carriesData, wasSeen⟩, fromSource⟩

/-- The spurious retransmissions are the later copies among the packets sent. -/
theorem spurious_eq_chosenByPast :
    spurious sender receiver source =
      chosenByPast (IsLaterCopy receiver source) sender := by
  rw [spurious, delivered_eq_filter]
  induction sender using List.reverseRecOn with
  | nil =>
      rfl
  | append_singleton earlier packet inductionHypothesis =>
      rw [chosenByPast_concat, ← inductionHypothesis, List.filter_append,
        List.filter_singleton]
      by_cases isDelivered : IsDelivered receiver source packet
      · have sameTest :
            (packet.seq ∈
                (earlier.filter fun packet =>
                  IsDelivered receiver source packet).map Packet.seq) ↔
              IsLaterCopy receiver source earlier packet := by
          simp [IsLaterCopy, isDelivered, and_assoc]
        rw [decide_eq_true isDelivered, cond_true, laterCopies_empty_concat]
        simp only [sameTest]
      · have noCopy : ¬ IsLaterCopy receiver source earlier packet :=
          fun isCopy => isDelivered isCopy.1
        rw [decide_eq_false isDelivered, cond_false, List.append_nil,
          if_neg noCopy, List.append_nil]

end

/-- A choice by the past can be narrowed down before or after it is made. -/
theorem filter_chosenByPast
    (chooses : Trace τ → Packet τ → Prop)
    [DecidableRel chooses]
    (also : Packet τ → Prop)
    [DecidablePred also]
    (packets : Trace τ) :
    (chosenByPast chooses packets).filter (fun packet => also packet) =
      chosenByPast (fun earlier packet => chooses earlier packet ∧ also packet)
        packets := by
  rw [chosenByPast, chosenByPast, List.filter_map, List.filter_filter]
  congr 1
  apply List.filter_congr
  intro entry _
  rw [Function.comp_apply, Bool.decide_and, Bool.and_comm]

/-- What is delivered is sent to another host, unless the source sends to itself. -/
theorem IsDelivered.isSend
    {receiver : Trace τ}
    {source : Address}
    {packet : Packet τ}
    (isDelivered : IsDelivered receiver source packet)
    (noLoop : ¬ (packet.src = source ∧ packet.dst = source)) :
    packet.isSend source = true := by
  obtain ⟨fromSource, carriesData, _⟩ := isDelivered
  have elsewhere : packet.dst ≠ source :=
    fun towards => noLoop ⟨fromSource, towards⟩
  simp [Packet.isSend, fromSource, elsewhere, carriesData]

/-- A later copy is a send not above the highest number sent, for its original went before. -/
theorem IsLaterCopy.repeated
    {sender receiver earlier later : Trace τ}
    {source : Address}
    {packet : Packet τ}
    (isCopy : IsLaterCopy receiver source earlier packet)
    (shape : sender = earlier ++ packet :: later)
    (noLoop :
      ∀ packet ∈ sender, ¬ (packet.src = source ∧ packet.dst = source)) :
    packet.isSend source = true ∧
      packet.seq ≤ highestSeq source earlier := by
  obtain ⟨isDelivered, original, before, originalDelivered, sameSeq⟩ := isCopy
  subst shape
  constructor
  · exact isDelivered.isSend (noLoop packet (by simp))
  · rw [← sameSeq]
    exact seq_le_highestSeq before
      (originalDelivered.isSend (noLoop original (List.mem_append_left _ before)))

/--
What the comparison of both captures takes for copies, the replay takes for data
sent again.

The two analyses of spurious retransmissions report later copies, place by place
of the sender's capture.  Wherever such a copy stands there, a run over that
capture reports it once, as retransmitted or timed out and never as new, between
what it reports of the sends before it and of those after it.
-/
theorem spurious_copies_resent
    [Timescale τ]
    (config : ReplayConfig τ)
    {sender : Trace τ}
    (receiver : Trace τ)
    {source : Address}
    (noLoop :
      ∀ packet ∈ sender, ¬ (packet.src = source ∧ packet.dst = source)) :
    spurious sender receiver source =
        chosenByPast (IsLaterCopy receiver source) sender ∧
      spuriousByReordering sender receiver source =
        chosenByPast
          (fun earlier packet =>
            IsLaterCopy receiver source earlier packet ∧
              packet.seq ∈ (outOfOrder sender receiver source).map Packet.seq)
          sender ∧
      ∀ (earlier : Trace τ) (packet : Packet τ) (later : Trace τ),
        sender = earlier ++ packet :: later →
          IsLaterCopy receiver source earlier packet →
            ∃ resent,
              (resent = .retransmission packet ∨ resent = .timeout packet) ∧
                sendNotices (Run.events config source sender) =
                  sendNotices (Run.events config source earlier) ++
                    resent ::
                      sendNotices
                        ((Run.state config source (earlier ++ [packet])).history
                          config source later) := by
  refine ⟨spurious_eq_chosenByPast sender receiver source, ?_, ?_⟩
  · rw [spuriousByReordering_eq, spurious_eq_chosenByPast, filter_chosenByPast]
  · intro earlier packet later shape isCopy
    obtain ⟨isSend, repeated⟩ := isCopy.repeated shape noLoop
    refine ⟨verdict config source earlier packet,
      verdict_of_repeated config repeated, ?_⟩
    rw [shape]
    exact sendNotices_append_cons config later isSend

/-- A segment sent again at a quarter of a second. -/
def copyOf (seq : Offset) : Packet Float :=
  Flow.sample.segment seq 0.25

/-- Of two segments the second is sent again. -/
def copiedSegments : Trace Float :=
  [segmentOf 1, segmentOf 1447, copyOf 1447]

/-- The second of them overtook the first, and its copy arrived as well. -/
def overtakenCopies : Trace Float :=
  [segmentOf 1447, segmentOf 1, segmentOf 1447]

/-- A copy of data that overtook other data is reported by both analyses, and sent again. -/
theorem overtakenCopy_resent :
    (∀ packet ∈ copiedSegments, ¬ (packet.src = .v4 1 ∧ packet.dst = .v4 1)) ∧
      spurious copiedSegments overtakenCopies (.v4 1) = [copyOf 1447] ∧
      spuriousByReordering copiedSegments overtakenCopies (.v4 1) =
        [copyOf 1447] ∧
      ∃ resent,
        (resent = .retransmission (copyOf 1447) ∨
            resent = .timeout (copyOf 1447)) ∧
          sendNotices
              (Run.events ReplayConfig.standard (.v4 1) copiedSegments) =
            sendNotices
                (Run.events ReplayConfig.standard (.v4 1)
                  [segmentOf 1, segmentOf 1447]) ++
              [resent] := by
  have noLoop :
      ∀ packet ∈ copiedSegments,
        ¬ (packet.src = .v4 1 ∧ packet.dst = .v4 1) := by
    decide
  obtain ⟨copies, reordered, resent⟩ :=
    spurious_copies_resent ReplayConfig.standard overtakenCopies noLoop
  refine ⟨noLoop, ?_, ?_, ?_⟩
  · rw [copies]
    decide
  · rw [reordered]
    decide +kernel
  · exact resent [segmentOf 1, segmentOf 1447] (copyOf 1447) [] rfl (by decide)

end Analysis

end Retrace
