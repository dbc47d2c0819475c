import Retrace.Analysis.Condition
import Retrace.Proofs.Analysis.Spurious
import Retrace.Proofs.Observer.Collected
namespace Retrace

/-!
# Reports stand in the capture

Whatever an analyzer compares or replays, it reports packets that the sender's
capture has from the source, in the order of that capture and each as often as
it stands there at most.
-/

namespace Analysis

variable {τ : Type}

theorem firstOfKeys_sublist
    (known : KeySet)
    (packets : Trace τ) :
    (firstOfKeys known packets).Sublist packets := by
  induction packets generalizing known with
  | nil =>
      exact List.Sublist.slnil
  | cons packet rest inductionHypothesis =>
      rw [firstOfKeys]
      split
      · exact (inductionHypothesis known).cons packet
      · exact (inductionHypothesis _).cons_cons packet

/-- The first packets of the keys not known before have all of these keys. -/
theorem mem_keys_firstOfKeys
    {known : KeySet}
    {packets : Trace τ}
    {key : PacketKey} :
    key ∈ (firstOfKeys known packets).map Packet.key ↔
      key ∉ known ∧ key ∈ packets.map Packet.key := by
  induction packets generalizing known with
  | nil =>
      simp [firstOfKeys]
  | cons packet rest inductionHypothesis =>
      rw [firstOfKeys, List.map_cons, List.mem_cons]
      by_cases isKnown : packet.key ∈ known
      · rw [if_pos isKnown, inductionHypothesis]
        apply and_congr_right
        intro unknown
        have other : key ≠ packet.key :=
          fun same => unknown (same ▸ isKnown)
        simp [other]
      · rw [if_neg isKnown, List.map_cons, List.mem_cons, inductionHypothesis,
          Std.TreeSet.mem_insert, Std.LawfulEqOrd.compare_eq_iff_eq]
        by_cases same : key = packet.key
        · simp [same, isKnown]
        · simp [same, Ne.symm same]

theorem laterCopies_sublist
    (seen : Std.TreeSet Offset)
    (packets : Trace τ) :
    (laterCopies seen packets).Sublist packets := by
  induction packets generalizing seen with
  | nil =>
      exact List.Sublist.slnil
  | cons packet rest inductionHypothesis =>
      rw [laterCopies]
      split
      · exact (inductionHypothesis seen).cons_cons packet
      · exact (inductionHypothesis _).cons packet

theorem map_fst_zip_sublist
    {α β : Type}
    (first : List α)
    (second : List β) :
    ((first.zip second).map Prod.fst).Sublist first := by
  rw [List.zip_eq_zip_take_min, List.map_fst_zip (by simp)]
  exact List.take_sublist _ _

section

variable
  (sender receiver : Trace τ)
  (source : Address)

/-- The keys of dropped packets are those sent from the source that the receiver never saw. -/
theorem mem_droppedKeys_iff (key : PacketKey) :
    key ∈ KeySet.ofPackets (dropped sender receiver source) ↔
      key ∉ receivedKeys receiver source ∧
        key ∈ (sender.sentBy source).map Packet.key := by
  rw [KeySet.mem_ofPackets, ← List.mem_map]
  exact mem_keys_firstOfKeys

theorem sends_sublist : (sends source sender).Sublist (sender.sentBy source) := by
  apply List.monotone_filter_right
  intro packet isSend
  simp only [Packet.isSend, Bool.and_eq_true] at isSend
  exact isSend.1.1

theorem delivered_sublist :
    (delivered sender receiver source).Sublist (sender.sentBy source) :=
  List.filter_sublist

theorem spurious_sublist :
    (spurious sender receiver source).Sublist (sender.sentBy source) :=
  (laterCopies_sublist ∅ _).trans (delivered_sublist sender receiver source)

theorem outOfOrder_sublist :
    (outOfOrder sender receiver source).Sublist (sender.sentBy source) :=
  ((List.filter_sublist.map Prod.fst).trans (map_fst_zip_sublist _ _)).trans
    (delivered_sublist sender receiver source)

end

end Analysis

open Analysis in
/-- Every analyzer reports packets sent, in order and each as often as it was captured at most. -/
theorem Analyzer.report_sublist
    (analyzer : Analyzer)
    (sender receiver : Trace Float)
    (source : Address) :
    (analyzer.report sender receiver source).Sublist (sender.sentBy source) := by
  cases analyzer with
  | dropped =>
      exact firstOfKeys_sublist _ _
  | sackFastRetransmit =>
      exact (Observer.retransmissionsIf_sublist _ _ _ _).trans
        (sends_sublist sender source)
  | earlySpuriousRetransmit =>
      exact List.filter_sublist.trans
        ((Observer.retransmissionsIf_sublist _ _ _ _).trans
          (sends_sublist sender source))
  | spuriousByReordering =>
      rw [report, spuriousByReordering_eq]
      exact List.filter_sublist.trans (spurious_sublist sender receiver source)
  | spurious =>
      exact spurious_sublist sender receiver source
  | outOfOrder =>
      exact outOfOrder_sublist sender receiver source

end Retrace
