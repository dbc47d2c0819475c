import Retrace.Proofs.Analysis.Reordering
import Retrace.Proofs.Analysis.Spurious
namespace Retrace

/-!
# Packets without payload

Reordering and spurious copies are found among data packets.  A packet without
payload that was sent is left out before anything is compared; one that was
received still puts its key among those received, so that data lost on the way
is taken for delivered when such a packet has its key.  This module says exactly
which reports show the difference.
-/

variable {τ : Type}

/-- The packets of a trace that carry data. -/
def Trace.dataOnly (trace : Trace τ) : Trace τ :=
  trace.filter Packet.payload

namespace Analysis

/-! ## What is delivered among data alone -/

section

variable
  (sender receiver : Trace τ)
  (source : Address)

theorem sentBy_dataOnly (trace : Trace τ) :
    trace.dataOnly.sentBy source = receivedData trace source := by
  rw [receivedData, Trace.sentBy, Trace.sentBy, Trace.dataOnly,
    List.filter_filter, List.filter_filter]
  apply List.filter_congr
  intro packet _
  exact Bool.and_comm _ _

theorem receivedData_dataOnly (trace : Trace τ) :
    receivedData trace.dataOnly source = receivedData trace source := by
  rw [receivedData, sentBy_dataOnly, List.filter_eq_self]
  intro packet isData
  exact (List.mem_filter.mp isData).2

/-- Packets without payload that were sent are not delivered. -/
theorem delivered_dataOnly_sent :
    delivered sender.dataOnly receiver source =
      delivered sender receiver source := by
  rw [delivered_eq, delivered_eq, receivedData_dataOnly]

/-- Without packets that carry no payload only the keys of data are received. -/
theorem mem_receivedKeys_dataOnly (key : PacketKey) :
    key ∈ receivedKeys receiver.dataOnly source ↔
      key ∈ dataKeys receiver source := by
  rw [receivedKeys, KeySet.mem_ofPackets, sentBy_dataOnly, dataKeys, List.mem_map]

/-- Without them, what was delivered are the packets whose key is that of received data. -/
theorem delivered_dataOnly :
    delivered sender receiver.dataOnly source =
      (delivered sender receiver source).filter fun packet =>
        packet.key ∈ dataKeys receiver source := by
  rw [delivered_eq, delivered_eq, List.filter_filter]
  apply List.filter_congr
  intro packet _
  rw [Bool.eq_iff_iff, Bool.and_eq_true, decide_eq_true_iff, decide_eq_true_iff,
    decide_eq_true_iff, mem_receivedKeys_dataOnly]
  constructor
  · intro isData
    exact ⟨isData, mem_receivedKeys_of_mem_dataKeys isData⟩
  · exact And.left

end

/-! ## Places -/

section

variable {α : Type}

/-- An element at a place that the other list has as well is paired. -/
theorem exists_pair_of_mem_take
    {first second : List α}
    {element : α}
    (member : element ∈ first.take second.length) :
    ∃ other, (element, other) ∈ first.zip second := by
  obtain ⟨place, bound, isElement⟩ := List.mem_take_iff_getElem.mp member
  have within : place < (first.zip second).length := by
    rw [List.length_zip]
    omega
  have paired : (first.zip second)[place] ∈ first.zip second :=
    List.getElem_mem within
  rw [List.getElem_zip, isElement] at paired
  exact ⟨_, paired⟩

/-- Leaving out elements behind a front leaves the front. -/
theorem take_filter_of_front
    {keeps : α → Bool}
    {elements : List α}
    {places : Nat}
    (frontKept : ∀ element ∈ elements.take places, keeps element = true) :
    (elements.filter keeps).take places = elements.take places := by
  have sameFront :
      (elements.take places).filter keeps = elements.take places :=
    List.filter_eq_self.mpr frontKept
  by_cases short : elements.length ≤ places
  · rw [List.take_of_length_le short] at sameFront
    rw [sameFront]
  · have fills : (elements.take places).length = places :=
      List.length_take_of_le (by omega)
    have parts :
        elements.filter keeps =
          elements.take places ++ (elements.drop places).filter keeps :=
      calc
        elements.filter keeps =
            (elements.take places ++ elements.drop places).filter keeps := by
              rw [List.take_append_drop]
        _ = elements.take places ++ (elements.drop places).filter keeps := by
              rw [List.filter_append, sameFront]
    rw [parts, List.take_append_of_le_length (Nat.le_of_eq fills.symm),
      List.take_take, Nat.min_self]

end

/-- The sent packets whose place among the received is taken by a packet of another key. -/
def misplaced (sent received : Trace τ) : Trace τ :=
  ((sent.zip received).filter fun pair => pair.1.key != pair.2.key).map Prod.fst

theorem mem_misplaced
    {sent received : Trace τ}
    {packet : Packet τ} :
    packet ∈ misplaced sent received ↔
      ∃ other, (packet, other) ∈ sent.zip received ∧
        packet.key ≠ other.key := by
  simp [misplaced]

/-- Behind the last place of the received packets nothing is compared. -/
theorem misplaced_take (sent received : Trace τ) :
    misplaced (sent.take received.length) received = misplaced sent received := by
  have samePairs :
      (sent.take received.length).zip received = sent.zip received := by
    rw [List.zip_eq_zip_take_min, List.take_take, List.length_take]
    conv_rhs => rw [List.zip_eq_zip_take_min]
    simp [Nat.min_comm]
  rw [misplaced, samePairs, misplaced]

/--
Leaving out sent packets with a key that no received packet has shows in the
comparison exactly if one of them has a place there.
-/
theorem misplaced_filter_eq_iff (sent received : Trace τ) :
    misplaced (sent.filter fun packet => packet.key ∈ received.map Packet.key)
          received =
        misplaced sent received ↔
      ∀ packet ∈ sent.take received.length,
        packet.key ∈ received.map Packet.key := by
  constructor
  · intro same packet member
    by_contra unknown
    obtain ⟨other, paired⟩ := exists_pair_of_mem_take member
    have differs : packet.key ≠ other.key := by
      intro sameKey
      apply unknown
      rw [sameKey]
      exact List.mem_map_of_mem (List.of_mem_zip paired).2
    have reported : packet ∈ misplaced sent received :=
      mem_misplaced.mpr ⟨other, paired, differs⟩
    -- The left side of the equation reports only packets with a known key.
    rw [← same] at reported
    obtain ⟨_, pairedAgain, _⟩ := mem_misplaced.mp reported
    have known := (List.mem_filter.mp (List.of_mem_zip pairedAgain).1).2
    exact unknown (of_decide_eq_true known)
  · intro allKnown
    have sameFront :=
      take_filter_of_front fun packet member =>
        decide_eq_true (allKnown packet member)
    rw [← misplaced_take, sameFront, misplaced_take]

/-! ## Copies -/

/-- Every packet that is left out is the only one of its sequence number. -/
def LeavesOutSingles (keeps : Packet τ → Bool) (packets : Trace τ) : Prop :=
  ∀ packet ∈ packets, keeps packet = false →
    (packets.map Packet.seq).count packet.seq = 1

namespace LeavesOutSingles

variable
  {keeps : Packet τ → Bool}
  {earlier : Trace τ}
  {packet : Packet τ}

/-- The last packet does not have the number of an earlier one that is left out. -/
theorem seq_ne
    (singles : LeavesOutSingles keeps (earlier ++ [packet]))
    {other : Packet τ}
    (member : other ∈ earlier)
    (leftOut : keeps other = false) :
    other.seq ≠ packet.seq := by
  intro sameSeq
  have once := singles other (List.mem_append_left _ member) leftOut
  have present : 1 ≤ (earlier.map Packet.seq).count packet.seq := by
    rw [← sameSeq]
    exact List.one_le_count_iff.mpr (List.mem_map_of_mem member)
  rw [sameSeq, List.map_append, List.count_append, List.map_singleton,
    List.count_singleton_self] at once
  omega

/-- If the last packet is left out, its number is not met before. -/
theorem not_met
    (singles : LeavesOutSingles keeps (earlier ++ [packet]))
    (leftOut : keeps packet = false) :
    packet.seq ∉ earlier.map Packet.seq := by
  have once :=
    singles packet (List.mem_append_right _ (List.mem_singleton_self _)) leftOut
  rw [List.map_append, List.count_append, List.map_singleton,
    List.count_singleton_self] at once
  exact List.count_eq_zero.mp (by omega)

theorem of_concat
    (singles : LeavesOutSingles keeps (earlier ++ [packet])) :
    LeavesOutSingles keeps earlier := by
  intro other member leftOut
  have once := singles other (List.mem_append_left _ member) leftOut
  have notLast : [packet.seq].count other.seq = 0 :=
    List.count_eq_zero.mpr fun isLast =>
      singles.seq_ne member leftOut (List.mem_singleton.mp isLast)
  rw [List.map_append, List.count_append, List.map_singleton, notLast] at once
  exact once

/-- Leaving out single packets does not show among the copies. -/
theorem laterCopies_eq
    {packets : Trace τ}
    (singles : LeavesOutSingles keeps packets) :
    laterCopies ∅ (packets.filter keeps) = laterCopies ∅ packets := by
  induction packets using List.reverseRecOn with
  | nil =>
      rfl
  | append_singleton earlier packet inductionHypothesis =>
      have unchanged := inductionHypothesis singles.of_concat
      rw [List.filter_append, List.filter_singleton, laterCopies_empty_concat]
      cases isKept : keeps packet with
      | false =>
          rw [cond_false, List.append_nil, unchanged,
            if_neg (singles.not_met isKept), List.append_nil]
      | true =>
          have sameTest :
              packet.seq ∈ (earlier.filter keeps).map Packet.seq ↔
                packet.seq ∈ earlier.map Packet.seq := by
            apply mem_seqs_filter_iff
            intro other member sameSeq
            by_contra notKept
            exact singles.seq_ne member (Bool.not_eq_true _ ▸ notKept) sameSeq
          rw [cond_true, laterCopies_empty_concat, unchanged]
          simp only [sameTest]

end LeavesOutSingles

/-- A packet that is left out is one packet less of its number. -/
theorem count_filter_lt
    {keeps : Packet τ → Bool}
    {packets : Trace τ}
    {packet : Packet τ}
    (member : packet ∈ packets)
    (leftOut : keeps packet = false) :
    ((packets.filter keeps).map Packet.seq).count packet.seq <
      (packets.map Packet.seq).count packet.seq := by
  have parts :
      (packets.map Packet.seq).count packet.seq =
        ((packets.filter keeps).map Packet.seq).count packet.seq +
          ((packets.filter fun packet => !keeps packet).map
            Packet.seq).count packet.seq := by
    rw [← List.count_append, ← List.map_append]
    exact ((List.filter_append_perm keeps packets).map
      Packet.seq).symm.count_eq packet.seq
  have among :
      1 ≤ ((packets.filter fun packet => !keeps packet).map
        Packet.seq).count packet.seq := by
    rw [List.one_le_count_iff]
    exact List.mem_map_of_mem
      (List.mem_filter.mpr ⟨member, by rw [leftOut]; rfl⟩)
  omega

/-- Leaving out packets shows among the copies exactly if one of them shares its number. -/
theorem laterCopies_filter_eq_iff
    (keeps : Packet τ → Bool)
    (packets : Trace τ) :
    laterCopies ∅ (packets.filter keeps) = laterCopies ∅ packets ↔
      LeavesOutSingles keeps packets := by
  constructor
  · intro same packet member leftOut
    have fewer := count_filter_lt member leftOut
    have kept := count_laterCopies packets packet.seq
    rw [← same, count_laterCopies] at kept
    omega
  · exact LeavesOutSingles.laterCopies_eq

/-! ## The reports -/

/-- What the analyses report that compare the data sent with the data received. -/
structure ComparisonReports (τ : Type) where
  outOfOrder : Trace τ
  spurious : Trace τ
  spuriousByReordering : Trace τ

/-- The reports on the data from a source. -/
def comparisonReports
    (sender receiver : Trace τ)
    (source : Address) :
    ComparisonReports τ where
  outOfOrder := Analysis.outOfOrder sender receiver source
  spurious := Analysis.spurious sender receiver source
  spuriousByReordering := Analysis.spuriousByReordering sender receiver source

/-- Two of the reports decide the third. -/
theorem comparisonReports_eq_iff
    {sender receiver otherSender otherReceiver : Trace τ}
    {source : Address} :
    comparisonReports sender receiver source =
        comparisonReports otherSender otherReceiver source ↔
      outOfOrder sender receiver source =
          outOfOrder otherSender otherReceiver source ∧
        spurious sender receiver source =
          spurious otherSender otherReceiver source := by
  rw [comparisonReports, comparisonReports, ComparisonReports.mk.injEq]
  constructor
  · rintro ⟨sameOrder, sameCopies, _⟩
    exact ⟨sameOrder, sameCopies⟩
  · rintro ⟨sameOrder, sameCopies⟩
    refine ⟨sameOrder, sameCopies, ?_⟩
    rw [spuriousByReordering_eq, spuriousByReordering_eq, sameOrder, sameCopies]

/--
When packets without payload make no difference.

Those that were sent never do.  Those that were received do not exactly if
everything taken for delivered at the places of received data has a key of
received data, and whatever else is taken for delivered is the only packet of
its sequence number that is.
-/
theorem bare_packets_unnoticed_iff
    (sender receiver : Trace τ)
    (source : Address) :
    comparisonReports sender.dataOnly receiver source =
        comparisonReports sender receiver source ∧
      (comparisonReports sender.dataOnly receiver.dataOnly source =
          comparisonReports sender receiver source ↔
        (∀ packet ∈
            (delivered sender receiver source).take
              (receivedData receiver source).length,
          packet.key ∈ dataKeys receiver source) ∧
        ∀ packet ∈ delivered sender receiver source,
          packet.key ∉ dataKeys receiver source →
            ((delivered sender receiver source).map Packet.seq).count
              packet.seq = 1) := by
  constructor
  · rw [comparisonReports_eq_iff, outOfOrder, spurious, delivered_dataOnly_sent]
    exact ⟨rfl, rfl⟩
  · rw [comparisonReports_eq_iff, outOfOrder, spurious, delivered_dataOnly_sent,
      delivered_dataOnly, receivedData_dataOnly]
    apply and_congr
    · exact misplaced_filter_eq_iff _ _
    · rw [spurious, laterCopies_filter_eq_iff, LeavesOutSingles]
      simp only [decide_eq_false_iff_not]

/-- The acknowledgment that ends a handshake has the key of the first data. -/
def handshakeAck : Packet Float :=
  { segmentOf 1 with payload := false }

/-- With the end of the handshake among the packets, a lost segment is reported out of order. -/
theorem handshakeAck_noticed :
    ¬ comparisonReports
          (Trace.dataOnly [handshakeAck, segmentOf 1, segmentOf 1447])
          (Trace.dataOnly [handshakeAck, segmentOf 1447]) (.v4 1) =
        comparisonReports [handshakeAck, segmentOf 1, segmentOf 1447]
          [handshakeAck, segmentOf 1447] (.v4 1) := by
  rw [(bare_packets_unnoticed_iff _ _ _).2]
  rintro ⟨allData, _⟩
  revert allData
  decide +kernel

end Analysis

end Retrace
