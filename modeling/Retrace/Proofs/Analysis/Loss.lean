import Retrace.Metric
import Retrace.Proofs.Analysis.Reordering
import Retrace.Proofs.Analysis.Reports
import Retrace.Proofs.Decimal.Whole
namespace Retrace

/-!
# Loss counted and loss listed

One way to tell what was lost subtracts two counts and looks at no packet; the
other lists the packets whose keys the receiver never saw.  Where keys tell the
packets of the source apart at both ends, and nothing arrives that was not sent,
the received keys and the listed ones together are the sent ones, so both ways
come to the same number.
-/

namespace Analysis

variable {τ : Type}

/-- The first packets of the keys not known before have each of these keys once. -/
theorem nodup_keys_firstOfKeys
    (known : KeySet)
    (packets : Trace τ) :
    ((firstOfKeys known packets).map Packet.key).Nodup := by
  induction packets generalizing known with
  | nil =>
      exact List.nodup_nil
  | cons packet rest inductionHypothesis =>
      rw [firstOfKeys]
      split
      · exact inductionHypothesis known
      · apply List.nodup_cons.mpr
        constructor
        · intro again
          have notKnown := (mem_keys_firstOfKeys.mp again).1
          exact notKnown Std.TreeSet.mem_insert_self
        · exact inductionHypothesis _

theorem mem_receivedKeys_iff_mem_keys
    {receiver : Trace τ}
    {source : Address}
    {key : PacketKey} :
    key ∈ receivedKeys receiver source ↔
      key ∈ (receiver.sentBy source).map Packet.key := by
  rw [receivedKeys, KeySet.mem_ofPackets, List.mem_map]

section

variable
  {sender receiver : Trace τ}
  {source : Address}

/-- The keys of the dropped packets and of those received are the keys of those sent. -/
theorem dropped_append_received_perm
    (sentOnce : ((sender.sentBy source).map Packet.key).Nodup)
    (receivedOnce : ((receiver.sentBy source).map Packet.key).Nodup)
    (receivedSent :
      ∀ key ∈ (receiver.sentBy source).map Packet.key,
        key ∈ (sender.sentBy source).map Packet.key) :
    ((dropped sender receiver source).map Packet.key ++
        (receiver.sentBy source).map Packet.key).Perm
      ((sender.sentBy source).map Packet.key) := by
  have apart :
      List.Disjoint
        ((dropped sender receiver source).map Packet.key)
        ((receiver.sentBy source).map Packet.key) := by
    intro key isDropped isReceived
    have notReceived := (mem_keys_firstOfKeys.mp isDropped).1
    exact notReceived (mem_receivedKeys_iff_mem_keys.mpr isReceived)
  have together :
      ((dropped sender receiver source).map Packet.key ++
        (receiver.sentBy source).map Packet.key).Nodup :=
    List.Nodup.append (nodup_keys_firstOfKeys _ _) receivedOnce apart
  apply (List.perm_ext_iff_of_nodup together sentOnce).mpr
  intro key
  rw [List.mem_append, dropped, mem_keys_firstOfKeys, mem_receivedKeys_iff_mem_keys]
  constructor
  · rintro (⟨_, isSent⟩ | isReceived)
    · exact isSent
    · exact receivedSent key isReceived
  · intro isSent
    by_cases isReceived : key ∈ (receiver.sentBy source).map Packet.key
    · exact Or.inr isReceived
    · exact Or.inl ⟨isReceived, isSent⟩

/-- What was sent was either dropped or received. -/
theorem length_sent
    (sentOnce : ((sender.sentBy source).map Packet.key).Nodup)
    (receivedOnce : ((receiver.sentBy source).map Packet.key).Nodup)
    (receivedSent :
      ∀ key ∈ (receiver.sentBy source).map Packet.key,
        key ∈ (sender.sentBy source).map Packet.key) :
    (sender.sentBy source).length =
      (dropped sender receiver source).length + (receiver.sentBy source).length := by
  have counted :=
    (dropped_append_received_perm sentOnce receivedOnce receivedSent).length_eq
  simpa only [List.length_append, List.length_map] using counted.symm

end

end Analysis

theorem Trace.countSentBy_eq
    {τ : Type}
    (trace : Trace τ)
    (source : Address) :
    trace.countSentBy source = (trace.sentBy source).length :=
  List.countP_eq_length_filter

/--
Losses are counted as they are listed.

The difference of the two counts is the number of packets in the report of those
dropped, and as a metric it is that number, as long as the counts have a float
of their own.
-/
theorem losses_counted_as_listed
    (run : FlowRun)
    (sentOnce : ((run.sender.sentBy run.flow.source).map Packet.key).Nodup)
    (receivedOnce : ((run.receiver.sentBy run.flow.source).map Packet.key).Nodup)
    (receivedSent :
      ∀ key ∈ (run.receiver.sentBy run.flow.source).map Packet.key,
        key ∈ (run.sender.sentBy run.flow.source).map Packet.key) :
    let listed := Analyzer.dropped.report run.sender run.receiver run.flow.source
    run.sentCount = listed.length + run.receivedCount ∧
      (run.sentCount < 2 ^ 53 →
        run.measure? .packetsLost = some (Float.ofNat listed.length)) := by
  intro listed
  have counted : run.sentCount = listed.length + run.receivedCount := by
    rw [FlowRun.sentCount, FlowRun.receivedCount, Trace.countSentBy_eq,
      Trace.countSentBy_eq]
    exact Analysis.length_sent sentOnce receivedOnce receivedSent
  refine ⟨counted, ?_⟩
  intro fits
  have ordered : run.receivedCount ≤ run.sentCount :=
    counted ▸ Nat.le_add_left _ _
  have difference : run.sentCount - run.receivedCount = listed.length := by
    rw [counted, Nat.add_sub_cancel]
  rw [FlowRun.measure?, Decimal.ofNat_sub ordered fits, difference]

open Analysis in
/-- Three segments are sent, and all but the second arrive. -/
def lossyRun : FlowRun where
  sender := [segmentOf 1, segmentOf 1447, segmentOf 2893]
  receiver := [segmentOf 1, segmentOf 2893]
  flow := ⟨.v4 1, .v4 2⟩
  config := ReplayConfig.standard
  unsentLimit := FlowRun.customaryUnsentLimit

/-- One packet is lost by either way of telling. -/
theorem lossyRun_lost_once :
    ((lossyRun.sender.sentBy (.v4 1)).map Packet.key).Nodup ∧
      ((lossyRun.receiver.sentBy (.v4 1)).map Packet.key).Nodup ∧
      (∀ key ∈ (lossyRun.receiver.sentBy (.v4 1)).map Packet.key,
        key ∈ (lossyRun.sender.sentBy (.v4 1)).map Packet.key) ∧
      lossyRun.sentCount = 1 + lossyRun.receivedCount ∧
      lossyRun.measure? .packetsLost = some (Float.ofNat 1) := by
  have sentOnce : ((lossyRun.sender.sentBy (.v4 1)).map Packet.key).Nodup := by
    decide
  have receivedOnce : ((lossyRun.receiver.sentBy (.v4 1)).map Packet.key).Nodup := by
    decide
  have receivedSent :
      ∀ key ∈ (lossyRun.receiver.sentBy (.v4 1)).map Packet.key,
        key ∈ (lossyRun.sender.sentBy (.v4 1)).map Packet.key := by
    decide
  have listed :
      (Analyzer.dropped.report lossyRun.sender lossyRun.receiver (.v4 1)).length = 1 := by
    decide +kernel
  obtain ⟨counted, measured⟩ :=
    losses_counted_as_listed lossyRun sentOnce receivedOnce receivedSent
  refine ⟨sentOnce, receivedOnce, receivedSent, ?_, ?_⟩
  · rw [counted]
    exact congrArg (fun lost => lost + lossyRun.receivedCount) listed
  · rw [measured (by decide)]
    exact congrArg (fun lost => some (Float.ofNat lost)) listed

end Retrace
