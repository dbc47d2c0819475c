import Retrace.Proofs.Analysis.Loss
namespace Retrace.Analysis

/-!
# Dropped packets

The report of the dropped packets remembers the keys it has reported, and starts
as if all received keys were among them.  Seen without that memory it is a
choice by the past: a packet is reported when its key was not received and no
earlier packet from the source has it.  So the report has one packet for each
lost key, and what carries data is either delivered or has its key in the
report.
-/

variable {τ : Type}

/-- One more packet is kept exactly when its key is neither known nor that of an earlier one. -/
theorem firstOfKeys_concat
    (known : KeySet)
    (earlier : Trace τ)
    (packet : Packet τ) :
    firstOfKeys known (earlier ++ [packet]) =
      firstOfKeys known earlier ++
        if packet.key ∉ known ∧ packet.key ∉ earlier.map Packet.key then
          [packet]
        else
          [] := by
  induction earlier generalizing known with
  | nil =>
      by_cases isKnown : packet.key ∈ known
      · simp [firstOfKeys, isKnown]
      · simp [firstOfKeys, isKnown]
  | cons first rest inductionHypothesis =>
      rw [List.cons_append, firstOfKeys, firstOfKeys]
      by_cases isKnown : first.key ∈ known
      · have sameTest :
            (packet.key ∉ known ∧ packet.key ∉ rest.map Packet.key) ↔
              (packet.key ∉ known ∧
                packet.key ∉ (first :: rest).map Packet.key) := by
          apply and_congr_right
          intro unknown
          have other : packet.key ≠ first.key :=
            fun same => unknown (same ▸ isKnown)
          simp [other]
        simp only [isKnown, ↓reduceIte, inductionHypothesis, sameTest]
      · have sameTest :
            (packet.key ∉ known.insert first.key ∧
                packet.key ∉ rest.map Packet.key) ↔
              (packet.key ∉ known ∧
                packet.key ∉ (first :: rest).map Packet.key) := by
          rw [Std.TreeSet.mem_insert, Std.LawfulEqOrd.compare_eq_iff_eq,
            List.map_cons, List.mem_cons, eq_comm (a := first.key), not_or, not_or,
            and_left_comm, and_assoc]
        simp only [isKnown, ↓reduceIte, inductionHypothesis, sameTest,
          List.cons_append]

/-- A packet from the source, the first of its key there, with a key not received from there. -/
def IsFirstLost
    (receiver : Trace τ)
    (source : Address)
    (earlier : Trace τ)
    (packet : Packet τ) :
    Prop :=
  packet.src = source ∧
    packet.key ∉ (receiver.sentBy source).map Packet.key ∧
    packet.key ∉ (earlier.sentBy source).map Packet.key

instance (receiver : Trace τ) (source : Address) :
    DecidableRel (IsFirstLost receiver source) :=
  fun _ _ => inferInstanceAs (Decidable (_ ∧ _ ∧ _))

section

variable
  (sender receiver : Trace τ)
  (source : Address)

/-- The dropped packets are the first of the lost keys among the packets sent. -/
theorem dropped_eq_chosenByPast :
    dropped sender receiver source =
      chosenByPast (IsFirstLost receiver source) sender := by
  rw [dropped]
  induction sender using List.reverseRecOn with
  | nil =>
      rfl
  | append_singleton earlier packet inductionHypothesis =>
      rw [chosenByPast_concat, ← inductionHypothesis, Trace.sentBy, List.filter_append,
        List.filter_singleton]
      by_cases fromSource : packet.src = source
      · have sameTest :
            (packet.key ∉ receivedKeys receiver source ∧
                packet.key ∉ (Trace.sentBy earlier source).map Packet.key) ↔
              IsFirstLost receiver source earlier packet := by
          rw [mem_receivedKeys_iff_mem_keys, IsFirstLost, and_iff_right fromSource]
        rw [decide_eq_true fromSource, cond_true, ← Trace.sentBy, firstOfKeys_concat]
        simp only [sameTest]
      · have notFirst : ¬ IsFirstLost receiver source earlier packet :=
          fun isFirst => fromSource isFirst.1
        rw [decide_eq_false fromSource, cond_false, List.append_nil, if_neg notFirst,
          List.append_nil, Trace.sentBy]

/-- The keys of the dropped packets are those sent from the source and not received from there. -/
theorem mem_keys_dropped_iff (key : PacketKey) :
    key ∈ (dropped sender receiver source).map Packet.key ↔
      key ∈ (sender.sentBy source).map Packet.key ∧
        key ∉ (receiver.sentBy source).map Packet.key := by
  rw [dropped, mem_keys_firstOfKeys, mem_receivedKeys_iff_mem_keys, and_comm]

/--
The report of the dropped packets is the difference of the keys.

No key stands in it twice, and its keys are those sent and not received.  It has
the first packet of each, in sending order.  A data packet that was sent is
delivered exactly if its key is not in the report.
-/
theorem dropped_is_key_difference :
    ((dropped sender receiver source).map Packet.key).Nodup ∧
      (∀ key,
        key ∈ (dropped sender receiver source).map Packet.key ↔
          key ∈ (sender.sentBy source).map Packet.key ∧
            key ∉ (receiver.sentBy source).map Packet.key) ∧
      dropped sender receiver source =
        chosenByPast (IsFirstLost receiver source) sender ∧
      ∀ packet ∈ sender.sentBy source,
        packet.payload = true →
        (packet ∈ delivered sender receiver source ↔
          packet.key ∉ (dropped sender receiver source).map Packet.key) := by
  refine ⟨nodup_keys_firstOfKeys _ _, mem_keys_dropped_iff sender receiver source,
    dropped_eq_chosenByPast sender receiver source, ?_⟩
  intro packet wasSent carriesData
  have keySent : packet.key ∈ (sender.sentBy source).map Packet.key :=
    List.mem_map_of_mem wasSent
  rw [mem_keys_dropped_iff, and_iff_right keySent, not_not, delivered, List.mem_filter,
    and_iff_right wasSent, carriesData, Bool.true_and, Std.TreeSet.contains_iff_mem,
    mem_receivedKeys_iff_mem_keys]

end

/-- The end of a handshake, then three segments, the second in three copies with two keys. -/
def retriedSegments : Trace Float :=
  [{ segmentOf 1 with payload := false }, segmentOf 1, segmentOf 1447, segmentOf 2893,
    { segmentOf 1447 with time := 0.25 },
    { segmentOf 1447 with
      options := { timestamp := some ⟨2, 1⟩ }
      time := 0.5 }]

/-- Of two copies lost the first is reported, and the third copy is delivered. -/
theorem retriedSegments_dropped :
    let received := [segmentOf 1, segmentOf 2893, retriedSegments[5]]
    dropped retriedSegments received (.v4 1) = [segmentOf 1447] ∧
      retriedSegments[4] ∉ delivered retriedSegments received (.v4 1) ∧
      retriedSegments[5] ∈ delivered retriedSegments received (.v4 1) := by
  intro received
  have report : dropped retriedSegments received (.v4 1) = [segmentOf 1447] := by
    rfl
  have fromSource : ∀ packet ∈ retriedSegments, packet.src = .v4 1 := by
    decide
  have wasSent : ∀ packet ∈ retriedSegments, packet ∈ retriedSegments.sentBy (.v4 1) :=
    fun packet member => Trace.mem_sentBy.mpr ⟨member, fromSource packet member⟩
  obtain ⟨_, _, _, complement⟩ :=
    dropped_is_key_difference retriedSegments received (.v4 1)
  rw [report] at complement
  constructor
  · exact report
  constructor
  · intro isDelivered
    exact (complement _ (wasSent _ (List.getElem_mem _)) rfl).mp isDelivered (by decide)
  · exact (complement _ (wasSent _ (List.getElem_mem _)) rfl).mpr (by decide)

end Retrace.Analysis
