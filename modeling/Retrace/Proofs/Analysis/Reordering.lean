import Mathlib.Data.List.Forall2
import Mathlib.Data.List.Perm.Basic
import Retrace.Analysis.Delivery
namespace Retrace.Analysis

/-!
# Reordering found by places

What was sent and delivered is paired with what was received, place by place.
As far as their keys tell packets apart the delivered ones are those received in
another order, so that the pairing finds a difference exactly when the orders
differ; and then it finds at least two, because the keys on both sides of the
differing pairs are the same ones.
-/

/-! ## Pairs that differ -/

section

variable {α : Type} [DecidableEq α]

/-- The pairs of two lists, place by place, whose sides differ. -/
def differing (first second : List α) : List (α × α) :=
  (first.zip second).filter fun pair => pair.1 != pair.2

/-- Lists of one length are the same exactly when no pair differs. -/
theorem differing_eq_nil_iff
    {first second : List α}
    (sameLength : first.length = second.length) :
    differing first second = [] ↔ first = second := by
  rw [differing, List.filter_eq_nil_iff, ← List.forall₂_eq_eq_eq,
    List.forall₂_iff_zip]
  simp [sameLength]

/-- In a list in another order, the differing pairs hold the same elements on both sides. -/
theorem differing_perm
    {first second : List α}
    (reordered : first.Perm second) :
    ((differing first second).map Prod.fst).Perm
      ((differing first second).map Prod.snd) := by
  let agreeing :=
    (first.zip second).filter fun pair => !(pair.1 != pair.2)
  have parts :
      (differing first second ++ agreeing).Perm (first.zip second) :=
    List.filter_append_perm _ _
  have firsts :
      ((differing first second).map Prod.fst ++ agreeing.map Prod.fst).Perm
        first := by
    rw [← List.map_append]
    exact (parts.map Prod.fst).trans
      (.of_eq (List.map_fst_zip (Nat.le_of_eq reordered.length_eq)))
  have seconds :
      ((differing first second).map Prod.snd ++ agreeing.map Prod.snd).Perm
        second := by
    rw [← List.map_append]
    exact (parts.map Prod.snd).trans
      (.of_eq (List.map_snd_zip (Nat.le_of_eq reordered.length_eq.symm)))
  have sameSides : agreeing.map Prod.fst = agreeing.map Prod.snd := by
    apply List.map_congr_left
    intro pair member
    simpa using (List.mem_filter.mp member).2
  -- The agreeing pairs hold the same elements on both sides, so they cancel.
  rw [sameSides] at firsts
  exact (List.perm_append_right_iff _).mp
    (firsts.trans (reordered.trans seconds.symm))

/-- A list in another order differs from it at no place or at several. -/
theorem length_differing_ne_one
    {first second : List α}
    (reordered : first.Perm second) :
    (differing first second).length ≠ 1 := by
  intro single
  obtain ⟨pair, shape⟩ := List.length_eq_one_iff.mp single
  have sameElements := differing_perm reordered
  rw [shape, List.map_singleton, List.map_singleton, List.perm_singleton,
    List.singleton_inj] at sameElements
  have member : pair ∈ differing first second := by
    rw [shape]
    exact List.mem_singleton_self pair
  have differs : pair.1 ≠ pair.2 := by
    simpa using (List.mem_filter.mp member).2
  exact differs sameElements

/-- Of distinct elements, those that were received are the received ones in another order. -/
theorem filter_mem_perm
    {sent received : List α}
    (sentOnce : sent.Nodup)
    (receivedOnce : received.Nodup)
    (among : ∀ element ∈ received, element ∈ sent) :
    (sent.filter fun element => element ∈ received).Perm received := by
  rw [List.perm_ext_iff_of_nodup (sentOnce.filter _) receivedOnce]
  intro element
  rw [List.mem_filter, decide_eq_true_iff]
  exact ⟨And.right, fun member => ⟨among element member, member⟩⟩

/-- They are received in the order they were sent in exactly if they are a sublist. -/
theorem filter_mem_eq_iff_sublist
    {sent received : List α}
    (sentOnce : sent.Nodup)
    (receivedOnce : received.Nodup)
    (among : ∀ element ∈ received, element ∈ sent) :
    (sent.filter fun element => element ∈ received) = received ↔
      received.Sublist sent := by
  constructor
  · intro same
    rw [← same]
    exact List.filter_sublist
  · intro sublist
    have allReceived :
        (received.filter fun element => element ∈ received) = received :=
      List.filter_eq_self.mpr fun element member => decide_eq_true member
    have within := sublist.filter fun element => decide (element ∈ received)
    rw [allReceived] at within
    exact (within.eq_of_length
      (filter_mem_perm sentOnce receivedOnce among).length_eq.symm).symm

end

/-! ## Keys of data -/

variable {τ : Type}

/-- The keys of the data packets from a source, in the order of the trace. -/
def dataKeys (trace : Trace τ) (source : Address) : List PacketKey :=
  (receivedData trace source).map Packet.key

/-- A key is one of data exactly when a packet with payload from the source has it. -/
theorem mem_dataKeys
    {trace : Trace τ}
    {source : Address}
    {key : PacketKey} :
    key ∈ dataKeys trace source ↔
      ∃ packet ∈ trace, packet.src = source ∧ packet.payload = true ∧ packet.key = key := by
  simp [dataKeys, mem_receivedData, and_assoc]

section

variable
  (sender receiver : Trace τ)
  (source : Address)

/-- What was delivered are the data packets sent whose key was received. -/
theorem delivered_eq :
    delivered sender receiver source =
      (receivedData sender source).filter fun packet =>
        packet.key ∈ receivedKeys receiver source := by
  rw [delivered, receivedData, List.filter_filter]
  apply List.filter_congr
  intro packet _
  simp only [← Std.TreeSet.contains_iff_mem, Bool.decide_eq_true]
  exact Bool.and_comm _ _

/-- The keys of data are received keys. -/
theorem mem_receivedKeys_of_mem_dataKeys
    {receiver : Trace τ}
    {source : Address}
    {key : PacketKey}
    (member : key ∈ dataKeys receiver source) :
    key ∈ receivedKeys receiver source := by
  obtain ⟨packet, isReceived, fromSource, _, sameKey⟩ := mem_dataKeys.mp member
  exact mem_receivedKeys.mpr ⟨packet, isReceived, fromSource, sameKey⟩

/-- The packets out of order have the sent keys of the pairs that differ. -/
theorem outOfOrder_keys :
    (outOfOrder sender receiver source).map Packet.key =
      (differing ((delivered sender receiver source).map Packet.key)
        (dataKeys receiver source)).map Prod.fst := by
  rw [outOfOrder, differing, dataKeys, List.zip_map, List.filter_map,
    List.map_map, List.map_map]
  rfl

theorem length_outOfOrder :
    (outOfOrder sender receiver source).length =
      (differing ((delivered sender receiver source).map Packet.key)
        (dataKeys receiver source)).length := by
  rw [← List.length_map Packet.key, outOfOrder_keys, List.length_map]

end

section

variable
  {sender receiver : Trace τ}
  {source : Address}

/-- Where only data has the keys of sent data, delivered is what has a key of received data. -/
theorem delivered_keys
    (bareApart :
      ∀ packet ∈ receiver, packet.src = source → packet.payload = false →
        packet.key ∉ dataKeys sender source) :
    (delivered sender receiver source).map Packet.key =
      (dataKeys sender source).filter fun key =>
        key ∈ dataKeys receiver source := by
  change _ = ((receivedData sender source).map Packet.key).filter _
  rw [delivered_eq, List.filter_map]
  congr 1
  apply List.filter_congr
  intro packet isSent
  have sentKey : packet.key ∈ dataKeys sender source :=
    List.mem_map_of_mem isSent
  rw [Function.comp_apply, decide_eq_decide]
  constructor
  · intro isReceived
    obtain ⟨other, member, fromSource, sameKey⟩ := mem_receivedKeys.mp isReceived
    cases hasPayload : other.payload with
    | false =>
        rw [← sameKey] at sentKey
        exact (bareApart other member fromSource hasPayload sentKey).elim
    | true => exact mem_dataKeys.mpr ⟨other, member, fromSource, hasPayload, sameKey⟩
  · exact mem_receivedKeys_of_mem_dataKeys

/--
Where keys tell packets apart, reordering is found exactly.

Nothing is reported exactly when the data came in the order it was sent in, some
of it perhaps lost; and never is a single packet reported.
-/
theorem outOfOrder_exact
    (sentOnce : (dataKeys sender source).Nodup)
    (receivedOnce : (dataKeys receiver source).Nodup)
    (among :
      ∀ key ∈ dataKeys receiver source, key ∈ dataKeys sender source)
    (bareApart :
      ∀ packet ∈ receiver, packet.src = source → packet.payload = false →
        packet.key ∉ dataKeys sender source) :
    (outOfOrder sender receiver source = [] ↔
        (dataKeys receiver source).Sublist (dataKeys sender source)) ∧
      (outOfOrder sender receiver source).length ≠ 1 := by
  have reordered :=
    filter_mem_perm sentOnce receivedOnce among
  have keys :=
    delivered_keys bareApart
  constructor
  · rw [← List.length_eq_zero_iff, length_outOfOrder, keys,
      List.length_eq_zero_iff, differing_eq_nil_iff reordered.length_eq,
      filter_mem_eq_iff_sublist sentOnce receivedOnce among]
  · rw [length_outOfOrder, keys]
    exact length_differing_ne_one reordered

end

/-- A data segment with a sequence number. -/
def segmentOf (seq : Offset) : Packet Float :=
  Flow.sample.segment seq 0.0

/-- Four segments in the order they were sent. -/
def fourSegments : Trace Float :=
  [segmentOf 1, segmentOf 1447, segmentOf 2893, segmentOf 4339]

/-- The last of the four overtook the second, and the third was lost; then came no more data. -/
def overtakenSegments : Trace Float :=
  [segmentOf 1, segmentOf 4339, segmentOf 1447,
    { segmentOf 5785 with payload := false }]

/--
Among segments with keys of their own a loss goes unreported and an overtaking does not:
reported are the segment that overtook the other and the one that was overtaken.
-/
theorem overtakenSegments_outOfOrder :
    (dataKeys fourSegments (.v4 1)).Nodup ∧
    (dataKeys overtakenSegments (.v4 1)).Nodup ∧
    (∀ key ∈ dataKeys overtakenSegments (.v4 1),
      key ∈ dataKeys fourSegments (.v4 1)) ∧
    (∀ packet ∈ overtakenSegments, packet.src = .v4 1 → packet.payload = false →
      packet.key ∉ dataKeys fourSegments (.v4 1)) ∧
    (outOfOrder fourSegments overtakenSegments (.v4 1) = [] ↔
      (dataKeys overtakenSegments (.v4 1)).Sublist
        (dataKeys fourSegments (.v4 1))) ∧
    (outOfOrder fourSegments overtakenSegments (.v4 1)).length ≠ 1 ∧
    outOfOrder fourSegments overtakenSegments (.v4 1) = [segmentOf 1447, segmentOf 4339] := by
  have sentOnce : (dataKeys fourSegments (.v4 1)).Nodup := by
    decide
  have receivedOnce : (dataKeys overtakenSegments (.v4 1)).Nodup := by
    decide
  have among :
      ∀ key ∈ dataKeys overtakenSegments (.v4 1),
        key ∈ dataKeys fourSegments (.v4 1) := by
    decide
  have bareApart :
      ∀ packet ∈ overtakenSegments, packet.src = .v4 1 → packet.payload = false →
        packet.key ∉ dataKeys fourSegments (.v4 1) := by
    decide
  obtain ⟨inOrder, notSingle⟩ :=
    outOfOrder_exact sentOnce receivedOnce among bareApart
  exact ⟨sentOnce, receivedOnce, among, bareApart, inOrder, notSingle, by decide +kernel⟩

end Retrace.Analysis
