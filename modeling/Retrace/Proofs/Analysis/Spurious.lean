import Mathlib.Data.Finset.Card
import Mathlib.Data.List.Induction
import Retrace.Analysis.Retransmissions
namespace Retrace.Analysis

/-!
# Copies after the first

Two analyses look for copies of data: one remembers the sequence numbers it has
met, the other counts every number down.  Both let the first packet of a number
pass and keep every later one, which `notFirst` says by places, without any
memory.  What each keeps of a list with one more packet is a single equation,
and everything else here follows from these equations by induction.
-/

variable {τ : Type}

/-- The packets chosen in view of the packets before them, in order. -/
def chosenByPast
    (chooses : Trace τ → Packet τ → Prop)
    [DecidableRel chooses]
    (packets : Trace τ) :
    Trace τ :=
  (packets.zipIdx.filter fun entry =>
    chooses (packets.take entry.2) entry.1).map Prod.fst

/-- One more packet changes nothing about the choice among those before it. -/
theorem chosenByPast_concat
    (chooses : Trace τ → Packet τ → Prop)
    [DecidableRel chooses]
    (earlier : Trace τ)
    (packet : Packet τ) :
    chosenByPast chooses (earlier ++ [packet]) =
      chosenByPast chooses earlier ++
        if chooses earlier packet then [packet] else [] := by
  have samePlaces :
      earlier.zipIdx.filter
          (fun entry => chooses ((earlier ++ [packet]).take entry.2) entry.1) =
        earlier.zipIdx.filter
          (fun entry => chooses (earlier.take entry.2) entry.1) := by
    apply List.filter_congr
    rintro ⟨kept, place⟩ member
    have within : place < earlier.length :=
      List.snd_lt_of_mem_zipIdx member
    rw [List.take_append_of_le_length (Nat.le_of_lt within)]
  rw [chosenByPast, List.zipIdx_append, List.filter_append, List.map_append,
    samePlaces, ← chosenByPast]
  by_cases isChosen : chooses earlier packet
  · simp [isChosen]
  · simp [isChosen]

theorem chosenByPast_congr
    {chooses others : Trace τ → Packet τ → Prop}
    [DecidableRel chooses]
    [DecidableRel others]
    (same : ∀ earlier packet, chooses earlier packet ↔ others earlier packet)
    (packets : Trace τ) :
    chosenByPast chooses packets = chosenByPast others packets := by
  simp only [chosenByPast, same]

/-- The packets that are not the first of their sequence number, in order. -/
def notFirst (packets : Trace τ) : Trace τ :=
  chosenByPast (fun earlier packet => packet.seq ∈ earlier.map Packet.seq) packets

/-- One more packet is kept exactly when a packet before it has its number. -/
theorem notFirst_concat
    (earlier : Trace τ)
    (packet : Packet τ) :
    notFirst (earlier ++ [packet]) =
      notFirst earlier ++
        if packet.seq ∈ earlier.map Packet.seq then [packet] else [] :=
  chosenByPast_concat _ earlier packet

/-! ## The numbers met so far -/

/-- One more packet is kept exactly when its number is known or was met. -/
theorem laterCopies_concat
    (seen : Std.TreeSet Offset)
    (earlier : Trace τ)
    (packet : Packet τ) :
    laterCopies seen (earlier ++ [packet]) =
      laterCopies seen earlier ++
        if packet.seq ∈ seen ∨ packet.seq ∈ earlier.map Packet.seq then
          [packet]
        else
          [] := by
  induction earlier generalizing seen with
  | nil =>
      by_cases known : packet.seq ∈ seen
      · simp [laterCopies, known]
      · simp [laterCopies, known]
  | cons first rest inductionHypothesis =>
      rw [List.cons_append, laterCopies, laterCopies]
      by_cases known : first.seq ∈ seen
      · have sameTest :
            (packet.seq ∈ seen ∨ packet.seq ∈ rest.map Packet.seq) ↔
              (packet.seq ∈ seen ∨
                packet.seq ∈ (first :: rest).map Packet.seq) := by
          rw [List.map_cons, List.mem_cons]
          constructor
          · rintro (isKnown | isMet)
            · exact Or.inl isKnown
            · exact Or.inr (Or.inr isMet)
          · rintro (isKnown | same | isMet)
            · exact Or.inl isKnown
            · exact Or.inl (same ▸ known)
            · exact Or.inr isMet
        simp only [known, ↓reduceIte, inductionHypothesis, sameTest,
          List.cons_append]
      · have sameTest :
            (packet.seq ∈ seen.insert first.seq ∨
                packet.seq ∈ rest.map Packet.seq) ↔
              (packet.seq ∈ seen ∨
                packet.seq ∈ (first :: rest).map Packet.seq) := by
          rw [Std.TreeSet.mem_insert, Std.LawfulEqOrd.compare_eq_iff_eq,
            List.map_cons, List.mem_cons, eq_comm (a := first.seq), or_assoc,
            or_left_comm]
        simp only [known, ↓reduceIte, inductionHypothesis, sameTest]

/-- Starting with no number known, one more packet is kept exactly when its number was met. -/
theorem laterCopies_empty_concat
    (earlier : Trace τ)
    (packet : Packet τ) :
    laterCopies ∅ (earlier ++ [packet]) =
      laterCopies ∅ earlier ++
        if packet.seq ∈ earlier.map Packet.seq then [packet] else [] := by
  rw [laterCopies_concat]
  simp

/-- Remembering the numbers keeps what is not the first of its number. -/
theorem laterCopies_eq_notFirst (packets : Trace τ) :
    laterCopies ∅ packets = notFirst packets := by
  induction packets using List.reverseRecOn with
  | nil =>
      rfl
  | append_singleton earlier packet inductionHypothesis =>
      rw [laterCopies_empty_concat, notFirst_concat, inductionHypothesis]

/-- What is kept and the first packets of the numbers make up all packets. -/
theorem length_laterCopies (packets : Trace τ) :
    (laterCopies ∅ packets).length + (packets.map Packet.seq).toFinset.card =
      packets.length := by
  induction packets using List.reverseRecOn with
  | nil =>
      rfl
  | append_singleton earlier packet inductionHypothesis =>
      have numbers :
          ((earlier ++ [packet]).map Packet.seq).toFinset =
            insert packet.seq (earlier.map Packet.seq).toFinset := by
        rw [List.map_append, List.map_singleton, List.toFinset_append,
          Finset.union_comm]
        rfl
      rw [laterCopies_empty_concat, numbers, List.length_append,
        List.length_append, List.length_singleton, ← inductionHypothesis]
      by_cases again : packet.seq ∈ earlier.map Packet.seq
      · have known : packet.seq ∈ (earlier.map Packet.seq).toFinset :=
          List.mem_toFinset.mpr again
        rw [if_pos again, Finset.insert_eq_of_mem known, List.length_singleton]
        omega
      · have unknown : packet.seq ∉ (earlier.map Packet.seq).toFinset :=
          fun member => again (List.mem_toFinset.mp member)
        rw [if_neg again, Finset.card_insert_of_notMem unknown, List.length_nil]
        omega

/-- Of the packets of one number all but one are kept. -/
theorem count_laterCopies
    (packets : Trace τ)
    (seq : Offset) :
    ((laterCopies ∅ packets).map Packet.seq).count seq =
      (packets.map Packet.seq).count seq - 1 := by
  induction packets using List.reverseRecOn with
  | nil =>
      rfl
  | append_singleton earlier packet inductionHypothesis =>
      rw [laterCopies_empty_concat, List.map_append, List.map_append,
        List.count_append, List.count_append, inductionHypothesis]
      by_cases same : packet.seq = seq
      · subst same
        by_cases again : packet.seq ∈ earlier.map Packet.seq
        · have before : 1 ≤ (earlier.map Packet.seq).count packet.seq :=
            List.one_le_count_iff.mpr again
          rw [if_pos again, List.map_singleton, List.count_singleton_self]
          omega
        · have noneBefore : (earlier.map Packet.seq).count packet.seq = 0 :=
            List.count_eq_zero.mpr again
          rw [if_neg again, noneBefore]
          simp
      · have notCounted : [packet.seq].count seq = 0 :=
          List.count_eq_zero.mpr fun member =>
            same (List.mem_singleton.mp member).symm
        rw [List.map_singleton, notCounted]
        split
        · rw [List.map_singleton, notCounted]
          rfl
        · rfl

/-- A number is met among packets left over if it is met and every packet that has it is left. -/
theorem mem_seqs_filter_iff
    {keeps : Packet τ → Bool}
    {packets : Trace τ}
    {seq : Offset}
    (kept : ∀ packet ∈ packets, packet.seq = seq → keeps packet = true) :
    seq ∈ (packets.filter keeps).map Packet.seq ↔
      seq ∈ packets.map Packet.seq := by
  constructor
  · intro met
    exact (List.filter_sublist.map Packet.seq).subset met
  · intro met
    obtain ⟨packet, member, sameSeq⟩ := List.mem_map.mp met
    rw [← sameSeq]
    exact List.mem_map_of_mem
      (List.mem_filter.mpr ⟨member, kept packet member sameSeq⟩)

/-- Keeping copies and choosing packets by their number can be exchanged. -/
theorem laterCopies_filter
    (chosen : Offset → Bool)
    (packets : Trace τ) :
    laterCopies ∅ (packets.filter fun packet => chosen packet.seq) =
      (laterCopies ∅ packets).filter fun packet => chosen packet.seq := by
  induction packets using List.reverseRecOn with
  | nil =>
      rfl
  | append_singleton earlier packet inductionHypothesis =>
      rw [List.filter_append, List.filter_singleton, laterCopies_empty_concat,
        List.filter_append, ← inductionHypothesis]
      cases isChosen : chosen packet.seq with
      | false =>
          by_cases again : packet.seq ∈ earlier.map Packet.seq
          · simp [again, isChosen]
          · simp [again]
      | true =>
          have sameTest :
              packet.seq ∈
                  (earlier.filter fun packet => chosen packet.seq).map
                    Packet.seq ↔
                packet.seq ∈ earlier.map Packet.seq := by
            apply mem_seqs_filter_iff
            intro other _ sameSeq
            rw [sameSeq, isChosen]
          rw [cond_true, laterCopies_empty_concat]
          by_cases again : packet.seq ∈ earlier.map Packet.seq
          · simp [sameTest, again, isChosen]
          · simp [sameTest, again]

/-! ## The countdown -/

/-- A countdown has begun for exactly the numbers that were met. -/
structure CountsDown
    (seen : Std.TreeSet Offset)
    (remaining : Std.TreeMap Offset Nat) :
    Prop where
  /-- One more packet of a number that was met brings its countdown to zero, or leaves it there. -/
  begun : ∀ seq, seq ∈ seen → remaining.getD seq countdownStart ≤ 1
  /-- For the other numbers it stands where it starts. -/
  waiting : ∀ seq, seq ∉ seen → remaining.getD seq countdownStart = countdownStart

namespace CountsDown

variable
  {seen : Std.TreeSet Offset}
  {remaining : Std.TreeMap Offset Nat}

theorem initial : CountsDown ∅ ∅ where
  begun _ isMet := (Std.TreeSet.not_mem_emptyc isMet).elim
  waiting _ _ := Std.TreeMap.getD_emptyc

/-- A packet of a number that was met finds the countdown at zero and leaves it there. -/
theorem again
    (counts : CountsDown seen remaining)
    {seq : Offset}
    (isMet : seq ∈ seen) :
    remaining.getD seq countdownStart - 1 = 0 ∧
      CountsDown seen (remaining.insert seq 0) := by
  refine ⟨Nat.sub_eq_zero_of_le (counts.begun seq isMet), ?_, ?_⟩
  · intro other otherMet
    rw [Std.TreeMap.getD_insert]
    split
    · exact Nat.zero_le 1
    · exact counts.begun other otherMet
  · intro other notMet
    rw [Std.TreeMap.getD_insert]
    split
    · next same =>
        rw [Std.LawfulEqOrd.compare_eq_iff_eq] at same
        exact (notMet (same ▸ isMet)).elim
    · exact counts.waiting other notMet

/-- The first packet of a number begins its countdown, which does not reach zero yet. -/
theorem first
    (counts : CountsDown seen remaining)
    {seq : Offset}
    (notMet : seq ∉ seen) :
    remaining.getD seq countdownStart - 1 = 1 ∧
      CountsDown (seen.insert seq) (remaining.insert seq 1) := by
  refine ⟨by rw [counts.waiting seq notMet]; rfl, ?_, ?_⟩
  · intro other otherMet
    rw [Std.TreeMap.getD_insert]
    split
    · exact Nat.le_refl 1
    · next differs =>
        rw [Std.TreeSet.mem_insert] at otherMet
        exact counts.begun other (otherMet.resolve_left differs)
  · intro other otherNotMet
    rw [Std.TreeSet.mem_insert, not_or] at otherNotMet
    rw [Std.TreeMap.getD_insert, if_neg otherNotMet.1]
    exact counts.waiting other otherNotMet.2

end CountsDown

/-- A countdown keeps the packets that the numbers met so far keep. -/
theorem countedDown_eq_laterCopies
    {seen : Std.TreeSet Offset}
    {remaining : Std.TreeMap Offset Nat}
    (counts : CountsDown seen remaining)
    (packets : Trace τ) :
    countedDown remaining packets = laterCopies seen packets := by
  induction packets generalizing seen remaining with
  | nil =>
      rfl
  | cons packet rest inductionHypothesis =>
      rw [countedDown, laterCopies]
      by_cases isMet : packet.seq ∈ seen
      · obtain ⟨atZero, onwards⟩ := counts.again isMet
        simp only [atZero, isMet, ↓reduceIte, inductionHypothesis onwards]
      · obtain ⟨atOne, onwards⟩ := counts.first isMet
        simp only [atOne, isMet, ↓reduceIte, Nat.one_ne_zero,
          inductionHypothesis onwards]

/-- Choosing the numbers out of order before counting down is choosing them afterwards. -/
theorem spuriousByReordering_eq
    (sender receiver : Trace τ)
    (source : Address) :
    spuriousByReordering sender receiver source =
      (spurious sender receiver source).filter fun packet =>
        packet.seq ∈ (outOfOrder sender receiver source).map Packet.seq := by
  rw [spuriousByReordering, countedDown_eq_laterCopies CountsDown.initial,
    laterCopies_filter, ← spurious]
  apply List.filter_congr
  intro packet _
  rw [Std.TreeSet.contains_ofList, List.contains_eq_mem]

/--
The two analyses of spurious retransmissions agree.

One reports the delivered packets that are not the first of their sequence
number, as many as there are delivered packets more than numbers among them.
The other reports those of them whose number was out of order, and the
countdown it works with decides as the numbers met so far do.
-/
theorem spurious_analyses_agree :
    (∀ (sender receiver : Trace τ) (source : Address),
      spurious sender receiver source =
          notFirst (delivered sender receiver source) ∧
        (spurious sender receiver source).length +
            ((delivered sender receiver source).map Packet.seq).toFinset.card =
          (delivered sender receiver source).length ∧
        spuriousByReordering sender receiver source =
          (spurious sender receiver source).filter fun packet =>
            packet.seq ∈ (outOfOrder sender receiver source).map Packet.seq) ∧
    ∀ packets : Trace τ, countedDown ∅ packets = laterCopies ∅ packets := by
  constructor
  · intro sender receiver source
    exact ⟨laterCopies_eq_notFirst _, length_laterCopies _,
      spuriousByReordering_eq sender receiver source⟩
  · exact countedDown_eq_laterCopies CountsDown.initial

end Retrace.Analysis
