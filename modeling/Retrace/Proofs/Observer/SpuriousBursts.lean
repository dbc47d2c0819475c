import Mathlib.Data.List.DropRight
import Mathlib.Order.Bounds.Basic
import Retrace.Observer.SpuriousBursts
import Retrace.Proofs.Sender.Run
namespace Retrace

/-!
# Bursts of spurious retransmissions

Three numbers are kept of the bursts, and each is reset on its own terms: a
genuine retransmission drops the burst it breaks off, a timeout keeps the burst
it completes if that is the longest, and what is open at the end is not compared
at all.  Read off the whole list of events, the current burst is the run of
spurious retransmissions at its end, and the longest is the greatest such run in
front of a timeout.
-/

variable {τ : Type}

/-- What a notice means for the burst of spurious retransmissions. -/
inductive BurstChange
  /-- A spurious retransmission is one more of the burst. -/
  | spurious
  /-- Another retransmission breaks the burst off. -/
  | genuine
  /-- A timeout completes the burst. -/
  | timeout
deriving DecidableEq, Repr

/-- What a notice means for the burst, the keys of the spurious retransmissions given. -/
def Notice.burstChange? (spurious : KeySet) : Notice τ → Option BurstChange
  | .retransmission packet =>
      some (if packet.key ∈ spurious then .spurious else .genuine)
  | .timeout _ => some .timeout
  | _ => none

/-- What events mean for the bursts, in order. -/
def burstChanges (spurious : KeySet) (events : List (Event τ)) : List BurstChange :=
  (events.map Event.notice).filterMap (Notice.burstChange? spurious)

namespace BurstChange

/-- The spurious retransmissions since the last timeout or genuine retransmission. -/
def openBurst (changes : List BurstChange) : Nat :=
  (changes.rtakeWhile fun change => change = .spurious).length

/-- The spurious retransmissions that were open at some timeout. -/
def completedBursts (changes : List BurstChange) : Set Nat :=
  {length | ∃ earlier, earlier ++ [.timeout] <+: changes ∧ openBurst earlier = length}

section

variable
  (changes : List BurstChange)
  (change : BurstChange)

theorem openBurst_concat :
    openBurst (changes ++ [change]) =
      if change = .spurious then openBurst changes + 1 else 0 := by
  rw [openBurst, List.rtakeWhile_concat]
  cases change <;>
    simp [openBurst]

theorem openBurst_le_count : openBurst changes ≤ changes.count .spurious := by
  induction changes using List.reverseRecOn with
  | nil =>
      exact Nat.zero_le _
  | append_singleton earlier change inductionHypothesis =>
      rw [openBurst_concat, List.count_append]
      cases change with
      | spurious =>
          simpa using inductionHypothesis
      | genuine | timeout =>
          exact Nat.zero_le _

/-- A timeout completes what is open; nothing else completes anything. -/
theorem completedBursts_concat :
    completedBursts (changes ++ [change]) =
      if change = .timeout then
        insert (openBurst changes) (completedBursts changes)
      else
        completedBursts changes := by
  ext length
  simp only [completedBursts, Set.mem_ofPred_eq, List.prefix_concat_iff,
    List.append_singleton_inj]
  split
  · next isTimeout =>
      rw [Set.mem_insert_iff]
      constructor
      · rintro ⟨earlier, ⟨rfl, _⟩ | before, rfl⟩
        · exact Or.inl rfl
        · exact Or.inr ⟨earlier, before, rfl⟩
      · rintro (rfl | ⟨earlier, before, rfl⟩)
        · exact ⟨changes, Or.inl ⟨rfl, isTimeout.symm⟩, rfl⟩
        · exact ⟨earlier, Or.inr before, rfl⟩
  · next other =>
      simp only [Ne.symm other, and_false, false_or, Set.mem_ofPred_eq]

/-- Some burst was completed exactly if there was a timeout. -/
theorem nonempty_completedBursts_iff :
    (completedBursts changes).Nonempty ↔ .timeout ∈ changes := by
  induction changes using List.reverseRecOn with
  | nil =>
      simp [completedBursts]
  | append_singleton earlier change inductionHypothesis =>
      rw [completedBursts_concat, List.mem_append, List.mem_singleton]
      split
      · next isTimeout =>
          simp [isTimeout]
      · next other =>
          simp [inductionHypothesis, Ne.symm other]

theorem le_count_of_mem_completedBursts
    {length : Nat}
    (completed : length ∈ completedBursts changes) :
    length ≤ changes.count .spurious := by
  obtain ⟨earlier, before, rfl⟩ := completed
  calc
    openBurst earlier ≤ earlier.count .spurious := openBurst_le_count earlier
    _ ≤ (earlier ++ [BurstChange.timeout]).count .spurious :=
        (List.sublist_append_left earlier _).count_le _
    _ ≤ changes.count .spurious := before.sublist.count_le _

end

end BurstChange

namespace SpuriousBursts

/-- The bursts after a change. -/
def after (bursts : SpuriousBursts) : BurstChange → SpuriousBursts
  | .spurious => bursts.retransmitted true
  | .genuine => bursts.retransmitted false
  | .timeout => bursts.timedOut

/-- The bursts after changes, from none. -/
def ofChanges (changes : List BurstChange) : SpuriousBursts :=
  changes.foldl after { current := 0, longest := 0, total := 0 }

theorem ofChanges_concat
    (changes : List BurstChange)
    (change : BurstChange) :
    ofChanges (changes ++ [change]) = (ofChanges changes).after change := by
  simp [ofChanges]

section

variable (changes : List BurstChange)

theorem total_ofChanges : (ofChanges changes).total = changes.count .spurious := by
  induction changes using List.reverseRecOn with
  | nil =>
      rfl
  | append_singleton earlier change inductionHypothesis =>
      rw [ofChanges_concat, List.count_append, ← inductionHypothesis]
      cases change <;> rfl

theorem current_ofChanges : (ofChanges changes).current = BurstChange.openBurst changes := by
  induction changes using List.reverseRecOn with
  | nil =>
      rfl
  | append_singleton earlier change inductionHypothesis =>
      rw [ofChanges_concat, BurstChange.openBurst_concat, ← inductionHypothesis]
      cases change <;> rfl

/-- The longest burst is the greatest completed one, zero standing in for none. -/
theorem isGreatest_longest :
    IsGreatest (insert 0 (BurstChange.completedBursts changes))
      (ofChanges changes).longest := by
  induction changes using List.reverseRecOn with
  | nil =>
      have noneCompleted : BurstChange.completedBursts [] = ∅ := by
        simp [BurstChange.completedBursts]
      rw [noneCompleted, insert_empty_eq]
      exact isGreatest_singleton
  | append_singleton earlier change inductionHypothesis =>
      rw [ofChanges_concat, BurstChange.completedBursts_concat]
      cases change with
      | spurious | genuine =>
          exact inductionHypothesis
      | timeout =>
          rw [if_pos rfl, Set.insert_comm, ← current_ofChanges, after, timedOut,
            Nat.max_comm]
          exact inductionHypothesis.insert _

end

/-- A burst that is broken off and a burst that stays open are not compared with the longest. -/
example :
    ofChanges
        [.spurious, .spurious, .genuine, .spurious, .timeout, .spurious, .spurious] =
      { current := 2, longest := 1, total := 5 } :=
  rfl

/--
What is measured of bursts is what the changes say.

All spurious retransmissions are counted, and apart from these the ones since
the last timeout or genuine retransmission.  The longest burst is the greatest
of those that were open at some timeout, and none without a timeout.  Neither
burst is longer than all spurious retransmissions together.
-/
structure Measures
    (changes : List BurstChange)
    (bursts : SpuriousBursts) : Prop where
  total : bursts.total = changes.count .spurious
  current : bursts.current = BurstChange.openBurst changes
  longest :
    .timeout ∈ changes →
      IsGreatest (BurstChange.completedBursts changes) bursts.longest
  noTimeout : .timeout ∉ changes → bursts.longest = 0
  currentBounded : bursts.current ≤ bursts.total
  longestBounded : bursts.longest ≤ bursts.total

theorem measures (changes : List BurstChange) : (ofChanges changes).Measures changes := by
  obtain ⟨isLongest, longestOf⟩ := isGreatest_longest changes
  constructor
  case total =>
    exact total_ofChanges changes
  case current =>
    exact current_ofChanges changes
  case longest =>
    intro timedOut
    obtain ⟨length, completed⟩ :=
      (BurstChange.nonempty_completedBursts_iff changes).mpr timedOut
    refine ⟨?_, fun other isOther => longestOf (Set.mem_insert_of_mem 0 isOther)⟩
    rcases isLongest with isZero | isCompleted
    -- If the longest is none at all, then a burst that was completed has no length.
    · have notLonger : length ≤ (ofChanges changes).longest :=
        longestOf (Set.mem_insert_of_mem 0 completed)
      rw [isZero, Nat.le_zero] at notLonger
      rwa [isZero, ← notLonger]
    · exact isCompleted
  case noTimeout =>
    intro noTimeout
    rcases isLongest with isZero | isCompleted
    · exact isZero
    · exact (noTimeout
        ((BurstChange.nonempty_completedBursts_iff changes).mp ⟨_, isCompleted⟩)).elim
  case currentBounded =>
    rw [current_ofChanges, total_ofChanges]
    exact BurstChange.openBurst_le_count changes
  case longestBounded =>
    rw [total_ofChanges]
    rcases isLongest with isZero | isCompleted
    · rw [isZero]
      exact Nat.zero_le _
    · exact BurstChange.le_count_of_mem_completedBursts changes isCompleted

end SpuriousBursts

namespace Observer

theorem observe_spuriousBursts
    (spurious : KeySet)
    (bursts : SpuriousBursts)
    (event : Event τ) :
    (spuriousBursts spurious).observe bursts event =
      (event.notice.burstChange? spurious).elim bursts bursts.after := by
  obtain ⟨notice, state⟩ := event
  cases notice with
  | retransmission packet =>
      simp only [spuriousBursts, Notice.burstChange?, Std.TreeSet.mem_iff_contains]
      cases spurious.contains packet.key <;> rfl
  | _ =>
      rfl

/-- Measuring the bursts along events is measuring them along the changes they mean. -/
theorem observeAll_spuriousBursts
    (spurious : KeySet)
    (bursts : SpuriousBursts)
    (events : List (Event τ)) :
    (spuriousBursts spurious).observeAll bursts events =
      (burstChanges spurious events).foldl SpuriousBursts.after bursts :=
  observeAll_eq_foldl _ (observe_spuriousBursts spurious) bursts events

end Observer

/--
Bursts are measured as events mean them.

Only retransmissions and timeouts mean anything for bursts: any other event can
be left out.
-/
theorem spurious_bursts_measured
    (spurious : KeySet)
    (events : List (Event τ)) :
    let observer := Observer.spuriousBursts spurious
    (observer.observeAll observer.start events).Measures (burstChanges spurious events) ∧
      ∀ (earlier later : List (Event τ)) (event : Event τ),
        events = earlier ++ event :: later →
          (∀ packet, event.notice ≠ .retransmission packet) →
            (∀ packet, event.notice ≠ .timeout packet) →
              observer.observeAll observer.start (earlier ++ later) =
                observer.observeAll observer.start events := by
  intro observer
  constructor
  · rw [Observer.observeAll_spuriousBursts]
    exact SpuriousBursts.measures (burstChanges spurious events)
  · rintro earlier later event rfl noRetransmission noTimeout
    have meansNothing : event.notice.burstChange? spurious = none := by
      obtain ⟨notice, state⟩ := event
      cases notice with
      | retransmission packet =>
          exact (noRetransmission packet rfl).elim
      | timeout packet =>
          exact (noTimeout packet rfl).elim
      | _ =>
          rfl
    have sameChanges :
        burstChanges spurious (earlier ++ later) =
          burstChanges spurious (earlier ++ event :: later) := by
      simp [burstChanges, meansNothing]
    rw [Observer.observeAll_spuriousBursts, Observer.observeAll_spuriousBursts,
      sameChanges]

end Retrace
