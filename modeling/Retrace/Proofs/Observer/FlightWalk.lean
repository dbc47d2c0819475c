import Mathlib.Data.List.Chain
import Mathlib.Order.Bounds.Image
import Retrace.Proofs.Observer.InFlight
namespace Retrace

/-!
# The number in flight as a reflected walk

A departure is a step up and an acknowledgment a step down, but from zero
nothing goes down.  So the number is not the surplus of departures over
acknowledgments: it forgets whatever was acknowledged in excess.  It is the
greatest surplus that any suffix of the changes has, the empty one included,
because a further change moves all these surpluses alike and adds the zero of
a new empty suffix.
-/

variable {τ : Type}

namespace FlightChange

/-- By how much a change moves a number that may fall below zero. -/
def rise : FlightChange τ → Int
  | .departure _ => 1
  | .acknowledgment _ => -1

/-- How many more departures than acknowledgments there are. -/
def surplus (changes : List (FlightChange τ)) : Int :=
  (changes.filterMap departed?).length - (changes.filterMap acknowledged?).length

/-- The surpluses of the suffixes of changes, the empty suffix included. -/
def suffixSurpluses (changes : List (FlightChange τ)) : Set Int :=
  surplus '' {suffix | suffix <:+ changes}

/-- The number after changes from none in flight. -/
def countOf (changes : List (FlightChange τ)) : Nat :=
  changes.foldl countAfter 0

section

variable
  (changes : List (FlightChange τ))
  (change : FlightChange τ)

/-- The number moves by the change, but not below zero. -/
theorem countAfter_eq_max (count : Nat) :
    (change.countAfter count : Int) = max 0 (count + change.rise) := by
  cases change <;>
    simp only [countAfter, rise] <;>
    omega

theorem countOf_concat :
    countOf (changes ++ [change]) = change.countAfter (countOf changes) := by
  simp [countOf]

theorem surplus_concat :
    surplus (changes ++ [change]) = surplus changes + change.rise := by
  rw [surplus, surplus, List.filterMap_append, List.filterMap_append,
    List.length_append, List.length_append]
  cases change <;>
    simp only [List.filterMap_cons, List.filterMap_nil, List.length_cons, List.length_nil,
      departed?, acknowledged?, rise] <;>
    omega

/-- A further change moves every surplus, and there is an empty suffix again. -/
theorem suffixSurpluses_concat :
    suffixSurpluses (changes ++ [change]) =
      insert 0 ((· + change.rise) '' suffixSurpluses changes) := by
  ext number
  simp only [suffixSurpluses, Set.mem_image, Set.mem_ofPred_eq, Set.mem_insert_iff,
    List.suffix_concat_iff]
  constructor
  · rintro ⟨suffix, rfl | ⟨rest, rfl, isSuffix⟩, rfl⟩
    · exact Or.inl rfl
    · exact Or.inr ⟨surplus rest, ⟨rest, isSuffix, rfl⟩, (surplus_concat rest change).symm⟩
  · rintro (rfl | ⟨_, ⟨rest, isSuffix, rfl⟩, rfl⟩)
    · exact ⟨[], Or.inl rfl, rfl⟩
    · exact ⟨rest ++ [change], Or.inr ⟨rest, rfl, isSuffix⟩, surplus_concat rest change⟩

/-- The number is the greatest surplus of a suffix. -/
theorem isGreatest_countOf :
    IsGreatest (suffixSurpluses changes) (countOf changes : Int) := by
  induction changes using List.reverseRecOn with
  | nil =>
      have onlyEmpty : suffixSurpluses ([] : List (FlightChange τ)) = {0} := by
        simp [suffixSurpluses, surplus]
      rw [onlyEmpty]
      exact isGreatest_singleton
  | append_singleton earlier change inductionHypothesis =>
      have moved : Monotone (· + change.rise) :=
        fun _ _ notAbove => Int.add_le_add_right notAbove _
      rw [suffixSurpluses_concat, countOf_concat, countAfter_eq_max]
      exact (moved.map_isGreatest inductionHypothesis).insert 0

end

/-- What is acknowledged while none is in flight is not made up for by a later departure. -/
example (packet : Packet τ) :
    let changes :=
      [.departure packet, .acknowledgment packet, .acknowledgment packet, .departure packet]
    countOf changes = 1 ∧ surplus changes = 0 :=
  ⟨rfl, rfl⟩

/-! ## The samples -/

theorem getElem?_samples
    (count : Nat)
    (changes : List (FlightChange τ))
    (place : Nat) :
    (samples count changes)[place]? =
      changes[place]?.map fun change =>
        (change.packet.time, (changes.take (place + 1)).foldl countAfter count) := by
  induction changes generalizing count place with
  | nil =>
      rfl
  | cons change rest inductionHypothesis =>
      cases place with
      | zero =>
          rfl
      | succ place =>
          exact inductionHypothesis (change.countAfter count) place

/-- From one sample to the next the number changes by one at most, also from the first number. -/
theorem isChain_counts
    (count : Nat)
    (changes : List (FlightChange τ)) :
    (count :: (samples count changes).map Prod.snd).IsChain
      fun earlier later => earlier ≤ later + 1 ∧ later ≤ earlier + 1 := by
  induction changes generalizing count with
  | nil =>
      exact List.IsChain.singleton count
  | cons change rest inductionHypothesis =>
      rw [samples, List.map_cons, List.isChain_cons_cons]
      refine ⟨?_, inductionHypothesis (change.countAfter count)⟩
      cases change <;>
        simp only [countAfter] <;>
        omega

/-- The last sample has the number after all changes. -/
theorem getLast?_samples
    (count : Nat)
    (changes : List (FlightChange τ)) :
    ((samples count changes).getLast?.map Prod.snd).getD count =
      changes.foldl countAfter count := by
  induction changes generalizing count with
  | nil =>
      rfl
  | cons change rest inductionHypothesis =>
      rw [samples, List.foldl_cons, ← inductionHypothesis, List.getLast?_cons]
      cases (samples (change.countAfter count) rest).getLast? <;> rfl

end FlightChange

namespace InFlight

theorem count_foldl_after
    (flight : InFlight τ)
    (changes : List (FlightChange τ)) :
    (changes.foldl after flight).count =
      changes.foldl FlightChange.countAfter flight.count := by
  induction changes generalizing flight with
  | nil =>
      rfl
  | cons change rest inductionHypothesis =>
      exact inductionHypothesis (flight.after change)

/--
The number in flight follows changes as a reflected walk.

Every change is sampled, in order and at the time of its packet.  The number
sampled is the greatest surplus of a suffix of the changes so far, from one
sample to the next it moves by one at most, and the number now is the one
sampled last.
-/
structure FollowsWalk
    (changes : List (FlightChange τ))
    (flight : InFlight τ) : Prop where
  eachOnce : flight.samples.size = changes.length
  sampled :
    ∀ (place : Nat) (change : FlightChange τ),
      changes[place]? = some change →
        ∃ count : Nat,
          flight.samples[place]? = some (change.packet.time, count) ∧
            IsGreatest
              (FlightChange.suffixSurpluses (changes.take (place + 1)))
              (count : Int)
  byOneAtMost :
    (flight.samples.toList.map Prod.snd).IsChain
      fun earlier later => earlier ≤ later + 1 ∧ later ≤ earlier + 1
  last : flight.count = (flight.samples.back?.map Prod.snd).getD 0

end InFlight

/-- Whatever events report, the number in flight follows the changes as a reflected walk. -/
theorem flight_follows_walk
    (lost : KeySet)
    (events : List (Event τ)) :
    InFlight.FollowsWalk
      (flightChanges lost events)
      ((Observer.inFlight lost).observeAll (Observer.inFlight lost).start events) := by
  have sampled :=
    InFlight.toList_samples_foldl_after (Observer.inFlight lost).start
      (flightChanges lost events)
  have counted :=
    InFlight.count_foldl_after (Observer.inFlight lost).start (flightChanges lost events)
  rw [← Observer.observeAll_inFlight] at sampled counted
  generalize (Observer.inFlight lost).observeAll _ events = flight at *
  change flight.samples.toList = [] ++ FlightChange.samples 0 _ at sampled
  rw [List.nil_append] at sampled
  constructor
  case eachOnce =>
    rw [← Array.length_toList, sampled, FlightChange.length_samples]
  case sampled =>
    intro place change isChange
    refine ⟨FlightChange.countOf ((flightChanges lost events).take (place + 1)), ?_,
      FlightChange.isGreatest_countOf _⟩
    rw [← Array.getElem?_toList, sampled, FlightChange.getElem?_samples, isChange]
    rfl
  case byOneAtMost =>
    rw [sampled]
    exact (FlightChange.isChain_counts 0 _).tail
  case last =>
    rw [counted, ← Array.getLast?_toList, sampled, FlightChange.getLast?_samples]
    rfl

end Retrace
