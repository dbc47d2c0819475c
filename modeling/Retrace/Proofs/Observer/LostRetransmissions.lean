import Mathlib.Data.List.DropRight
import Mathlib.Data.List.Nodup
import Mathlib.Data.List.Perm.Subperm
import Retrace.Observer.LostRetransmissions
import Retrace.Proofs.Sender.Classification
namespace Retrace

/-!
# Retransmissions matched with timeouts

The observer keeps one packet for each sequence number and gives it up at the
next timeout of the number.  Which retransmission that is can be told without
any memory: the last one of the number since the timeout before.  A timeout
stands between a retransmission that it showed to be lost and every later
timeout of the number, so no retransmission is lost twice.
-/

variable {τ : Type}

/-- Whether a notice says that a sequence number timed out. -/
def Notice.timesOut (seq : Offset) : Notice τ → Bool
  | .timeout packet => packet.seq == seq
  | _ => false

/-- A retransmission, told from others of the same packet by its place among notices. -/
structure Resend (τ : Type) where
  packet : Packet τ
  place : Nat
deriving DecidableEq

namespace Resend

/-- The retransmission of a sequence number that a notice reports, its place given. -/
def ofNotice? (seq : Offset) : Notice τ × Nat → Option (Resend τ)
  | (.retransmission packet, place) =>
      if packet.seq = seq then some { packet, place } else none
  | _ => none

/-- The last retransmission of a sequence number since its last timeout, if there was one. -/
def latest? (seq : Offset) (notices : List (Notice τ)) : Option (Resend τ) :=
  let sinceTimeout := notices.zipIdx.rtakeWhile fun entry => !entry.1.timesOut seq
  (sinceTimeout.filterMap (ofNotice? seq)).getLast?

/-- The retransmission that a notice shows to be lost: what is open when its number times out. -/
def lostBy? (earlier : List (Notice τ)) : Notice τ → Option (Resend τ)
  | .timeout packet => latest? packet.seq earlier
  | _ => none

/-- The retransmissions shown to be lost, in the order of the timeouts that show it. -/
def lost (notices : List (Notice τ)) : List (Resend τ) :=
  notices.zipIdx.filterMap fun entry => lostBy? (notices.take entry.2) entry.1

section

variable
  (seq : Offset)
  (earlier : List (Notice τ))
  (notice : Notice τ)

/-- A timeout leaves nothing open, and a retransmission is open before what was. -/
theorem latest?_concat :
    latest? seq (earlier ++ [notice]) =
      if notice.timesOut seq then
        none
      else
        (ofNotice? seq (notice, earlier.length)).or (latest? seq earlier) := by
  rw [latest?, List.zipIdx_append, List.zipIdx_singleton, List.rtakeWhile_concat, Nat.zero_add]
  cases timesOut : notice.timesOut seq with
  | true =>
      simp
  | false =>
      cases found : ofNotice? seq (notice, earlier.length) <;>
        simp [found, latest?]

theorem lost_concat :
    lost (earlier ++ [notice]) = lost earlier ++ (lostBy? earlier notice).toList := by
  have samePast :
      earlier.zipIdx.filterMap
          (fun entry => lostBy? ((earlier ++ [notice]).take entry.2) entry.1) =
        lost earlier := by
    apply List.filterMap_congr
    rintro ⟨reported, place⟩ member
    have within : place < earlier.length :=
      List.snd_lt_of_mem_zipIdx member
    rw [List.take_append_of_le_length (Nat.le_of_lt within)]
  rw [lost, List.zipIdx_append, List.filterMap_append, samePast]
  cases found : lostBy? earlier notice <;>
    simp [found]

end

/-! ## What is open -/

/-- A retransmission of a sequence number that no timeout of the number has followed. -/
structure IsOpen
    (seq : Offset)
    (notices : List (Notice τ))
    (resend : Resend τ) : Prop where
  number : resend.packet.seq = seq
  split :
    ∃ before after,
      notices = before ++ .retransmission resend.packet :: after ∧
        before.length = resend.place ∧
        ∀ notice ∈ after, notice.timesOut seq = false

namespace IsOpen

variable
  {seq : Offset}
  {notices : List (Notice τ)}
  {resend : Resend τ}

theorem concat
    {notice : Notice τ}
    (isOpen : IsOpen seq notices resend)
    (noTimeout : notice.timesOut seq = false) :
    IsOpen seq (notices ++ [notice]) resend := by
  obtain ⟨number, before, after, rfl, place, noneSince⟩ := isOpen
  refine ⟨number, before, after ++ [notice], by simp, place, ?_⟩
  simpa [or_imp, forall_and, noTimeout] using noneSince

theorem getElem?_place
    (isOpen : IsOpen seq notices resend) :
    notices[resend.place]? = some (.retransmission resend.packet) := by
  obtain ⟨_, before, after, rfl, place, _⟩ := isOpen
  simp [← place]

/-- Behind the place of an open retransmission its number does not time out. -/
theorem timesOut_eq_false
    {notice : Notice τ}
    {later : Nat}
    (isOpen : IsOpen seq notices resend)
    (behind : resend.place < later)
    (reported : notices[later]? = some notice) :
    notice.timesOut seq = false := by
  obtain ⟨_, before, after, rfl, place, noneSince⟩ := isOpen
  apply noneSince
  rw [← place] at behind
  rw [List.getElem?_append_right (Nat.le_of_lt behind), List.getElem?_cons,
    if_neg (by omega)] at reported
  exact List.mem_of_getElem? reported

end IsOpen

theorem isOpen_of_latest?
    {seq : Offset}
    {notices : List (Notice τ)}
    {resend : Resend τ}
    (isLatest : latest? seq notices = some resend) :
    IsOpen seq notices resend := by
  induction notices using List.reverseRecOn with
  | nil =>
      cases isLatest
  | append_singleton earlier notice inductionHypothesis =>
      rw [latest?_concat] at isLatest
      cases timesOut : notice.timesOut seq with
      | true =>
          simp [timesOut] at isLatest
      | false =>
          rw [timesOut, if_neg Bool.false_ne_true, Option.or_eq_some_iff] at isLatest
          rcases isLatest with isNow | ⟨_, isBefore⟩
          · cases notice with
            | retransmission packet =>
                simp only [ofNotice?, Option.ite_none_right_eq_some, Option.some.injEq] at isNow
                obtain ⟨number, rfl⟩ := isNow
                exact ⟨number, earlier, [], rfl, rfl, by simp⟩
            | _ =>
                cases isNow
          · exact (inductionHypothesis isBefore).concat timesOut

/-! ## What is lost -/

/-- A retransmission whose number timed out at a later place. -/
structure IsFollowed
    (notices : List (Notice τ))
    (resend : Resend τ) : Prop where
  resent : notices[resend.place]? = some (.retransmission resend.packet)
  timedOut :
    ∃ later notice,
      resend.place < later ∧
        notices[later]? = some notice ∧
        notice.timesOut resend.packet.seq = true

theorem isFollowed_of_mem_lost
    {notices : List (Notice τ)}
    {resend : Resend τ}
    (isLost : resend ∈ lost notices) :
    IsFollowed notices resend := by
  obtain ⟨⟨notice, later⟩, member, found⟩ := List.mem_filterMap.mp isLost
  cases notice with
  | timeout packet =>
      have isOpen := isOpen_of_latest? found
      have resent := isOpen.getElem?_place
      have before : resend.place < later := by
        have within := (List.getElem?_eq_some_iff.mp resent).1
        rw [List.length_take] at within
        omega
      rw [List.getElem?_take_of_lt before] at resent
      refine ⟨resent, later, .timeout packet, before, ?_, ?_⟩
      · exact List.mem_zipIdx_iff_getElem?.mp member
      · rw [isOpen.number]
        exact beq_self_eq_true packet.seq
  | _ =>
      cases found

/-- What a notice shows to be lost was not shown to be lost before. -/
theorem place_ne_of_mem_lost
    {earlier : List (Notice τ)}
    {notice : Notice τ}
    {known resend : Resend τ}
    (isKnown : known ∈ lost earlier)
    (found : lostBy? earlier notice = some resend) :
    known.place ≠ resend.place := by
  intro samePlace
  obtain ⟨resent, later, timeout, behind, reported, timedOut⟩ :=
    isFollowed_of_mem_lost isKnown
  cases notice with
  | timeout packet =>
      have isOpen := isOpen_of_latest? found
      have samePacket : known.packet = resend.packet := by
        have resentAlso := isOpen.getElem?_place
        rw [← samePlace, resent] at resentAlso
        simpa using resentAlso
      -- The timeout that showed it lost is one since the retransmission, so it is not open.
      have noTimeout := isOpen.timesOut_eq_false (samePlace ▸ behind) reported
      rw [samePacket, isOpen.number, noTimeout] at timedOut
      cases timedOut
  | _ =>
      cases found

theorem nodup_lost (notices : List (Notice τ)) :
    ((lost notices).map Resend.place).Nodup := by
  induction notices using List.reverseRecOn with
  | nil =>
      exact List.nodup_nil
  | append_singleton earlier notice inductionHypothesis =>
      rw [lost_concat]
      cases found : lostBy? earlier notice with
      | none =>
          simpa using inductionHypothesis
      | some resend =>
          rw [Option.toList_some, List.map_append, List.map_singleton,
            ← List.concat_eq_append, List.nodup_concat]
          refine ⟨?_, inductionHypothesis⟩
          intro isKnown
          obtain ⟨known, isLost, samePlace⟩ := List.mem_map.mp isKnown
          exact place_ne_of_mem_lost isLost found samePlace

/-- Every timeout shows one retransmission at most to be lost. -/
theorem length_lost_le_timeouts (notices : List (Notice τ)) :
    (lost notices).length ≤
      notices.countP fun notice => notice.sendKind? = some .timedOut := by
  induction notices using List.reverseRecOn with
  | nil =>
      exact Nat.le_refl _
  | append_singleton earlier notice inductionHypothesis =>
      rw [lost_concat, List.length_append, List.countP_append]
      refine Nat.add_le_add inductionHypothesis ?_
      cases notice with
      | timeout packet =>
          exact Option.length_toList_le
      | _ =>
          exact Nat.zero_le _

/-- As many retransmissions are lost as there are places of these, or fewer. -/
theorem length_lost_le_retransmissions (notices : List (Notice τ)) :
    (lost notices).length ≤
      notices.countP fun notice => notice.sendKind? = some .retransmitted := by
  have arePlaces :
      (lost notices).map Resend.place ⊆
        notices.findIdxs fun notice => notice.sendKind? = some .retransmitted := by
    intro place isPlace
    obtain ⟨resend, isLost, rfl⟩ := List.mem_map.mp isPlace
    obtain ⟨within, resent⟩ :=
      List.getElem?_eq_some_iff.mp (isFollowed_of_mem_lost isLost).resent
    rw [List.mem_findIdxs_iff_exists_getElem_pos]
    refine ⟨within, ?_⟩
    rw [resent]
    rfl
  rw [← List.length_findIdxs, ← List.length_map Resend.place]
  exact ((nodup_lost notices).subperm arePlaces).length_le

end Resend

/-! ## What the observer finds -/

namespace LostRetransmissions

section

variable
  (found : LostRetransmissions τ)
  (packet : Packet τ)
  (seq other : Offset)

theorem getElem?_pending_retransmitted :
    (found.retransmitted packet).pending[seq]? =
      if packet.seq = seq then some packet else found.pending[seq]? := by
  simp [retransmitted, Std.TreeMap.getElem?_insert]

/-- After a timeout nothing is pending of its number. -/
theorem getElem?_pending_timedOut :
    (found.timedOut seq).pending[other]? =
      if seq = other then none else found.pending[other]? := by
  rw [timedOut]
  cases pending : found.pending[seq]? with
  | none =>
      by_cases same : seq = other
      · rw [if_pos same, ← same]
        exact pending
      · rw [if_neg same]
  | some packet =>
      simp [Std.TreeMap.getElem?_erase]

/-- A timeout finds lost what is pending of its number. -/
theorem toList_lost_timedOut :
    (found.timedOut seq).lost.toList =
      found.lost.toList ++ found.pending[seq]?.toList := by
  rw [timedOut]
  cases found.pending[seq]? <;>
    simp

end

/-- What the observer has found after notices is what they say. -/
structure Tells
    (notices : List (Notice τ))
    (found : LostRetransmissions τ) : Prop where
  pending :
    ∀ seq : Offset,
      found.pending[seq]? = (Resend.latest? seq notices).map Resend.packet
  lost : found.lost.toList = (Resend.lost notices).map Resend.packet

theorem Tells.concat
    {earlier : List (Notice τ)}
    {found : LostRetransmissions τ}
    (tells : Tells earlier found)
    (event : Event τ) :
    Tells (earlier ++ [event.notice])
      (Observer.lostRetransmissions.observe found event) := by
  obtain ⟨pending, lost⟩ := tells
  obtain ⟨notice, state⟩ := event
  cases notice with
  | retransmission packet =>
      constructor
      case pending =>
        intro seq
        rw [Resend.latest?_concat]
        refine (getElem?_pending_retransmitted found packet seq).trans ?_
        by_cases same : packet.seq = seq <;>
          simp [same, pending, Notice.timesOut, Resend.ofNotice?]
      case lost =>
        simpa [Observer.lostRetransmissions, retransmitted, Resend.lost_concat,
          Resend.lostBy?] using lost
  | timeout packet =>
      constructor
      case pending =>
        intro seq
        rw [Resend.latest?_concat]
        refine (getElem?_pending_timedOut found packet.seq seq).trans ?_
        by_cases same : packet.seq = seq <;>
          simp [same, pending, Notice.timesOut, Resend.ofNotice?]
      case lost =>
        rw [Resend.lost_concat, List.map_append, ← lost]
        refine (toList_lost_timedOut found packet.seq).trans ?_
        rw [pending, Option.toList_map]
        rfl
  | _ =>
      constructor
      case pending =>
        intro seq
        simpa [Observer.lostRetransmissions, Resend.latest?_concat, Notice.timesOut,
          Resend.ofNotice?] using pending seq
      case lost =>
        simpa [Observer.lostRetransmissions, Resend.lost_concat, Resend.lostBy?] using lost

theorem tells (events : List (Event τ)) :
    Tells (events.map Event.notice)
      (Observer.lostRetransmissions.observeAll Observer.lostRetransmissions.start events) := by
  induction events using List.reverseRecOn with
  | nil =>
      exact ⟨fun _ => rfl, rfl⟩
  | append_singleton earlier event inductionHypothesis =>
      rw [List.map_append, Observer.observeAll, List.foldl_append]
      exact inductionHypothesis.concat event

/--
The retransmissions found lost are matched with timeouts.

Each timeout, in order, finds one packet lost if its number was retransmitted
since the timeout before: that of the last such retransmission.  Every packet
found lost stands for a retransmission before its timeout, and no two stand for
the same one, so there are no more of them than timeouts or retransmissions.
-/
structure MatchesTimeouts
    (events : List (Event τ))
    (found : LostRetransmissions τ) : Prop where
  lost :
    found.lost.toList =
      (Resend.lost (events.map Event.notice)).map Resend.packet
  followed :
    ∀ resend ∈ Resend.lost (events.map Event.notice),
      Resend.IsFollowed (events.map Event.notice) resend
  once : ((Resend.lost (events.map Event.notice)).map Resend.place).Nodup
  withinTimeouts : found.lost.size ≤ countSends .timedOut events
  withinRetransmissions : found.lost.size ≤ countSends .retransmitted events

end LostRetransmissions

/-- Whatever events report, the retransmissions found lost are matched with timeouts. -/
theorem lost_retransmissions_matched (events : List (Event τ)) :
    (Observer.lostRetransmissions.observeAll Observer.lostRetransmissions.start
      events).MatchesTimeouts events := by
  have lost := (LostRetransmissions.tells events).lost
  have asManyLost := congrArg List.length lost
  rw [Array.length_toList, List.length_map] at asManyLost
  have counted (kind : SendKind) :
      (events.map Event.notice).countP (fun notice => notice.sendKind? = some kind) =
        countSends kind events := by
    simp [countSends, List.countP_map, Function.comp_def]
  constructor
  case lost =>
    exact lost
  case followed =>
    intro resend isLost
    exact Resend.isFollowed_of_mem_lost isLost
  case once =>
    exact Resend.nodup_lost _
  case withinTimeouts =>
    rw [asManyLost, ← counted]
    exact Resend.length_lost_le_timeouts _
  case withinRetransmissions =>
    rw [asManyLost, ← counted]
    exact Resend.length_lost_le_retransmissions _

end Retrace
