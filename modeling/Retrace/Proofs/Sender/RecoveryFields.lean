import Retrace.Proofs.Sender.OpenRecovery
namespace Retrace

/-!
# The recovery fields

What the state keeps of its recoveries, at every point of a run: what it holds
while a recovery is open and what while none is, the count of the recoveries,
and the retransmitted numbers with the recovery each is filed under.
-/

variable {τ : Type}

theorem Notice.exists_of_resent
    {notice : Notice τ}
    {seq : Offset}
    (resent : notice.resent? = some seq) :
    ∃ packet, notice = .retransmission packet := by
  cases notice with
  | retransmission packet =>
      exact ⟨packet, rfl⟩
  | _ =>
      cases resent

namespace Episodes

section

variable
  {past : List (Event τ)}

@[simp] theorem resends_markArrived
    (state : SenderState τ)
    (segments : List Offset) :
    resends (state.markArrived segments).events = [] := by
  apply List.filterMap_eq_nil_iff.mpr
  intro event member
  exact (isQuiet_of_mem_markArrived member).2

theorem mem_entries_of_open
    {entry : Event τ}
    (isOpen : openRecovery? past = some entry) :
    entry ∈ entries past := by
  rw [openRecovery?, List.findRev?_eq_find?_reverse,
    Option.filter_eq_some_iff] at isOpen
  obtain ⟨found, isEntry⟩ := isOpen
  have member : entry ∈ past :=
    List.mem_reverse.mp (List.mem_of_find?_eq_some found)
  exact List.mem_filter.mpr ⟨member, isEntry⟩

theorem WellBracketed.number_bounds
    {entry : Event τ}
    (wellBracketed : WellBracketed past)
    (member : entry ∈ entries past) :
    1 ≤ entry.state.recoveryNumber ∧
      entry.state.recoveryNumber ≤ (entries past).length := by
  have among :
      entry.state.recoveryNumber ∈ List.range' 1 (entries past).length := by
    rw [← wellBracketed.numbers]
    exact List.mem_map_of_mem member
  rw [List.mem_range'_1] at among
  omega

end

end Episodes

/-! ## What a packet does to the retransmissions -/

namespace SenderState.Effect

variable
  [Timescale τ]
  {config : ReplayConfig τ}
  {source : Address}
  {state : SenderState τ}
  {packet : Packet τ}
  {outcome : Outcome τ}

/-- A packet is not retransmitted and noted nowhere, or it is, as the last of its events. -/
theorem resends_cases
    (effect : Effect config source state packet outcome) :
    (Episodes.resends outcome.events = [] ∧
        outcome.state.retransmitted = state.retransmitted) ∨
      ∃ (front : List (Event τ)) (event : Event τ),
        outcome.events = front ++ [event] ∧
          Episodes.resends front = [] ∧
          event.notice = .retransmission packet ∧
          outcome.state.retransmitted =
            state.retransmitted.insert packet.seq event.state.recoveryNumber := by
  cases effect with
  | passedOver noAck noSend =>
      exact Or.inl ⟨rfl, rfl⟩
  | duplicate acknowledges repeats =>
      refine Or.inl ⟨?_, rfl⟩
      change Episodes.resends (_ ++ _) = []
      rw [Episodes.resends_append, Episodes.resends_markArrived]
      split <;> rfl
  | late acknowledges below =>
      refine Or.inl ⟨?_, rfl⟩
      cases state.endsRecovery packet <;> rfl
  | advance acknowledges above =>
      refine Or.inl ⟨?_, rfl⟩
      cases state.endsRecovery packet <;>
        exact Episodes.resends_markArrived _ _
  | newSend sends above =>
      exact Or.inl ⟨rfl, rfl⟩
  | timeout sends repeated isTimeout =>
      refine Or.inl ⟨?_, rfl⟩
      cases state.inRecovery <;> rfl
  | recoveryBegun sends repeated noTimeout closed =>
      exact Or.inr ⟨[_], _, rfl, rfl, rfl, rfl⟩
  | retransmission sends repeated noTimeout isOpen =>
      exact Or.inr ⟨[], _, rfl, rfl, rfl, rfl⟩

end SenderState.Effect

theorem Episodes.resends_eq (events : List (Event τ)) :
    resends events = (sendNotices events).filterMap Notice.resent? := by
  induction events with
  | nil =>
      rfl
  | cons event rest inductionHypothesis =>
      rw [resends, List.filterMap_cons, ← resends, sendNotices_cons,
        inductionHypothesis]
      cases notice : event.notice <;>
        simp [Notice.resent?, Notice.sent?, List.filterMap_cons]

namespace Run

section

variable
  [Timescale τ]
  (config : ReplayConfig τ)
  (source : Address)

/-- A packet found to be retransmitted is a send, and it is its number that was resent. -/
theorem resent_of_mem_next
    {earlier : List (Packet τ)}
    {packet : Packet τ}
    {seq : Offset}
    (resent : seq ∈ Episodes.resends (next config source earlier packet).events) :
    packet.isSend source = true ∧ packet.seq = seq := by
  rw [Episodes.resends_eq, sendNotices_next] at resent
  cases isSend : packet.isSend source with
  | false =>
      rw [isSend] at resent
      exact (List.not_mem_nil resent).elim
  | true =>
      rw [isSend, if_pos rfl, verdict] at resent
      split at resent
      · exact (List.not_mem_nil resent).elim
      · split at resent
        · exact (List.not_mem_nil resent).elim
        · exact ⟨rfl, (List.mem_singleton.mp resent).symm⟩

/-- Whatever was retransmitted was sent by a packet of the run. -/
theorem exists_send_of_resent
    {packets : List (Packet τ)}
    {seq : Offset}
    (resent : seq ∈ Episodes.resends (events config source packets)) :
    ∃ packet ∈ sends source packets, packet.seq = seq := by
  induction packets using List.reverseRecOn with
  | nil =>
      exact (List.not_mem_nil resent).elim
  | append_singleton earlier packet inductionHypothesis =>
      rw [events_concat, Episodes.resends_append] at resent
      rcases List.mem_append.mp resent with before | now
      · obtain ⟨send, among, same⟩ := inductionHypothesis before
        obtain ⟨member, isSend⟩ := List.mem_filter.mp among
        exact ⟨send,
          List.mem_filter.mpr ⟨List.mem_append_left _ member, isSend⟩, same⟩
      · obtain ⟨isSend, same⟩ := resent_of_mem_next config source now
        exact ⟨packet,
          List.mem_filter.mpr ⟨by simp, isSend⟩, same⟩

theorem resent_le_highestSent
    {packets : List (Packet τ)}
    {seq : Offset}
    (resent : seq ∈ Episodes.resends (events config source packets)) :
    seq ≤ (state config source packets).highestSent := by
  obtain ⟨packet, among, rfl⟩ := exists_send_of_resent config source resent
  rw [state_highestSent]
  exact Offset.le_highest (List.mem_map_of_mem among)

/-- A number among the retransmitted ones is filed under its last retransmission. -/
theorem exists_last_resend
    {packets : List (Packet τ)}
    {seq : Offset}
    {number : Nat}
    (filed : (state config source packets).retransmitted[seq]? = some number) :
    ∃ (past : List (Event τ)) (event : Event τ) (later : List (Event τ)),
      events config source packets = past ++ event :: later ∧
        event.notice.resent? = some seq ∧
        seq ∉ Episodes.resends later ∧
        event.state.recoveryNumber = number := by
  induction packets using List.reverseRecOn with
  | nil =>
      simp [SenderState.initial] at filed
  | append_singleton earlier packet inductionHypothesis =>
      rw [state_concat] at filed
      rw [events_concat]
      -- An older entry stays the last one unless the packet resends the same number.
      have older
          (filedBefore :
            (state config source earlier).retransmitted[seq]? = some number)
          (notNow :
            seq ∉ Episodes.resends (next config source earlier packet).events) :
          ∃ (past : List (Event τ)) (event : Event τ) (later : List (Event τ)),
            events config source earlier ++
                (next config source earlier packet).events =
              past ++ event :: later ∧
            event.notice.resent? = some seq ∧
            seq ∉ Episodes.resends later ∧
            event.state.recoveryNumber = number := by
        obtain ⟨past, event, later, shape, resent, notLater, numbered⟩ :=
          inductionHypothesis filedBefore
        refine ⟨past, event,
          later ++ (next config source earlier packet).events, ?_, resent, ?_,
          numbered⟩
        · rw [shape, List.append_assoc, List.cons_append]
        · rw [Episodes.resends_append]
          exact List.not_mem_append notLater notNow
      rcases (next_effect config source earlier packet).resends_cases with
        ⟨noneResent, same⟩ | ⟨front, event, shape, frontQuiet, resent, filing⟩
      · apply older
        · rw [← filed, same]
        · rw [noneResent]
          exact List.not_mem_nil
      · rw [filing, Std.TreeMap.getElem?_insert] at filed
        split at filed
        · next isSame =>
            have numberIs : packet.seq = seq :=
              Std.LawfulEqOrd.compare_eq_iff_eq.mp isSame
            refine ⟨events config source earlier ++ front, event, [], ?_, ?_,
              List.not_mem_nil, Option.some.inj filed⟩
            · rw [shape, List.append_assoc]
            · rw [resent, ← numberIs]
              rfl
        · next differs =>
            apply older filed
            intro resentNow
            obtain ⟨_, numberIs⟩ := resent_of_mem_next config source resentNow
            exact differs (Std.LawfulEqOrd.compare_eq_iff_eq.mpr numberIs)

theorem fields_of_closed
    {packets : List (Packet τ)}
    (closed : (state config source packets).inRecovery = false) :
    (state config source packets).highestResent = 0 ∧
      (state config source packets).recoveryPoint = 0 := by
  have remembered := remembers config source packets
  have noneOpen := remembered.closed_iff.mp closed
  constructor
  · rw [remembered.highestResent, Episodes.openResends, noneOpen]
    rfl
  · rw [remembered.recoveryPoint, noneOpen]
    rfl

theorem inRecovery_of_regressed
    {earlier : List (Packet τ)}
    {packet : Packet τ}
    (regressed :
      ((state config source earlier).resendEvidence config packet).regressed = true) :
    (state config source earlier).inRecovery = true := by
  by_contra notOpen
  have closed := Bool.eq_false_iff.mpr notOpen
  have noneResent := (fields_of_closed config source closed).1
  simp [SenderState.resendEvidence, noneResent] at regressed

/-- A packet found to follow a timeout gives evidence of one. -/
theorem isTimeout_of_told
    {earlier : List (Packet τ)}
    {packet : Packet τ}
    (told : .timeout packet ∈ notices config source earlier packet) :
    ((state config source earlier).resendEvidence config packet).isTimeout = true := by
  have among :
      .timeout packet ∈ sendNotices (next config source earlier packet).events :=
    List.mem_filter.mpr ⟨told, rfl⟩
  rw [(next_effect config source earlier packet).sendNotices_eq] at among
  split at among
  · split at among
    · cases List.mem_singleton.mp among
    · split at among
      · next isTimeout =>
          exact isTimeout
      · cases List.mem_singleton.mp among
  · exact (List.not_mem_nil among).elim

/--
Runs keep the recovery fields of their state.

While no recovery is open the recovery point and the highest retransmission are
zero.  While one is open, the point is the highest number sent when it began,
the highest retransmission is the highest one since, and neither lies above the
highest number sent by now.  The recoveries begun are counted.  Retransmitted
numbers were sent, do not lie above the highest number sent, and are filed under
the recovery of their last retransmission.  So a timeout while no recovery is
open always comes of idleness; only in an open recovery can the sender fall back.
-/
structure KeepsRecoveryFields : Prop where
  closed :
    ∀ packets : List (Packet τ),
      (state config source packets).inRecovery = false →
        (state config source packets).highestResent = 0 ∧
          (state config source packets).recoveryPoint = 0
  opened :
    ∀ packets : List (Packet τ),
      (state config source packets).inRecovery = true →
        ∃ (earlier : List (Packet τ)) (packet : Packet τ) (later : List (Packet τ)),
          OpenSince config source packets earlier packet later ∧
            (state config source packets).recoveryPoint =
              (state config source earlier).highestSent ∧
            (state config source packets).highestResent ∈
              Episodes.resends
                ((state config source earlier).history config source
                  (packet :: later)) ∧
            ∀ seq ∈
              Episodes.resends
                ((state config source earlier).history config source
                  (packet :: later)),
              seq ≤ (state config source packets).highestResent
  bounded :
    ∀ packets : List (Packet τ),
      (state config source packets).recoveryPoint ≤
          (state config source packets).highestSent ∧
        (state config source packets).highestResent ≤
          (state config source packets).highestSent
  recoveryNumber :
    ∀ packets : List (Packet τ),
      (state config source packets).recoveryNumber =
        (Episodes.entries (events config source packets)).length
  resent :
    ∀ (packets : List (Packet τ)) (seq : Offset),
      seq ∈ (state config source packets).retransmitted ↔
        seq ∈ Episodes.resends (events config source packets)
  sent :
    ∀ (packets : List (Packet τ)),
      ∀ seq ∈ (state config source packets).retransmitted,
        (∃ packet ∈ sends source packets, packet.seq = seq) ∧
          seq ≤ (state config source packets).highestSent
  filed :
    ∀ (packets : List (Packet τ)) (seq : Offset) (number : Nat),
      (state config source packets).retransmitted[seq]? = some number →
        1 ≤ number ∧
          number ≤ (state config source packets).recoveryNumber ∧
          ∃ (past : List (Event τ)) (event : Event τ) (later : List (Event τ))
            (entry : Event τ),
            events config source packets = past ++ event :: later ∧
              event.notice.resent? = some seq ∧
              seq ∉ Episodes.resends later ∧
              Episodes.openRecovery? past = some entry ∧
              entry.state.recoveryNumber = number
  idle :
    ∀ (earlier : List (Packet τ)) (packet : Packet τ),
      .timeout packet ∈ notices config source earlier packet →
      (state config source earlier).inRecovery = false →
        Timescale.less config.idleLimit
          (Timescale.sub packet.time
            (state config source earlier).lastAckTime) = true
  regressed :
    ∀ (earlier : List (Packet τ)) (packet : Packet τ),
      ((state config source earlier).resendEvidence config packet).regressed = true →
        (state config source earlier).inRecovery = true

/-- Every run keeps the recovery fields of its state. -/
theorem recovery_fields_kept : KeepsRecoveryFields config source := by
  constructor
  case closed =>
    intro packets closed
    exact fields_of_closed config source closed
  case opened =>
    intro packets isOpen
    obtain ⟨earlier, packet, later, since⟩ := exists_openSince config source isOpen
    refine ⟨earlier, packet, later, since, since.recoveryPoint, ?_, ?_⟩
    · rw [since.highestResent]
      exact Offset.highest_mem since.resends_ne_nil
    · intro seq resent
      rw [since.highestResent]
      exact Offset.le_highest resent
  case bounded =>
    intro packets
    cases isOpen : (state config source packets).inRecovery with
    | false =>
        obtain ⟨noneResent, noPoint⟩ := fields_of_closed config source isOpen
        rw [noneResent, noPoint]
        exact ⟨UInt64.zero_le, UInt64.zero_le⟩
    | true =>
        obtain ⟨earlier, packet, later, since⟩ := exists_openSince config source isOpen
        refine ⟨since.recoveryPoint_le, ?_⟩
        apply resent_le_highestSent
        apply since.mem_resends_of_since
        rw [since.highestResent]
        exact Offset.highest_mem since.resends_ne_nil
  case recoveryNumber =>
    intro packets
    exact (remembers config source packets).recoveryNumber
  case resent =>
    intro packets seq
    exact (remembers config source packets).retransmitted seq
  case sent =>
    intro packets seq member
    have resent := ((remembers config source packets).retransmitted seq).mp member
    exact ⟨exists_send_of_resent config source resent,
      resent_le_highestSent config source resent⟩
  case filed =>
    intro packets seq number filed
    have remembered := remembers config source packets
    obtain ⟨past, event, later, shape, resent, notLater, numbered⟩ :=
      exists_last_resend config source filed
    obtain ⟨packet, isResend⟩ := Notice.exists_of_resent resent
    have wellBracketed := remembered.wellBracketed
    rw [shape] at wellBracketed
    obtain ⟨entry, isOpen, sameNumber⟩ := wellBracketed.resent_number isResend
    have among :
        entry ∈ Episodes.entries (events config source packets) := by
      rw [shape, Episodes.entries, List.filter_append]
      exact List.mem_append_left _ (Episodes.mem_entries_of_open isOpen)
    have bounds := remembered.wellBracketed.number_bounds among
    rw [← remembered.recoveryNumber, ← sameNumber, numbered] at bounds
    exact ⟨bounds.1, bounds.2, past, event, later, entry, shape, resent, notLater,
      isOpen, by rw [← sameNumber, numbered]⟩
  case idle =>
    intro earlier packet told closed
    have isTimeout := isTimeout_of_told config source told
    rw [SenderState.ResendEvidence.isTimeout, Bool.or_eq_true] at isTimeout
    rcases isTimeout with regressed | idle
    · have isOpen := inRecovery_of_regressed config source regressed
      rw [closed] at isOpen
      cases isOpen
    · exact idle
  case regressed =>
    intro earlier packet regressed
    exact inRecovery_of_regressed config source regressed

end

end Run

end Retrace
