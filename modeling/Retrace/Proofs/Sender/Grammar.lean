import Retrace.Proofs.Segments
import Retrace.Proofs.Sender.Marks
namespace Retrace

/-!
# The grammar of events

A packet gives rise to a block of events, and the blocks of a run follow each
other as the packets do.  `Block` says which shapes a block has and on which
packets; `InBlocks` strings blocks together, one for each packet.  The events of
every run are such a string.
-/

variable {τ : Type}

/--
What one packet reports, after packets that acknowledged a highest number.

A sublist of a single notice holds that notice at most once.
-/
inductive Block
    (source : Address)
    (highest : Offset)
    (packet : Packet τ) :
    List (Notice τ) → Prop
  | silent
      (noAck : packet.isAckTo source = false)
      (noSend : packet.isSend source = false) :
      Block source highest packet []
  | duplicate
      {segments : List Offset}
      {changes : List (Notice τ)}
      (isAck : packet.isAckTo source = true)
      (repeats : packet.ack = highest)
      (ascending : segments.Pairwise (· < ·))
      (atMostOne : changes.Sublist [.sackChange packet.sackRanges]) :
      Block source highest packet
        (.duplicateAck packet ::
          (segments.map Notice.scoreboardAdd ++ changes))
  | ack
      {segments : List Offset}
      {ends : List (Notice τ)}
      (isAck : packet.isAckTo source = true)
      (differs : packet.ack ≠ highest)
      (atMostOne : ends.Sublist [.recoveryLeft])
      (ascending : segments.Pairwise (· < ·))
      (lateAddsNone : packet.ack < highest → segments = []) :
      Block source highest packet
        (.ack packet ::
          (ends ++ .duplicatesCleared ::
            segments.map Notice.scoreboardAdd))
  | newSend
      (isSend : packet.isSend source = true) :
      Block source highest packet [.newSend packet]
  | retransmission
      {begins : List (Notice τ)}
      (isSend : packet.isSend source = true)
      (atMostOne : begins.Sublist [.recoveryEntered]) :
      Block source highest packet (begins ++ [.retransmission packet])
  | timeout
      {ends : List (Notice τ)}
      (isSend : packet.isSend source = true)
      (atMostOne : ends.Sublist [.recoveryLeft]) :
      Block source highest packet (.timeout packet :: ends)

/-- Events that are one block for each packet, in order, every block at the time of its packet. -/
inductive InBlocks (source : Address) :
    List (Packet τ) → List (Event τ) → Prop
  | nil :
      InBlocks source [] []
  | concat
      {earlier : List (Packet τ)}
      {packet : Packet τ}
      {past block : List (Event τ)}
      (before : InBlocks source earlier past)
      (form :
        Block source (highestAck source earlier) packet
          (block.map Event.notice))
      (timed : ∀ event ∈ block, event.state.time = packet.time) :
      InBlocks source (earlier ++ [packet]) (past ++ block)

theorem ite_notices_sublist
    {condition : Prop}
    [Decidable condition]
    (event : Event τ) :
    ((if condition then [event] else []).map Event.notice).Sublist
      [event.notice] := by
  split
  · exact List.Sublist.refl _
  · exact List.nil_sublist _

namespace SenderState.Effect

variable
  [Timescale τ]
  {config : ReplayConfig τ}
  {source : Address}
  {state : SenderState τ}
  {packet : Packet τ}
  {outcome : Outcome τ}

theorem block
    (effect : Effect config source state packet outcome) :
    Block source state.highestAcked packet
      (outcome.events.map Event.notice) := by
  cases effect with
  | passedOver noAck noSend =>
      apply Block.silent
      · rw [Packet.isAckTo_eq, decide_eq_false noAck]
      · rw [Packet.isSend_eq, decide_eq_false noSend]
  | duplicate acknowledges repeats =>
      have ascending :=
        (Sack.coveredSegments_ascending packet.sackRanges
          config.segmentSize).sublist (unmarked_sublist state.scoreboard _)
      rw [List.map_cons, List.map_append, markArrived_notices]
      apply Block.duplicate (Packet.isAckTo_of_concern acknowledges) repeats ascending
      split
      · exact List.nil_sublist _
      · exact List.Sublist.refl _
  | late acknowledges below =>
      rw [List.map_cons, List.map_append]
      have noneAdded : ([] : List Offset).Pairwise (· < ·) :=
        List.Pairwise.nil
      exact Block.ack (Packet.isAckTo_of_concern acknowledges)
        (UInt64.ne_of_lt below) (ite_notices_sublist ⟨.recoveryLeft, state⟩)
        noneAdded (fun _ => rfl)
  | advance acknowledges above =>
      have ascending :=
        (passedSegments_ascending config.segmentSize state.highestAcked
          packet.ack).sublist (unmarked_sublist state.scoreboard _)
      rw [List.map_cons, List.map_append, List.map_cons, markArrived_notices]
      apply Block.ack (Packet.isAckTo_of_concern acknowledges)
        (UInt64.ne_of_lt above).symm
        (ite_notices_sublist ⟨.recoveryLeft, state⟩) ascending
      intro below
      exact (UInt64.not_lt.mpr (UInt64.le_of_lt above) below).elim
  | newSend sends above =>
      exact Block.newSend (Packet.isSend_of_concern sends)
  | timeout sends repeated isTimeout =>
      exact Block.timeout (Packet.isSend_of_concern sends)
        (ite_notices_sublist ⟨.recoveryLeft, state⟩)
  | recoveryBegun sends repeated noTimeout closed =>
      exact Block.retransmission (Packet.isSend_of_concern sends)
        (List.Sublist.refl [Notice.recoveryEntered])
  | retransmission sends repeated noTimeout isOpen =>
      exact Block.retransmission (Packet.isSend_of_concern sends)
        (List.nil_sublist _)

/-- Every event of a packet sees the clock as the packet set it. -/
theorem time
    (effect : Effect config source state packet outcome) :
    ∀ event ∈ outcome.events, event.state.time = state.time := by
  cases effect with
  | passedOver noAck noSend =>
      exact List.forall_mem_nil _
  | duplicate acknowledges repeats =>
      refine List.forall_mem_cons.mpr
        ⟨rfl, List.forall_mem_append.mpr ⟨time_of_mem_markArrived, ?_⟩⟩
      split <;> simp [counted]
  | late acknowledges below =>
      cases state.endsRecovery packet <;>
        simp [settle]
  | advance acknowledges above =>
      refine List.forall_mem_cons.mpr
        ⟨rfl, List.forall_mem_append.mpr ⟨?_, ?_⟩⟩
      · split <;> simp
      · exact List.forall_mem_cons.mpr ⟨rfl, time_of_mem_markArrived⟩
  | newSend sends above =>
      exact List.forall_mem_singleton.mpr rfl
  | timeout sends repeated isTimeout =>
      cases state.inRecovery <;>
        simp
  | recoveryBegun sends repeated noTimeout closed =>
      simp [enterRecovery]
  | retransmission sends repeated noTimeout isOpen =>
      simp

end SenderState.Effect

section

variable
  [Timescale τ]
  (config : ReplayConfig τ)
  (source : Address)

theorem Run.next_block
    (earlier : List (Packet τ))
    (packet : Packet τ) :
    Block source (highestAck source earlier) packet
      (Run.notices config source earlier packet) := by
  rw [← Run.state_highestAcked config]
  exact (Run.next_effect config source earlier packet).block

/--
The events of every run are in blocks, one for each packet.

Whoever observes a replay observes them in this order.
-/
theorem run_events_in_blocks :
    (∀ {σ : Type} (observer : Observer τ σ) (packets : List (Packet τ)),
      observeReplay config source observer packets =
        observer.observeAll observer.start
          (Run.events config source packets)) ∧
    ∀ packets : List (Packet τ),
      InBlocks source packets (Run.events config source packets) := by
  constructor
  · intro σ observer packets
    rw [observeReplay, Run.replay_eq]
  · intro packets
    induction packets using List.reverseRecOn with
    | nil =>
        exact InBlocks.nil
    | append_singleton earlier packet inductionHypothesis =>
        rw [Run.events_concat]
        exact InBlocks.concat inductionHypothesis
          (Run.next_block config source earlier packet)
          (Run.next_effect config source earlier packet).time

end

end Retrace
