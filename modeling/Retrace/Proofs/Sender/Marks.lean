import Retrace.Proofs.Sender.Run
namespace Retrace

/-!
# Marks of a run

The sender's state keeps two numbers, two instants and a table that only ever
depend on the packets: the highest sequence number sent, the highest
acknowledgment number, the times of the last acknowledgment and the last send,
and when each sequence number was last sent.  Each is read off the packets here,
without the replay, and the state of every run agrees.
-/

variable {τ : Type}

/-- The packets that carry data from the source to other hosts, in order. -/
def sends (source : Address) (packets : List (Packet τ)) : List (Packet τ) :=
  packets.filter fun packet => packet.isSend source

/-- The packets that carry an acknowledgment to the source, in order. -/
def acks (source : Address) (packets : List (Packet τ)) : List (Packet τ) :=
  packets.filter fun packet => packet.isAckTo source

/-- The highest sequence number sent, zero if nothing was sent. -/
def highestSeq (source : Address) (packets : List (Packet τ)) : Offset :=
  Offset.highest ((sends source packets).map Packet.seq)

/-- The highest number acknowledged, zero if nothing was acknowledged. -/
def highestAck (source : Address) (packets : List (Packet τ)) : Offset :=
  Offset.highest ((acks source packets).map Packet.ack)

theorem highestSeq_concat
    (source : Address)
    (earlier : List (Packet τ))
    (packet : Packet τ) :
    highestSeq source (earlier ++ [packet]) =
      if packet.isSend source then
        max (highestSeq source earlier) packet.seq
      else
        highestSeq source earlier := by
  cases isSend : packet.isSend source <;>
    simp [highestSeq, sends, isSend]

/-- Later packets do not lower the highest number sent. -/
theorem highestSeq_le_append
    (source : Address)
    (earlier later : List (Packet τ)) :
    highestSeq source earlier ≤ highestSeq source (earlier ++ later) := by
  simpa only [highestSeq, sends, List.filter_append, List.map_append] using
    Offset.highest_le_append _ _

/-- The highest number sent rises exactly with a send above it. -/
theorem highestSeq_lt_concat_iff
    {source : Address}
    {earlier : List (Packet τ)}
    {packet : Packet τ} :
    highestSeq source earlier < highestSeq source (earlier ++ [packet]) ↔
      packet.isSend source = true ∧ highestSeq source earlier < packet.seq := by
  rw [highestSeq_concat]
  split
  · next isSend =>
      simp only [isSend, true_and, UInt64.lt_iff_toNat_lt, Offset.toNat_max]
      omega
  · next noSend =>
      simp [noSend]

theorem seq_le_highestSeq
    {source : Address}
    {packets : List (Packet τ)}
    {packet : Packet τ}
    (member : packet ∈ packets)
    (isSend : packet.isSend source = true) :
    packet.seq ≤ highestSeq source packets := by
  have among : packet ∈ sends source packets :=
    List.mem_filter.mpr ⟨member, isSend⟩
  exact Offset.le_highest (List.mem_map_of_mem among)

theorem highestAck_concat
    (source : Address)
    (earlier : List (Packet τ))
    (packet : Packet τ) :
    highestAck source (earlier ++ [packet]) =
      if packet.isAckTo source then
        max (highestAck source earlier) packet.ack
      else
        highestAck source earlier := by
  cases isAck : packet.isAckTo source <;>
    simp [highestAck, acks, isAck]

/-- Later packets do not lower the highest number acknowledged. -/
theorem highestAck_le_append
    (source : Address)
    (earlier later : List (Packet τ)) :
    highestAck source earlier ≤ highestAck source (earlier ++ later) := by
  simpa only [highestAck, acks, List.filter_append, List.map_append] using
    Offset.highest_le_append _ _

theorem ack_le_highestAck
    {source : Address}
    {packets : List (Packet τ)}
    {packet : Packet τ}
    (member : packet ∈ packets)
    (isAck : packet.isAckTo source = true) :
    packet.ack ≤ highestAck source packets := by
  have among : packet ∈ acks source packets :=
    List.mem_filter.mpr ⟨member, isAck⟩
  exact Offset.le_highest (List.mem_map_of_mem among)

/-- The time of the last acknowledgment, zero if there was none. -/
def lastAckTime
    [Timescale τ]
    (source : Address)
    (packets : List (Packet τ)) :
    τ :=
  ((acks source packets).getLast?.map Packet.time).getD Timescale.zero

/-- The time of the last send, zero if there was none. -/
def lastSendTime
    [Timescale τ]
    (source : Address)
    (packets : List (Packet τ)) :
    τ :=
  ((sends source packets).getLast?.map Packet.time).getD Timescale.zero

/-- When a sequence number was last sent, if it was. -/
def lastSent?
    (source : Address)
    (packets : List (Packet τ))
    (seq : Offset) :
    Option τ :=
  ((sends source packets).filter fun packet => packet.seq = seq).getLast?.map
    Packet.time

/-- The table that every send enters its time into. -/
def sentTimes (source : Address) (packets : List (Packet τ)) : Std.TreeMap Offset τ :=
  (sends source packets).foldl
    (fun times packet => times.insert packet.seq packet.time) ∅

theorem sentTimes_concat
    (source : Address)
    (earlier : List (Packet τ))
    (packet : Packet τ) :
    sentTimes source (earlier ++ [packet]) =
      if packet.isSend source then
        (sentTimes source earlier).insert packet.seq packet.time
      else
        sentTimes source earlier := by
  cases isSend : packet.isSend source <;>
    simp [sentTimes, sends, isSend]

/-- The last entry of a sequence number is the time it was last sent. -/
theorem getElem?_sentTimes
    (source : Address)
    (packets : List (Packet τ))
    (seq : Offset) :
    (sentTimes source packets)[seq]? = lastSent? source packets seq := by
  induction packets using List.reverseRecOn with
  | nil =>
      rfl
  | append_singleton earlier packet inductionHypothesis =>
      rw [sentTimes_concat]
      cases isSend : packet.isSend source with
      | false =>
          simpa [lastSent?, sends, isSend] using inductionHypothesis
      | true =>
          simp only [↓reduceIte, Std.TreeMap.getElem?_insert,
            Std.LawfulEqOrd.compare_eq_iff_eq]
          by_cases same : packet.seq = seq
          · simp [lastSent?, sends, isSend, same]
          · simpa [lastSent?, sends, isSend, same] using inductionHypothesis

/-- The sequence numbers with a time are those that were sent. -/
theorem mem_sentTimes
    (source : Address)
    (packets : List (Packet τ))
    (seq : Offset) :
    seq ∈ sentTimes source packets ↔
      ∃ packet ∈ sends source packets, packet.seq = seq := by
  rw [← Std.TreeMap.isSome_getElem?_iff_mem, getElem?_sentTimes, lastSent?]
  simp

/-! ## What sends leave in the state -/

/-- What sends leave in the state, the recoveries they are part of apart. -/
structure SendSide (τ : Type) where
  highestSent : Offset
  sentTimes : Std.TreeMap Offset τ
  lastSendTime : τ

/-- A send raises the highest number and is entered with its time. -/
def SendSide.enter (side : SendSide τ) (packet : Packet τ) : SendSide τ where
  highestSent := max side.highestSent packet.seq
  sentTimes := side.sentTimes.insert packet.seq packet.time
  lastSendTime := packet.time

def SenderState.sendSide (state : SenderState τ) : SendSide τ where
  highestSent := state.highestSent
  sentTimes := state.sentTimes
  lastSendTime := state.lastSendTime

/-- What the sends among packets leave in a state. -/
def sendSide [Timescale τ] (source : Address) (packets : List (Packet τ)) : SendSide τ where
  highestSent := highestSeq source packets
  sentTimes := sentTimes source packets
  lastSendTime := lastSendTime source packets

theorem sendSide_concat
    [Timescale τ]
    (source : Address)
    (earlier : List (Packet τ))
    (packet : Packet τ) :
    sendSide source (earlier ++ [packet]) =
      if packet.isSend source then
        (sendSide source earlier).enter packet
      else
        sendSide source earlier := by
  rw [sendSide, highestSeq_concat, sentTimes_concat]
  cases isSend : packet.isSend source <;>
    simp [sendSide, SendSide.enter, lastSendTime, sends, isSend]

namespace SenderState.Effect

variable
  [Timescale τ]
  {config : ReplayConfig τ}
  {source : Address}
  {state : SenderState τ}
  {packet : Packet τ}
  {outcome : Outcome τ}

/-- A send is entered, and no other packet touches what sends leave in the state. -/
theorem sendSide
    (effect : Effect config source state packet outcome) :
    outcome.state.sendSide =
      if packet.isSend source then
        state.sendSide.enter packet
      else
        state.sendSide := by
  rw [Packet.isSend_eq]
  cases effect with
  | passedOver noAck noSend =>
      simp [noSend]
  | duplicate acknowledges repeats =>
      simp [acknowledges, SenderState.sendSide, counted]
  | late acknowledges below =>
      simp [acknowledges, SenderState.sendSide, clearDuplicates, settle]
  | advance acknowledges above =>
      simp [acknowledges, SenderState.sendSide, clearDuplicates, settle]
  | newSend sends above =>
      simp [sends, SenderState.sendSide, SendSide.enter,
        Offset.max_eq_right (UInt64.le_of_lt above)]
  | timeout sends repeated isTimeout =>
      simp [sends, SenderState.sendSide, SendSide.enter, leaveRecovery,
        Offset.max_eq_left repeated]
  | recoveryBegun sends repeated noTimeout closed =>
      simp [sends, SenderState.sendSide, SendSide.enter, enterRecovery,
        Offset.max_eq_left repeated]
  | retransmission sends repeated noTimeout isOpen =>
      simp [sends, SenderState.sendSide, SendSide.enter, Offset.max_eq_left repeated]

theorem highestSent
    (effect : Effect config source state packet outcome) :
    outcome.state.highestSent =
      if packet.isSend source then
        max state.highestSent packet.seq
      else
        state.highestSent := by
  have entered := congrArg SendSide.highestSent effect.sendSide
  rw [apply_ite SendSide.highestSent] at entered
  exact entered

theorem highestAcked
    (effect : Effect config source state packet outcome) :
    outcome.state.highestAcked =
      if packet.isAckTo source then
        max state.highestAcked packet.ack
      else
        state.highestAcked := by
  rw [Packet.isAckTo_eq]
  cases effect with
  | passedOver noAck noSend =>
      simp [noAck]
  | duplicate acknowledges repeats =>
      simp [acknowledges, counted, repeats, Offset.max_eq_left]
  | late acknowledges below =>
      simp [acknowledges, clearDuplicates, settle,
        Offset.max_eq_left (UInt64.le_of_lt below)]
  | advance acknowledges above =>
      simp [acknowledges, Offset.max_eq_right (UInt64.le_of_lt above)]
  | newSend sends above =>
      simp [sends]
  | timeout sends repeated isTimeout =>
      simp [sends, leaveRecovery]
  | recoveryBegun sends repeated noTimeout closed =>
      simp [sends, enterRecovery]
  | retransmission sends repeated noTimeout isOpen =>
      simp [sends]

theorem lastAckTime
    (effect : Effect config source state packet outcome) :
    outcome.state.lastAckTime =
      if packet.isAckTo source then packet.time else state.lastAckTime := by
  rw [Packet.isAckTo_eq]
  cases effect with
  | passedOver noAck noSend =>
      simp [noAck]
  | duplicate acknowledges repeats =>
      simp [acknowledges]
  | late acknowledges below =>
      simp [acknowledges]
  | advance acknowledges above =>
      simp [acknowledges]
  | newSend sends above =>
      simp [sends]
  | timeout sends repeated isTimeout =>
      simp [sends, leaveRecovery]
  | recoveryBegun sends repeated noTimeout closed =>
      simp [sends, enterRecovery]
  | retransmission sends repeated noTimeout isOpen =>
      simp [sends]

end SenderState.Effect

namespace Run

variable
  [Timescale τ]
  (config : ReplayConfig τ)
  (source : Address)

/-- What sends leave in the state of a run is read off its packets. -/
theorem state_sendSide (packets : List (Packet τ)) :
    (state config source packets).sendSide = sendSide source packets := by
  induction packets using List.reverseRecOn with
  | nil =>
      rfl
  | append_singleton earlier packet inductionHypothesis =>
      rw [state_concat, sendSide_concat, ← inductionHypothesis]
      exact (next_effect config source earlier packet).sendSide

theorem state_highestSent (packets : List (Packet τ)) :
    (state config source packets).highestSent = highestSeq source packets :=
  congrArg SendSide.highestSent (state_sendSide config source packets)

theorem state_sentTimes (packets : List (Packet τ)) :
    (state config source packets).sentTimes = sentTimes source packets :=
  congrArg SendSide.sentTimes (state_sendSide config source packets)

theorem state_lastSendTime (packets : List (Packet τ)) :
    (state config source packets).lastSendTime = lastSendTime source packets :=
  congrArg SendSide.lastSendTime (state_sendSide config source packets)

theorem state_highestAcked (packets : List (Packet τ)) :
    (state config source packets).highestAcked = highestAck source packets := by
  induction packets using List.reverseRecOn with
  | nil =>
      rfl
  | append_singleton earlier packet inductionHypothesis =>
      rw [state_concat, (next_effect config source earlier packet).highestAcked,
        inductionHypothesis, highestAck_concat]

theorem state_lastAckTime (packets : List (Packet τ)) :
    (state config source packets).lastAckTime = lastAckTime source packets := by
  induction packets using List.reverseRecOn with
  | nil =>
      rfl
  | append_singleton earlier packet inductionHypothesis =>
      rw [state_concat, (next_effect config source earlier packet).lastAckTime,
        inductionHypothesis]
      cases isAck : packet.isAckTo source <;>
        simp [lastAckTime, acks, isAck]

end Run

end Retrace
