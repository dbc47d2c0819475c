import Retrace.Sender.Acknowledgment
namespace Retrace.SenderState

/-!
# Transmissions

Data above every number sent before is new.  Anything else was sent again, and
on the wire a retransmission looks like a timeout.  Two signs tell a timeout:
the sender fell back to data it had already retransmitted below its highest
retransmission, at an instant that is not an acknowledgment's; or nothing was
acknowledged for longer than the idle limit.
-/

variable {τ : Type}

/-- What speaks for and against a timeout when data is sent again. -/
structure ResendEvidence (τ : Type) where
  /-- The time since the last acknowledgment. -/
  sinceAck : τ
  previouslyRetransmitted : Bool
  /-- The sender fell back to data it had already retransmitted. -/
  regressed : Bool
  /-- The last acknowledgment lies longer ago than the idle limit. -/
  idle : Bool

/-- Either sign is enough for a timeout. -/
def ResendEvidence.isTimeout (evidence : ResendEvidence τ) : Bool :=
  evidence.regressed || evidence.idle

/-- What speaks for a timeout when data is sent again. -/
def resendEvidence
    [Timescale τ]
    (config : ReplayConfig τ)
    (state : SenderState τ)
    (packet : Packet τ) :
    ResendEvidence τ :=
  let sinceAck := Timescale.sub packet.time state.lastAckTime
  let previouslyRetransmitted := state.retransmitted.contains packet.seq
  { sinceAck
    previouslyRetransmitted
    regressed :=
      decide (packet.seq < state.highestResent) &&
        previouslyRetransmitted &&
        Timescale.farApart config.tolerance packet.time state.lastAckTime
    idle := Timescale.less config.idleLimit sinceAck }

/-- Whether a packet sends again what was sent before. -/
def isRepeated (state : SenderState τ) (packet : Packet τ) : Bool :=
  decide (packet.seq ≤ state.highestSent)

/-- Data is sent for the first time. -/
def sendNew (state : SenderState τ) (packet : Packet τ) : Outcome τ :=
  ⟨{ state with highestSent := packet.seq }, [⟨.newSend packet, state⟩]⟩

/-- A recovery begins with the retransmission of a packet. -/
def enterRecovery (state : SenderState τ) (packet : Packet τ) : SenderState τ :=
  { state with
    highestResent := packet.seq
    recoveryPoint := state.highestSent
    inRecovery := true
    recoveryNumber := state.recoveryNumber + 1 }

/-- Data is retransmitted; the first retransmission opens a recovery. -/
def retransmit (state : SenderState τ) (packet : Packet τ) : Outcome τ :=
  let opened := if state.inRecovery then state else state.enterRecovery packet
  let raised := { opened with highestResent := max opened.highestResent packet.seq }
  ⟨{ raised with
      retransmitted := raised.retransmitted.insert packet.seq raised.recoveryNumber },
    (if state.inRecovery then [] else [⟨.recoveryEntered, opened⟩]) ++
      [⟨.retransmission packet, raised⟩]⟩

/-- Data is sent again after a timeout, which ends any open recovery. -/
def timeOut (state : SenderState τ) (packet : Packet τ) : Outcome τ :=
  ⟨state.leaveRecovery,
    ⟨.timeout packet, state⟩ ::
      (if state.inRecovery then [⟨.recoveryLeft, state⟩] else [])⟩

/-- The sender transmits data. -/
def transmit
    [Timescale τ]
    (config : ReplayConfig τ)
    (state : SenderState τ)
    (packet : Packet τ) :
    Outcome τ :=
  let sent :=
    if !state.isRepeated packet then
      state.sendNew packet
    else if (state.resendEvidence config packet).isTimeout then
      state.timeOut packet
    else
      state.retransmit packet
  { sent with
    state :=
      { sent.state with
        sentTimes := sent.state.sentTimes.insert packet.seq packet.time
        lastSendTime := packet.time } }

end Retrace.SenderState
