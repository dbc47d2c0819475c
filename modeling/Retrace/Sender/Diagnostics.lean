import Retrace.Address.Text
import Retrace.Decimal.Layout
import Retrace.Sender.Replay
import Retrace.Trace
namespace Retrace

/-!
# Diagnostics of a replay

Besides its events a replay can be told in messages for a human reader: one for
every event, one for every packet that is passed over, one for every decision
about data sent again, and one each at the beginning and the end.  A packet is
shown in one line.
-/

namespace Packet

/-- A number as so many hexadecimal digits, or as many as it takes. -/
def hexadecimal (places number : Nat) : String :=
  let digits := Nat.toDigits 16 number
  Decimal.zeros (places - digits.length) ++ String.ofList digits

/-- The packet in one line: ends, numbers, flag bits, payload, and time to the microsecond. -/
def summary (packet : Packet Float) : String :=
  packet.src.write ++ " > " ++ packet.dst.write ++
    " seq=" ++ String.ofList (Decimal.digitsOf packet.seq.toNat) ++
    " ack=" ++ String.ofList (Decimal.digitsOf packet.ack.toNat) ++
    " flags=0x" ++ hexadecimal 4 packet.flags.bits.toNat ++
    " payload=" ++ (if packet.payload then "true" else "false") ++
    " t=" ++ Decimal.writeFixed 6 packet.time

end Packet

/-- How much a message matters. -/
inductive Severity
  | trace
  | debug
  | info
deriving DecidableEq, Repr

/-- A value that a message carries. -/
inductive Detail
  | number (value : Nat)
  | truth (value : Bool)
  | instant (value : Float)
  | text (value : String)

/-- A message with its details by name. -/
structure Diagnostic where
  severity : Severity
  message : String
  details : List (String × Detail)

/-- The name of a severity. -/
def Severity.name : Severity → String
  | .trace => "TRACE"
  | .debug => "DEBUG"
  | .info => "INFO"

/-- Ranges as they are shown in a message. -/
def ByteRange.show (range : ByteRange) : String :=
  "SackedByteRange \x7b start: " ++ String.ofList (Decimal.digitsOf range.start.toNat) ++
    ", end: " ++ String.ofList (Decimal.digitsOf range.stop.toNat) ++ " \x7d"

/-- A list of ranges as it is shown in a message. -/
def ByteRange.showAll (ranges : List ByteRange) : String :=
  "[" ++ ", ".intercalate (ranges.map ByteRange.show) ++ "]"

namespace Detail

/-- A byte offset. -/
def offset (value : Offset) : Detail :=
  .number value.toNat

end Detail

namespace Diagnostic

/-- The message of an event. -/
def ofEvent (event : Event Float) : Diagnostic :=
  let state := event.state
  match event.notice with
  | .newSend packet =>
      ⟨.debug, "新发送",
        [("seq", .offset packet.seq), ("high_tx_mark", .offset state.highestSent)]⟩
  | .retransmission packet =>
      ⟨.debug, "重传",
        [("seq", .offset packet.seq), ("recovery_number", .number state.recoveryNumber)]⟩
  | .timeout packet =>
      ⟨.debug, "超时重传",
        [("seq", .offset packet.seq), ("last_ack_timestamp", .instant state.lastAckTime)]⟩
  | .ack packet =>
      ⟨.debug, "ACK",
        [("ack", .offset packet.ack), ("last_acked_seq", .offset state.highestAcked)]⟩
  | .duplicateAck packet =>
      ⟨.debug, "重复 ACK",
        [("ack", .offset packet.ack), ("dup_ack", .number state.duplicateAcks)]⟩
  | .sackChange ranges =>
      ⟨.debug, "新的 SACK 区间",
        [("ranges", .text (ByteRange.showAll ranges)),
          ("previous", .text (ByteRange.showAll state.sackRanges))]⟩
  | .duplicatesCleared =>
      ⟨.debug, "清除重复 ACK 计数", [("dup_ack", .number state.duplicateAcks)]⟩
  | .scoreboardAdd segment =>
      ⟨.debug, "记分板新增", [("segment", .offset segment)]⟩
  | .recoveryEntered =>
      ⟨.debug, "进入恢复",
        [("recovery_point", .offset state.recoveryPoint),
          ("high_rtx", .offset state.highestResent)]⟩
  | .recoveryLeft =>
      ⟨.debug, "退出恢复", [("recovery_point", .offset state.recoveryPoint)]⟩

/-- The message about a packet that is passed over. -/
def passedOver (message : String) (packet : Packet Float) : Diagnostic :=
  ⟨.trace, message, [("packet", .text packet.summary)]⟩

/-- The message about the decision that data was sent again in one way or the other. -/
def ofDecision
    (config : ReplayConfig Float)
    (state : SenderState Float)
    (packet : Packet Float) :
    Diagnostic :=
  let evidence := state.resendEvidence config packet
  ⟨.debug, "重发分类",
    [("seq", .offset packet.seq), ("high_rtx", .offset state.highestResent),
      ("previously_retransmitted", .truth evidence.previouslyRetransmitted),
      ("since_ack", .instant evidence.sinceAck), ("regressed", .truth evidence.regressed),
      ("idle", .truth evidence.idle)]⟩

/-- The messages about a packet that come before those of its events. -/
def beforeEvents
    (config : ReplayConfig Float)
    (source : Address)
    (state : SenderState Float)
    (packet : Packet Float) :
    List Diagnostic :=
  match packet.concern source with
  | .control => [passedOver "跳过无 ACK 标志的控制包" packet]
  | .foreign => [passedOver "忽略不属于该流的包" packet]
  | .sends => if state.isRepeated packet then [ofDecision config state packet] else []
  | .acknowledges | .bare => []

/-- The message at the beginning of a replay. -/
def beginning (packets : Trace Float) : Diagnostic :=
  ⟨.info, "▶️  开始回放", [("packets", .number packets.length)]⟩

/-- The message at the end of a replay that met so many repeated sends. -/
def ending (repeatedSends : Nat) (state : SenderState Float) : Diagnostic :=
  ⟨.info, "✅ 回放完成",
    [("repeated_sends", .number repeatedSends),
      ("high_tx_mark", .offset state.highestSent),
      ("recoveries", .number state.recoveryNumber)]⟩

/-- Whether a packet sends data again. -/
def isResend (source : Address) (state : SenderState Float) (packet : Packet Float) : Bool :=
  packet.concern source == .sends && state.isRepeated packet

/-- The messages of a replay between its beginning and its end, and its ending. -/
def followFrom
    (config : ReplayConfig Float)
    (source : Address)
    (state : SenderState Float)
    (repeatedSends : Nat) :
    Trace Float → List Diagnostic
  | [] => [ending repeatedSends state]
  | packet :: rest =>
      let outcome := state.step config source packet
      beforeEvents config source state packet ++ outcome.events.map ofEvent ++
        followFrom config source outcome.state
          (if isResend source state packet then repeatedSends + 1 else repeatedSends) rest

/-- The messages of a replay. -/
def ofReplay
    (config : ReplayConfig Float)
    (source : Address)
    (packets : Trace Float) :
    List Diagnostic :=
  beginning packets :: followFrom config source SenderState.initial 0 packets

end Diagnostic

end Retrace
