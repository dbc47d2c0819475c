import Retrace.Json.Fields
import Retrace.Observer.EventLog
import Retrace.Packet.Document
namespace Retrace

/-!
# Event logs as JSON

An event log is an array of objects.  Each holds the instant `t`, the name of its
`kind`, and the fields that belong to the kind.
-/

variable {Value : Type} [JsonLayer Value]

namespace ByteRange

/-- A range as a record. -/
def encode (range : ByteRange) : Value :=
  JsonLayer.ofMembers
    [("start", JsonLayer.ofNat range.start.toNat), ("end", JsonLayer.ofNat range.stop.toNat)]

/-- A range from a record. -/
def decode? (value : Value) : Option ByteRange := do
  match ← JsonLayer.fields? ["start", "end"] value with
  | [start, stop] =>
      let start ← Json.required? JsonLayer.uint64? start
      let stop ← Json.required? JsonLayer.uint64? stop
      return { start, stop }
  | _ => none

end ByteRange

namespace EntryKind

/-- The names of the kinds, in order. -/
def names : List String :=
  ["new_send", "retransmission", "retransmission_timeout", "ack", "dup_ack", "new_sack",
    "clear_dup_acks", "scoreboard_add", "enter_recovery", "exit_recovery"]

/-- The name of a kind. -/
def name : EntryKind → String
  | .newSend .. => "new_send"
  | .retransmission .. => "retransmission"
  | .timeout .. => "retransmission_timeout"
  | .ack .. => "ack"
  | .duplicateAck .. => "dup_ack"
  | .sackChange .. => "new_sack"
  | .duplicatesCleared => "clear_dup_acks"
  | .scoreboardAdd .. => "scoreboard_add"
  | .recoveryEntered .. => "enter_recovery"
  | .recoveryLeft .. => "exit_recovery"

/-- The fields of a kind. -/
def members : EntryKind → List (String × Value)
  | .newSend seq => [("seq", JsonLayer.ofNat seq.toNat)]
  | .retransmission seq recoveryNumber =>
      [("seq", JsonLayer.ofNat seq.toNat),
        ("recovery_number", JsonLayer.ofNat recoveryNumber.toNat)]
  | .timeout seq => [("seq", JsonLayer.ofNat seq.toNat)]
  | .ack number => [("ack", JsonLayer.ofNat number.toNat)]
  | .duplicateAck number duplicateAcks =>
      [("ack", JsonLayer.ofNat number.toNat),
        ("dup_ack", JsonLayer.ofNat duplicateAcks.toNat)]
  | .sackChange ranges => [("ranges", JsonLayer.ofItems (ranges.map ByteRange.encode))]
  | .duplicatesCleared => []
  | .scoreboardAdd segment => [("segment", JsonLayer.ofNat segment.toNat)]
  | .recoveryEntered recoveryPoint recoveryNumber =>
      [("recovery_point", JsonLayer.ofNat recoveryPoint.toNat),
        ("recovery_number", JsonLayer.ofNat recoveryNumber.toNat)]
  | .recoveryLeft recoveryPoint => [("recovery_point", JsonLayer.ofNat recoveryPoint.toNat)]

/-- A member that has to be present. -/
def member? {α : Type} (value? : Value → Option α) (name : String) (value : Value) : Option α :=
  (JsonLayer.member? name value).bind (Json.required? value?)

/-- The kind of a name with its fields among the members of an object. -/
def ofMembers? (value : Value) : String → Option EntryKind
  | "new_send" => do
      return .newSend (← member? JsonLayer.uint64? "seq" value)
  | "retransmission" => do
      return .retransmission (← member? JsonLayer.uint64? "seq" value)
        (← member? JsonLayer.uint64? "recovery_number" value)
  | "retransmission_timeout" => do
      return .timeout (← member? JsonLayer.uint64? "seq" value)
  | "ack" => do
      return .ack (← member? JsonLayer.uint64? "ack" value)
  | "dup_ack" => do
      return .duplicateAck (← member? JsonLayer.uint64? "ack" value)
        (← member? JsonLayer.uint32? "dup_ack" value)
  | "new_sack" => do
      return .sackChange (← member? (JsonLayer.list? ByteRange.decode?) "ranges" value)
  | "clear_dup_acks" => some .duplicatesCleared
  | "scoreboard_add" => do
      return .scoreboardAdd (← member? JsonLayer.uint64? "segment" value)
  | "enter_recovery" => do
      return .recoveryEntered (← member? JsonLayer.uint64? "recovery_point" value)
        (← member? JsonLayer.uint64? "recovery_number" value)
  | "exit_recovery" => do
      return .recoveryLeft (← member? JsonLayer.uint64? "recovery_point" value)
  | _ => none

end EntryKind

namespace LogEntry

/-- An entry as an object, its instant written by `encodeTime`. -/
def encode {τ : Type} (encodeTime : τ → Value) (entry : LogEntry τ) : Value :=
  JsonLayer.ofMembers
    (("t", encodeTime entry.time) :: ("kind", JsonLayer.ofText entry.kind.name) ::
      entry.kind.members)

/-- An entry from an object; members that belong to no field are skipped. -/
def decode? (value : Value) : Option (LogEntry Float) := do
  let time ← EntryKind.member? JsonLayer.float? "t" value
  let name ← EntryKind.member? (JsonLayer.name? EntryKind.names) "kind" value
  let kind ← EntryKind.ofMembers? value name
  return { time, kind }

end LogEntry

namespace EventLog

/-- A log as an array of entries. -/
def encode {τ : Type} (encodeTime : τ → Value) (log : List (LogEntry τ)) : Value :=
  JsonLayer.ofItems (log.map (LogEntry.encode encodeTime))

/-- A log from an array of entries. -/
def decode? : Value → Option (List (LogEntry Float)) :=
  JsonLayer.list? LogEntry.decode?

/--
The log that a text holds.

What is to be read from an entry is known only with its kind, so entries are
kept whole until then.
-/
def parse? (text : String) (Value : Type := Json) [JsonLayer Value] :
    Option (List (LogEntry Float)) :=
  (JsonLayer.parseWhole? text : Option Value).bind decode?

end EventLog

end Retrace
