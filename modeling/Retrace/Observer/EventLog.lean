import Retrace.Sender.Replay
namespace Retrace

/-!
# The event log

A log entry keeps of an event what is worth writing down: the instant, the kind,
and the few numbers that belong to the kind.
-/

variable {τ : Type}

/-- What a log entry says about an event. -/
inductive EntryKind
  | newSend (seq : Offset)
  | retransmission (seq : Offset) (recoveryNumber : UInt64)
  | timeout (seq : Offset)
  | ack (number : Offset)
  | duplicateAck (number : Offset) (duplicateAcks : UInt32)
  | sackChange (ranges : List ByteRange)
  | duplicatesCleared
  | scoreboardAdd (segment : Offset)
  | recoveryEntered (recoveryPoint : Offset) (recoveryNumber : UInt64)
  | recoveryLeft (recoveryPoint : Offset)
deriving DecidableEq, Repr

namespace EntryKind

/-- Whether the entry is about data sent again, in either way. -/
def isResend : EntryKind → Bool
  | .retransmission .. | .timeout .. => true
  | _ => false

end EntryKind

/-- One line of an event log. -/
structure LogEntry (τ : Type) where
  time : τ
  kind : EntryKind
deriving DecidableEq, Repr

namespace Event

/-- What the log says about an event. -/
def entryKind (event : Event τ) : EntryKind :=
  match event.notice with
  | .newSend packet => .newSend packet.seq
  | .retransmission packet =>
      .retransmission packet.seq (UInt64.ofNat event.state.recoveryNumber)
  | .timeout packet => .timeout packet.seq
  | .ack packet => .ack packet.ack
  | .duplicateAck packet =>
      .duplicateAck packet.ack (UInt32.ofNat event.state.duplicateAcks)
  | .sackChange ranges => .sackChange ranges
  | .duplicatesCleared => .duplicatesCleared
  | .scoreboardAdd segment => .scoreboardAdd segment
  | .recoveryEntered =>
      .recoveryEntered event.state.recoveryPoint (UInt64.ofNat event.state.recoveryNumber)
  | .recoveryLeft => .recoveryLeft event.state.recoveryPoint

/-- The log entry of an event. -/
def logEntry (event : Event τ) : LogEntry τ where
  time := event.state.time
  kind := event.entryKind

end Event

/-- Writes every event into a log, oldest first. -/
def Observer.eventLog : Observer τ (Array (LogEntry τ)) where
  start := #[]
  observe log event := log.push event.logEntry

/-- How many entries of a log are of a kind. -/
def countEntries (ofKind : EntryKind → Bool) (log : List (LogEntry τ)) : Nat :=
  log.countP fun entry => ofKind entry.kind

end Retrace
