import Retrace.Address.Text
import Retrace.Json.Numeral
import Retrace.Metric
namespace Retrace.CommandLine

/-!
# Arguments

Every argument is an option with a long name.  An option takes its value from
the same argument, behind an equals sign, or from the next one, which then must
not look like an option.  No option but the metric may be given twice.
-/

/-- What the arguments ask for. -/
structure Arguments where
  /-- The path of the sender's capture file. -/
  sender : String
  /-- The path of the receiver's capture file. -/
  receiver : String
  /-- The flow to measure; without it, that of the sender's first packet. -/
  flow : Option Flow
  /-- The metrics to report; none stands for all. -/
  metrics : List Metric
  segmentSize : Offset
  duplicateThreshold : Nat
  idleMilliseconds : UInt64
  unsentLimit : Offset
  /-- Whether the size of every condition is reported. -/
  conditions : Bool
  /-- Where the event log is written. -/
  eventsPath : Option String
  /-- Where the samples of the segments in flight are written. -/
  inFlightPath : Option String

/-! ## From arguments to settings -/

/-- An option that was given, with its value unless it is a switch. -/
structure Setting where
  name : String
  value : Option String
deriving DecidableEq, Repr

/-- The options that take a value. -/
def valueOptions : List String :=
  ["sender", "receiver", "source", "destination", "metric", "smss", "dup-ack-threshold",
    "rto-idle-ms", "unsent-bytes", "events-json", "in-flight-json"]

/-- The options that take none. -/
def switches : List String :=
  ["conditions"]

/-- Whether an argument may be the value of the option before it. -/
def isValue (argument : String) : Bool :=
  argument == "-" || argument.toList.head? != some '-'

/-- The name of a long option, and the value behind an equals sign. -/
def splitOption? (argument : String) : Option (String × Option String) :=
  match argument.toList with
  | '-' :: '-' :: rest =>
      let name := rest.takeWhile fun character => character != '='
      let value :=
        if rest.length ≤ name.length then
          none
        else
          some (String.ofList (rest.drop (name.length + 1)))
      some (String.ofList name, value)
  | _ => none

/-- The settings that arguments make; a lone double hyphen may end them. -/
def settings? : List String → Option (List Setting)
  | [] => some []
  | ["--"] => some []
  | argument :: rest =>
      match splitOption? argument with
      | none => none
      | some (name, value) =>
          if switches.contains name then
            if value.isSome then none else (settings? rest).map (⟨name, none⟩ :: ·)
          else if valueOptions.contains name then
            match value, rest with
            | some value, rest => (settings? rest).map (⟨name, some value⟩ :: ·)
            | none, value :: rest =>
                if isValue value then
                  (settings? rest).map (⟨name, some value⟩ :: ·)
                else
                  none
            | none, [] => none
          else
            none

/-! ## From settings to arguments -/

/-- The values given to an option, in order. -/
def valuesOf (settings : List Setting) (name : String) : List String :=
  (settings.filter fun setting => setting.name == name).filterMap Setting.value

/-- The value of an option that may be given once, read by `read?`. -/
def single? {α : Type}
    (settings : List Setting)
    (name : String)
    (read? : String → Option α) :
    Option (Option α) :=
  match valuesOf settings name with
  | [] => some none
  | [value] => (read? value).map some
  | _ => none

/-- The value of an option that has to be given once. -/
def needed? {α : Type}
    (settings : List Setting)
    (name : String)
    (read? : String → Option α) :
    Option α :=
  (single? settings name read?).bind id

/-- A path is any text but the empty one. -/
def path? (value : String) : Option String :=
  if value.isEmpty then none else some value

/-- A natural number up to a bound: digits, perhaps behind a plus sign. -/
def natural? (bound : Nat) (value : String) : Option Nat :=
  match value.toList with
  | '+' :: digits => Numeral.natural? bound digits
  | digits => Numeral.natural? bound digits

/-- A 64-bit number. -/
def uint64? (value : String) : Option UInt64 :=
  (natural? 18446744073709551615 value).map UInt64.ofNat

/-- A 32-bit number; a negative zero is zero. -/
def uint32? (value : String) : Option Nat :=
  match value.toList with
  | '-' :: digits => Numeral.natural? 0 digits
  | _ => natural? 4294967295 value

/-- Both ends of a flow, or neither. -/
def flow? : Option Address → Option Address → Option (Option Flow)
  | some source, some destination => some (some { source, destination })
  | none, none => some none
  | _, _ => none

/-- Whether a switch was given, once at most. -/
def switch? (settings : List Setting) (name : String) : Option Bool :=
  match settings.countP fun setting => setting.name == name with
  | 0 => some false
  | 1 => some true
  | _ => none

/-- The arguments that settings amount to. -/
def ofSettings? (settings : List Setting) : Option Arguments := do
  let sender ← needed? settings "sender" path?
  let receiver ← needed? settings "receiver" path?
  let source ← single? settings "source" Address.parse?
  let destination ← single? settings "destination" Address.parse?
  let flow ← flow? source destination
  let metrics ← (valuesOf settings "metric").mapM Metric.ofKebabCase?
  let segmentSize ← single? settings "smss" uint64?
  let duplicateThreshold ← single? settings "dup-ack-threshold" uint32?
  let idleMilliseconds ← single? settings "rto-idle-ms" uint64?
  let unsentLimit ← single? settings "unsent-bytes" uint64?
  let conditions ← switch? settings "conditions"
  let eventsPath ← single? settings "events-json" path?
  let inFlightPath ← single? settings "in-flight-json" path?
  return {
    sender
    receiver
    flow
    metrics
    segmentSize := segmentSize.getD ReplayConfig.standard.segmentSize
    duplicateThreshold :=
      duplicateThreshold.getD ReplayConfig.standard.duplicateThreshold
    idleMilliseconds := idleMilliseconds.getD 500
    unsentLimit := unsentLimit.getD FlowRun.customaryUnsentLimit
    conditions
    eventsPath
    inFlightPath }

/-- The arguments, if they can be understood. -/
def parse? (arguments : List String) : Option Arguments :=
  (settings? arguments).bind ofSettings?

end Retrace.CommandLine
