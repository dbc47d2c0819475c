import Retrace.Analysis.Condition
import Retrace.CaptureFile
import Retrace.CommandLine.Arguments
import Retrace.Observer.EventLogDocument
import Retrace.Observer.InFlight
namespace Retrace.CommandLine

/-!
# Reports

Once both traces are loaded, everything the program prints and writes follows
from them and the arguments.  The metrics and the conditions come first, one a
line; then the files are written one after the other, until one cannot be.
-/

/-- What the program has to say. -/
structure Report where
  /-- The lines of its output. -/
  lines : List String
  /-- The files it writes, in order, by path. -/
  files : List (String × String)

/-- What is left of the program when it has ended. -/
structure Ending where
  exitCode : UInt32
  output : List String
  errors : List String
deriving DecidableEq, Repr

namespace Report

/-- The constants that the arguments choose. -/
def configOf (arguments : Arguments) : ReplayConfig Float where
  segmentSize := arguments.segmentSize
  duplicateThreshold := arguments.duplicateThreshold
  idleLimit := arguments.idleMilliseconds.toFloat / 1000.0
  tolerance := ReplayConfig.standard.tolerance

/-- The line of a metric. -/
def metricLine (run : FlowRun) (metric : Metric) : String :=
  let value :=
    match run.measure? metric with
    | some value => Decimal.Layout.plain.write value
    | none => "none"
  "metric " ++ metric.identifier ++ " name=\"" ++ metric.title ++ "\" value=" ++ value

/-- The line of a condition. -/
def conditionLine (condition : Condition) : String :=
  "condition name=\"" ++ condition.name ++ "\" packets=" ++
    String.ofList (Decimal.digitsOf condition.packets.length)

/-- The text of the event log of a flow. -/
def eventsText (run : FlowRun) (Value : Type := Json) [JsonLayer Value] : String :=
  JsonLayer.pretty
    (EventLog.encode JsonLayer.ofFloat (run.observe Observer.eventLog).toList : Value)

/-- The text of the samples of the segments in flight, dropped packets left out. -/
def inFlightText (run : FlowRun) (Value : Type := Json) [JsonLayer Value] : String :=
  let lost := KeySet.ofPackets (Analysis.dropped run.sender run.receiver run.flow.source)
  let samples := (run.observe (Observer.inFlight lost)).samples.toList
  JsonLayer.pretty
    (JsonLayer.ofItems (samples.map fun sample =>
      JsonLayer.ofItems [JsonLayer.ofFloat sample.1, JsonLayer.ofNat sample.2]) : Value)

/-- The report on a flow. -/
def ofRun (arguments : Arguments) (run : FlowRun) : Report where
  lines :=
    (if arguments.metrics.isEmpty then Metric.all else arguments.metrics).map
      (metricLine run) ++
    if arguments.conditions then
      (Condition.ofAnalyzers Analyzer.all run.sender run.receiver run.flow.source).map
        conditionLine
    else
      []
  files :=
    (arguments.eventsPath.toList.map fun path => (path, eventsText run)) ++
      arguments.inFlightPath.toList.map fun path => (path, inFlightText run)

/-- The flow that is asked for, or that of the sender's first packet. -/
def flowOf (arguments : Arguments) (sender : CaptureFile) : Except TraceError Flow :=
  match arguments.flow with
  | some flow => .ok flow
  | none =>
      match sender.trace.firstFlow? with
      | some flow => .ok flow
      | none => .error (.empty arguments.sender)

/-- The report on two loaded traces. -/
def ofCaptures (arguments : Arguments) (sender receiver : CaptureFile) :
    Except TraceError Report := do
  let flow ← flowOf arguments sender
  return ofRun arguments
    { sender := sender.trace
      receiver := receiver.trace
      flow
      config := configOf arguments
      unsentLimit := arguments.unsentLimit }

end Report

section Running

variable {m : Type → Type} [Monad m]

/-- Write files until one cannot be written; whether all could, and what was said of them. -/
def writeFiles (disk : Disk m) : List (String × String) → m (Bool × List String)
  | [] => return (true, [])
  | (path, text) :: rest => do
      match ← disk.write path text with
      | .error fault =>
          return (false, ["error: failed to write " ++ path ++ ": " ++ fault.message])
      | .ok () =>
          let (done, said) ← writeFiles disk rest
          return (done, ("wrote " ++ path) :: said)

/-- The ending after an error of a trace. -/
def Ending.ofError (error : TraceError) : Ending where
  exitCode := 1
  output := []
  errors := ["error: " ++ error.message]

/-- Load both traces and report on them. -/
def report (disk : Disk m) (arguments : Arguments) : m (Except TraceError Report) := do
  match ← CaptureFile.load disk arguments.sender with
  | .error error => return .error error
  | .ok sender =>
      match ← CaptureFile.load disk arguments.receiver with
      | .error error => return .error error
      | .ok receiver => return Report.ofCaptures arguments sender receiver

/-- Run the program on arguments that were understood. -/
def runArguments (disk : Disk m) (arguments : Arguments) : m Ending := do
  match ← report disk arguments with
  | .error error => return .ofError error
  | .ok report =>
      let (done, said) ← writeFiles disk report.files
      return {
        exitCode := if done then 0 else 1
        output := report.lines
        errors := said }

/-- How the program is called. -/
def usage : String :=
  "usage: retrace --sender PATH --receiver PATH [--source ADDRESS --destination ADDRESS] " ++
    "[--metric NAME]... [--smss BYTES] [--dup-ack-threshold COUNT] [--rto-idle-ms MS] " ++
    "[--unsent-bytes BYTES] [--conditions] [--events-json PATH] [--in-flight-json PATH]"

/-- Run the program. -/
def run (disk : Disk m) (arguments : List String) : m Ending :=
  match parse? arguments with
  | none =>
      return {
        exitCode := 2
        output := []
        errors := ["error: the arguments are not understood", usage] }
  | some arguments => runArguments disk arguments

end Running

end Retrace.CommandLine
