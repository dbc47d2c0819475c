import Retrace.Disk
import Retrace.Json.Fields
import Retrace.Packet.Document
namespace Retrace

/-!
# Capture files

A capture file is UTF-8 text that holds a trace.
-/

/-- Why a trace could not be had from a file. -/
inductive TraceError
  /-- The file could not be read. -/
  | unreadable (path : String) (fault : DiskFault)
  /-- The file is not UTF-8 text. -/
  | notText (path : String)
  /-- The text does not hold a trace. -/
  | malformed (path : String)
  /-- The trace has no packet to infer a flow from. -/
  | empty (path : String)
deriving DecidableEq, Repr

namespace TraceError

/-- The error as it is reported. -/
def message : TraceError → String
  | .unreadable path fault => "failed to read trace " ++ path ++ ": " ++ fault.message
  | .notText path =>
      "failed to read trace " ++ path ++ ": stream did not contain valid UTF-8"
  | .malformed path => "failed to decode trace " ++ path
  | .empty path => "trace " ++ path ++ " is empty, cannot infer flow addresses"

end TraceError

/-- A trace, and the file it came from. -/
structure CaptureFile where
  path : Option String
  trace : Trace Float

namespace CaptureFile

/-- A trace that came from no file. -/
def ofTrace (trace : Trace Float) : CaptureFile where
  path := none
  trace := trace

/-- The trace that the bytes of a file hold. -/
def decode
    (path : String)
    (bytes : ByteArray)
    (Value : Type := Json)
    [JsonLayer Value] :
    Except TraceError CaptureFile :=
  match String.fromUTF8? bytes with
  | none => .error (.notText path)
  | some text =>
      match Trace.parse? text Value with
      | none => .error (.malformed path)
      | some trace => .ok { path := some path, trace }

/-- The trace in a file. -/
def load
    {m : Type → Type}
    [Monad m]
    (disk : Disk m)
    (path : String)
    (Value : Type := Json)
    [JsonLayer Value] :
    m (Except TraceError CaptureFile) := do
  match ← disk.read path with
  | .error fault => return .error (.unreadable path fault)
  | .ok bytes => return decode path bytes Value

end CaptureFile

end Retrace
