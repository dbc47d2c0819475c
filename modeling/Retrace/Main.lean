import Retrace.CommandLine.Report
namespace Retrace

/-!
# The program

The command line, on the disk of the machine it runs on.
-/

/-- The code of an error, which some of the machine's calls report negated. -/
def DiskFault.codeOf (reported : UInt32) : Nat :=
  min reported.toNat (4294967296 - reported.toNat)

/-- A fault of the machine's disk. -/
def DiskFault.ofError : IO.Error → DiskFault
  | .noFileOrDirectory _ code description
  | .permissionDenied _ code description
  | .inappropriateType _ code description
  | .alreadyExists _ code description
  | .invalidArgument _ code description
  | .resourceExhausted _ code description
  | .noSuchThing _ code description => ofCode (codeOf code) description
  | .otherError code description
  | .resourceBusy code description
  | .hardwareFault code description
  | .unsupportedOperation code description => ofCode (codeOf code) description
  | error => ofCode 5 (toString error)

/-- The disk of the machine. -/
def Disk.ofMachine : Disk IO where
  read path := do
    try
      return .ok (← IO.FS.readBinFile path)
    catch error =>
      return .error (.ofError error)
  write path text := do
    try
      IO.FS.writeFile path text
      return .ok ()
    catch error =>
      return .error (.ofError error)

end Retrace

/-- Reports on the flow whose captures the arguments name. -/
def main (arguments : List String) : IO UInt32 := do
  let ending ← Retrace.CommandLine.run Retrace.Disk.ofMachine arguments
  for line in ending.output do
    IO.println line
  for line in ending.errors do
    IO.eprintln line
  return ending.exitCode
