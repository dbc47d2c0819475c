namespace Retrace

/-!
# Disks

Reading and writing files is left to a `Disk`, so that everything else about the
program can be said without one.
-/

/-- Why a file could not be read or written. -/
structure DiskFault where
  description : String
  code : Nat
deriving DecidableEq, Repr

namespace DiskFault

/-- The file, or a directory on the way to it, does not exist. -/
def notFound : DiskFault :=
  ⟨"No such file or directory", 2⟩

/-- The path goes on behind a file, as if that were a directory. -/
def notDirectory : DiskFault :=
  ⟨"Not a directory", 20⟩

/-- The path is that of a directory, or can only be that of one. -/
def isDirectory : DiskFault :=
  ⟨"Is a directory", 21⟩

/-- The path, or a name in it, is longer than any can be. -/
def nameTooLong : DiskFault :=
  ⟨"File name too long", 36⟩

/-- The faults that machines report most often. -/
def common : List DiskFault :=
  [notFound, ⟨"Permission denied", 13⟩, notDirectory, isDirectory,
    ⟨"No space left on device", 28⟩, ⟨"Read-only file system", 30⟩, nameTooLong]

/-- The fault with a code; the description is needed for uncommon ones only. -/
def ofCode (code : Nat) (description : String) : DiskFault :=
  (common.find? fun fault => fault.code == code).getD ⟨description, code⟩

/-- The fault as it is reported. -/
def message (fault : DiskFault) : String :=
  fault.description ++ " (os error " ++ String.ofList (Nat.toDigits 10 fault.code) ++ ")"

end DiskFault

/-- Where files are read from and written to. -/
structure Disk (m : Type → Type) where
  /-- The contents of the file at a path. -/
  read : String → m (Except DiskFault ByteArray)
  /-- Make a text the contents of the file at a path. -/
  write : String → String → m (Except DiskFault Unit)

end Retrace
