import Retrace.Address.Text
import Retrace.Disk
namespace Retrace

/-!
# Paths

A path is a way through directories: from the root if it begins with a slash,
else from the working directory, one name after the other.  Slashes beside each
other count as one, and a slash at the end says that the last name is that of a
directory.
-/

/-- A path, taken apart at its slashes. -/
structure DiskPath where
  /-- Whether the way begins at the root. -/
  absolute : Bool
  /-- The names on the way. -/
  names : List String
  /-- Whether a slash follows the last name. -/
  slashed : Bool
deriving DecidableEq, Repr

namespace DiskPath

/-- The most bytes that the text of a path can have. -/
def longestPath : Nat := 4095

/-- The most bytes that a name can have. -/
def longestName : Nat := 255

/-- The path that a text spells; an empty text spells none. -/
def ofText (text : String) : Except DiskFault DiskPath :=
  if text.isEmpty then
    .error .notFound
  else if longestPath < text.utf8ByteSize then
    .error .nameTooLong
  else
    let characters := text.toList
    .ok {
      absolute := characters.head? == some '/'
      names :=
        ((Text.partsBetween '/' characters).filter fun part => !part.isEmpty).map
          String.ofList
      slashed := characters.getLast? == some '/' }

/-- Whether a name stands for a step that needs no entry: staying, or going back. -/
def isStep (name : String) : Bool :=
  name == "." || name == ".."

/-- Whether a name is longer than any entry's can be. -/
def isTooLong (name : String) : Bool :=
  decide (longestName < name.utf8ByteSize)

end DiskPath

end Retrace
