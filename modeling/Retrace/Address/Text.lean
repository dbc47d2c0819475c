import Retrace.Address
namespace Retrace

/-!
# The text of addresses

A version 4 address is written as four decimal octets.  A version 6 address is
written as hexadecimal groups, the first of its longest runs of two or more zero
groups shortened to a double colon; one that embeds a version 4 address ends in
the dotted form of it.

Read are all forms of the standard grammar: groups of up to four digits in either
case, at most one double colon in place of one or more zero groups, and a dotted
form in place of the last two groups.  Octets have no leading zeros.
-/

/-- The parts of a text between separators; a text without any is one part. -/
def Text.partsBetween (separator : Char) : List Char → List (List Char)
  | [] => [[]]
  | character :: rest =>
      if character = separator then
        [] :: partsBetween separator rest
      else
        match partsBetween separator rest with
        | [] => [[character]]
        | first :: others => (character :: first) :: others

namespace Address

/-! ## Writing -/

/-- A dotted quad of octets. -/
def writeOctets (octets : List Nat) : String :=
  ".".intercalate (octets.map fun octet => String.ofList (Nat.toDigits 10 octet))

/-- Hexadecimal groups with colons between them. -/
def writeGroups (groups : List Nat) : String :=
  ":".intercalate (groups.map fun group => String.ofList (Nat.toDigits 16 group))

/-- A run of consecutive groups. -/
structure Run where
  start : Nat
  length : Nat
deriving DecidableEq, Repr

/-- The longest run of zero groups, the first of those equally long. -/
def longestZeroRun (groups : List Nat) : Run :=
  (groups.zipIdx.foldl
    (fun (runs : Run × Run) group =>
      if group.1 = 0 then
        let current : Run :=
          if runs.1.length = 0 then ⟨group.2, 1⟩ else ⟨runs.1.start, runs.1.length + 1⟩
        (current, if runs.2.length < current.length then current else runs.2)
      else
        (⟨0, 0⟩, runs.2))
    (⟨0, 0⟩, ⟨0, 0⟩)).2

/-- Groups with their longest run of zeros shortened, unless it is a single group. -/
def writeShortened (groups : List Nat) : String :=
  let run := longestZeroRun groups
  if 1 < run.length then
    writeGroups (groups.take run.start) ++ "::" ++
      writeGroups (groups.drop (run.start + run.length))
  else
    writeGroups groups

/-- Whether groups stand for an embedded version 4 address. -/
def embedsOctets (groups : List Nat) : Bool :=
  groups.take 6 == [0, 0, 0, 0, 0, 65535]

/-- The octets of the last two groups. -/
def embeddedOctets (groups : List Nat) : List Nat :=
  (groups.drop 6).flatMap fun group => [group / 256, group % 256]

/-- The text of an address. -/
def write : Address → String
  | .v4 bits => writeOctets (octets bits)
  | .v6 bits =>
      let groups := groups bits
      if embedsOctets groups then
        "::ffff:" ++ writeOctets (embeddedOctets groups)
      else
        writeShortened groups

/-! ## Reading -/

/-- The value of a digit in either case, if the base has it. -/
def digit? (base : Nat) (character : Char) : Option Nat :=
  let value :=
    if '0' ≤ character ∧ character ≤ '9' then character.toNat - 48
    else if 'a' ≤ character ∧ character ≤ 'z' then character.toNat - 87
    else if 'A' ≤ character ∧ character ≤ 'Z' then character.toNat - 55
    else base
  if value < base then some value else none

/-- The number that at least one and at most so many digits spell. -/
def number? (base longest : Nat) (text : List Char) : Option Nat :=
  if text.isEmpty || decide (longest < text.length) then
    none
  else
    (text.mapM (digit? base)).map (ofDigits base)

/-- An octet: a decimal number without leading zeros, at most 255. -/
def octet? (text : List Char) : Option Nat :=
  if decide (1 < text.length) && text.head? == some '0' then
    none
  else
    (number? 10 3 text).filter fun octet => decide (octet < 256)

/-- The octets of a dotted quad. -/
def dottedQuad? (text : List Char) : Option (List Nat) :=
  let parts := Text.partsBetween '.' text
  if parts.length = 4 then parts.mapM octet? else none

/-- A group: one to four hexadecimal digits. -/
def group? (text : List Char) : Option Nat :=
  number? 16 4 text

/-- The groups of parts, the last of which may be a dotted quad that fills two. -/
def groupsOfParts? : List (List Char) → Option (List Nat)
  | [] => some []
  | [last] =>
      match dottedQuad? last with
      | some [first, second, third, fourth] =>
          some [first * 256 + second, third * 256 + fourth]
      | _ => (group? last).map fun group => [group]
  | part :: rest => do
      let group ← group? part
      let groups ← groupsOfParts? rest
      return group :: groups

/-- The groups of a text between double colons; an empty text has none. -/
def groupsOf? (text : List Char) : Option (List Nat) :=
  if text.isEmpty then some [] else groupsOfParts? (Text.partsBetween ':' text)

/-- What stands before and after the first double colon. -/
def cutAtDoubleColon? : List Char → Option (List Char × List Char)
  | ':' :: ':' :: rest => some ([], rest)
  | character :: rest =>
      (cutAtDoubleColon? rest).map fun cut => (character :: cut.1, cut.2)
  | [] => none

/-- The eight groups of a version 6 address. -/
def allGroups? (text : List Char) : Option (List Nat) :=
  match cutAtDoubleColon? text with
  | none => (groupsOf? text).filter fun groups => groups.length == 8
  | some (before, after) => do
      if before.contains '.' then
        none
      else
        let front ← groupsOf? before
        let back ← groupsOf? after
        if front.length + back.length < 8 then
          return front ++ List.replicate (8 - front.length - back.length) 0 ++ back
        else
          none

/-- The address that a text spells. -/
def ofChars? (text : List Char) : Option Address :=
  match dottedQuad? text with
  | some octets => some (ofOctets octets)
  | none => (allGroups? text).map ofGroups

/-- The address that a text spells. -/
def parse? (text : String) : Option Address :=
  ofChars? text.toList

end Address

end Retrace
