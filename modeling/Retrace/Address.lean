namespace Retrace

/-!
# Internet addresses

An address is a number of one of two families.  Its order puts every address of
the older family first and compares numerically inside a family; an address of
the newer family is never equal to one of the older, even when it embeds it.
-/

/-- An internet address of version 4 (32 bits) or version 6 (128 bits). -/
inductive Address
  | v4 (bits : UInt32)
  | v6 (bits : BitVec 128)
deriving DecidableEq, Repr

namespace Address

/-- The place of an address in the order of all addresses. -/
def rank : Address → Nat
  | .v4 bits => bits.toNat
  | .v6 bits => 4294967296 + bits.toNat

/-- Whether an address stands at or before another in the order of all addresses. -/
def precedes (first second : Address) : Bool :=
  decide (first.rank ≤ second.rank)

/-- The four octets of a version 4 address, most significant first. -/
def octets (bits : UInt32) : List Nat :=
  [24, 16, 8, 0].map fun shift => bits.toNat / Nat.pow 2 shift % 256

/-- The eight groups of a version 6 address, most significant first. -/
def groups (bits : BitVec 128) : List Nat :=
  [112, 96, 80, 64, 48, 32, 16, 0].map fun shift => bits.toNat / Nat.pow 2 shift % 65536

/-- The number whose digits in a base are given, most significant first. -/
def ofDigits (base : Nat) (digits : List Nat) : Nat :=
  digits.foldl (fun number digit => number * base + digit) 0

/-- The version 4 address with the given octets. -/
def ofOctets (octets : List Nat) : Address :=
  .v4 (UInt32.ofNat (ofDigits 256 octets))

/-- The version 6 address with the given groups. -/
def ofGroups (groups : List Nat) : Address :=
  .v6 (BitVec.ofNat 128 (ofDigits 65536 groups))

end Address

/-- The two ends of a flow: the sender of its data and the receiver. -/
structure Flow where
  source : Address
  destination : Address
deriving DecidableEq, Repr

end Retrace
