import Std.Data.TreeSet
import Retrace.Address
import Retrace.Offset
namespace Retrace

/-!
# Packets

A packet is what a capture keeps of one TCP segment: the addresses, the two
numbers, the flags, the options that matter to loss recovery, whether any
payload was carried, and the instant of capture.

The same segment seen at two places is recognised by its `PacketKey`.  A copy
sent again shares the sequence number, but carries another timestamp option, so
the key tells copies apart as well.
-/

/-- The timestamp option: the sender's clock, and the echo of the peer's. -/
structure Timestamp where
  value : UInt32
  echo : UInt32
deriving DecidableEq, Repr

/-- The TCP options that take part in loss recovery. -/
structure Options where
  /-- Selectively acknowledged blocks `(left edge, right edge)`, as on the wire. -/
  sack : Option (List (Offset × Offset)) := none
  timestamp : Option Timestamp := none
deriving DecidableEq, Repr

/-- The flag bits of a TCP header; unnamed bits are kept. -/
structure Flags where
  bits : UInt16
deriving DecidableEq, Repr

namespace Flags

def fin : Flags := ⟨0x01⟩

def syn : Flags := ⟨0x02⟩

def psh : Flags := ⟨0x08⟩

def ack : Flags := ⟨0x10⟩

/-- No bit is set. -/
def empty : Flags := ⟨0⟩

/-- Every bit set in either. -/
def union (first second : Flags) : Flags :=
  ⟨first.bits ||| second.bits⟩

/-- Whether every bit of the second is set in the first. -/
def contains (flags wanted : Flags) : Bool :=
  flags.bits &&& wanted.bits == wanted.bits

/-- Whether the acknowledgment number of the packet is meant. -/
def isAck (flags : Flags) : Bool :=
  flags.contains ack

/-- Whether no bit is set, named or not. -/
def isEmpty (flags : Flags) : Bool :=
  flags.bits == 0

end Flags

/-- What recognises one packet in the captures of both ends. -/
structure PacketKey where
  seq : Offset
  ack : Offset
  timestamp : Option Timestamp
deriving DecidableEq, Repr

namespace PacketKey

/-- The place of a key's timestamp among all timestamps, an absent one first. -/
def timestampRank (key : PacketKey) : Nat :=
  match key.timestamp with
  | none => 0
  | some timestamp => 1 + timestamp.value.toNat * 4294967296 + timestamp.echo.toNat

/-- Keys are ordered by sequence number, then acknowledgment number, then timestamp. -/
def order : PacketKey → PacketKey → Ordering :=
  compareLex (compareOn seq) (compareLex (compareOn ack) (compareOn timestampRank))

instance : Ord PacketKey := ⟨order⟩

instance : Std.TransOrd PacketKey := by
  change Std.TransCmp order
  unfold order
  infer_instance

theorem timestampRank_injective
    {first second : PacketKey}
    (same : first.timestampRank = second.timestampRank) :
    first.timestamp = second.timestamp := by
  obtain ⟨_, _, firstStamp⟩ := first
  obtain ⟨_, _, secondStamp⟩ := second
  cases firstStamp with
  | none =>
      cases secondStamp with
      | none => rfl
      | some second =>
          simp only [timestampRank] at same
          omega
  | some first =>
      cases secondStamp with
      | none =>
          simp only [timestampRank] at same
          omega
      | some second =>
          have := first.echo.toNat_lt
          have := second.echo.toNat_lt
          simp only [timestampRank] at same
          have valueSame : first.value = second.value :=
            UInt32.toNat_inj.mp (by omega)
          have echoSame : first.echo = second.echo :=
            UInt32.toNat_inj.mp (by omega)
          cases first
          cases second
          simp_all

instance : Std.LawfulEqOrd PacketKey where
  eq_of_compare := by
    intro first second equal
    change order first second = .eq at equal
    simp only [order, compareLex_eq_eq, compareOn] at equal
    obtain ⟨seqSame, ackSame, stampSame⟩ := equal
    have seqSame := Std.LawfulEqOrd.eq_of_compare seqSame
    have ackSame := Std.LawfulEqOrd.eq_of_compare ackSame
    have stampSame :=
      timestampRank_injective (Std.LawfulEqOrd.eq_of_compare stampSame)
    cases first
    cases second
    simp_all

end PacketKey

/-- A finite set of packet keys. -/
abbrev KeySet := Std.TreeSet PacketKey

/-- One captured packet, its capture instant measured on the scale `τ`. -/
structure Packet (τ : Type) where
  src : Address
  dst : Address
  seq : Offset
  ack : Offset
  flags : Flags
  options : Options
  /-- Whether any application data was carried. -/
  payload : Bool
  time : τ
deriving DecidableEq, Repr

namespace Packet

variable {τ : Type}

/-- What recognises the packet in another capture. -/
def key (packet : Packet τ) : PacketKey where
  seq := packet.seq
  ack := packet.ack
  timestamp := packet.options.timestamp

end Packet

namespace Flow

variable {τ : Type}

/-- A segment of data without options, from the sender. -/
def segment (flow : Flow) (seq : Offset) (time : τ) : Packet τ where
  src := flow.source
  dst := flow.destination
  seq := seq
  ack := 1
  flags := .ack
  options := {}
  payload := true
  time := time

/-- An acknowledgment with the blocks it reports, if any, from the receiver. -/
def acknowledgment
    (flow : Flow)
    (number : Offset)
    (blocks : Option (List (Offset × Offset)))
    (time : τ) :
    Packet τ where
  src := flow.destination
  dst := flow.source
  seq := 1
  ack := number
  flags := .ack
  options := { sack := blocks }
  payload := false
  time := time

/-- The flow between the hosts of the examples. -/
def sample : Flow where
  source := .v4 1
  destination := .v4 2

end Flow

/-- The keys of a list of packets. -/
def KeySet.ofPackets {τ : Type} (packets : List (Packet τ)) : KeySet :=
  Std.TreeSet.ofList (packets.map Packet.key)

/-- A key is in the set of a list of packets exactly when one of them has it. -/
theorem KeySet.mem_ofPackets
    {τ : Type}
    {packets : List (Packet τ)}
    {key : PacketKey} :
    key ∈ KeySet.ofPackets packets ↔ ∃ packet ∈ packets, packet.key = key := by
  simp [KeySet.ofPackets, Std.TreeSet.mem_ofList]

end Retrace
