namespace Retrace

/-!
# Byte offsets

Sequence numbers, acknowledgment numbers and the edges of acknowledged ranges
are offsets into the sender's byte stream.  Segments are never stored: they are
enumerated as the offsets `start, start + size, start + 2 * size, …`.
-/

/-- A byte offset in the sender's stream, as capture files number it. -/
abbrev Offset := UInt64

namespace Offset

/-- The largest offset. -/
def last : Offset := 18446744073709551615

/-- The sum of an offset and a length, capped at the largest offset. -/
def plusCapped (offset length : Offset) : Offset :=
  UInt64.ofNat (min (offset.toNat + length.toNat) last.toNat)

/-- A capped sum is the exact sum unless that lies above the largest offset. -/
theorem toNat_plusCapped (offset length : Offset) :
    (offset.plusCapped length).toNat =
      min (offset.toNat + length.toNat) last.toNat :=
  UInt64.toNat_ofNat_of_lt
    (Nat.lt_of_le_of_lt (Nat.min_le_right _ _) last.toNat_lt)

/-- The first `count` offsets of the progression `start, start + size, …`. -/
def progression (start size : Offset) (count : Nat) : List Offset :=
  (List.range count).map fun index => start + UInt64.ofNat index * size

/--
The offsets `start, start + size, …` that lie strictly below `stop`.

There are as many as the distance to `stop` holds sizes, the last one begun but
perhaps not complete.  A size of zero has no progression.
-/
def progressionBelow (start stop size : Offset) : List Offset :=
  progression start size ((stop.toNat - start.toNat + size.toNat - 1) / size.toNat)

end Offset

end Retrace
