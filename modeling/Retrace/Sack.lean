import Retrace.Packet
namespace Retrace

/-!
# Selective acknowledgment

A SACK option advertises byte ranges received above the cumulative
acknowledgment.  This module reads the ranges off a packet and derives, at the
granularity of segments, what they say: which segments were received, and which
segments between two ranges are missing.
-/

/-- The bytes from `start` up to, but not including, `stop`. -/
structure ByteRange where
  start : Offset
  stop : Offset
deriving DecidableEq, Repr

namespace ByteRange

/-- The number of bytes; none when the edges are out of order. -/
def length (range : ByteRange) : Nat :=
  range.stop.toNat - range.start.toNat

/-- Whether the range holds no byte. -/
def isEmpty (range : ByteRange) : Bool :=
  range.stop ≤ range.start

/-- Put a range in front of the first one that does not start earlier. -/
def insertByStart (range : ByteRange) : List ByteRange → List ByteRange
  | [] => [range]
  | next :: rest =>
      if range.start ≤ next.start then
        range :: next :: rest
      else
        next :: insertByStart range rest

/-- The ranges by ascending start; equal starts keep their order. -/
def sortByStart (ranges : List ByteRange) : List ByteRange :=
  ranges.foldr insertByStart []

/-- The whole segments of one range, counted from its start. -/
def wholeSegments (size : Offset) (range : ByteRange) : List Offset :=
  Offset.progression range.start size (range.length / size.toNat)

/-- The segments begun between the end of one range and the start of the next. -/
def gapSegments (size : Offset) (lower upper : ByteRange) : List Offset :=
  Offset.progressionBelow lower.stop upper.start size

end ByteRange

namespace Packet

/-- The non-empty ranges a packet advertises, by ascending start. -/
def sackRanges {τ : Type} (packet : Packet τ) : List ByteRange :=
  ByteRange.sortByStart
    (((packet.options.sack.getD []).map fun block => ByteRange.mk block.1 block.2).filter
      fun range => !range.isEmpty)

end Packet

namespace Sack

/-- The segments that some range covers as a whole, ascending and without repetition. -/
def coveredSegments (ranges : List ByteRange) (size : Offset) : List Offset :=
  (Std.TreeSet.ofList (ranges.flatMap (ByteRange.wholeSegments size))).toList

/--
The segments missing between neighbouring ranges.

A single range says nothing about what lies below it, so fewer than two ranges
have no missing segment.
-/
def missingSegments : List ByteRange → Offset → List Offset
  | lower :: upper :: rest, size =>
      ByteRange.gapSegments size lower upper ++ missingSegments (upper :: rest) size
  | _, _ => []

/--
The length of the ranges, laid end to end.

The sum has no bound; one in 64 bits is the same as long as it is below `2 ^ 64`.
-/
def totalLength (ranges : List ByteRange) : Nat :=
  ranges.foldr (fun range total => range.length + total) 0

/-- How many segments the ranges would fill, laid end to end. -/
def segmentCount (ranges : List ByteRange) (size : Offset) : Nat :=
  totalLength ranges / size.toNat

end Sack

end Retrace
