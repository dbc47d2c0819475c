import Retrace.Analysis.Retransmissions
namespace Retrace

/-!
# Conditions

Several analyses, in order of precedence, label the packets of a flow.  A packet
that an earlier analysis reported is not repeated under a later label.
-/

/-- What tells two sightings apart: both numbers and the exact capture instant. -/
structure Sighting where
  seq : Offset
  ack : Offset
  /-- The bits of the capture instant. -/
  instant : UInt64
deriving DecidableEq, Repr

namespace Sighting

/-- Sightings are ordered by sequence number, then acknowledgment number, then instant. -/
def order : Sighting → Sighting → Ordering :=
  compareLex (compareOn seq) (compareLex (compareOn ack) (compareOn instant))

instance : Ord Sighting := ⟨order⟩

instance : Std.TransOrd Sighting := by
  change Std.TransCmp order
  unfold order
  infer_instance

instance : Std.LawfulEqOrd Sighting where
  eq_of_compare := by
    intro first second equal
    change order first second = .eq at equal
    simp only [order, compareLex_eq_eq, compareOn] at equal
    obtain ⟨seqSame, ackSame, instantSame⟩ := equal
    have seqSame := Std.LawfulEqOrd.eq_of_compare seqSame
    have ackSame := Std.LawfulEqOrd.eq_of_compare ackSame
    have instantSame := Std.LawfulEqOrd.eq_of_compare instantSame
    cases first
    cases second
    simp_all

end Sighting

/-- The sighting that a captured packet is. -/
def Packet.sighting (packet : Packet Float) : Sighting where
  seq := packet.seq
  ack := packet.ack
  instant := packet.time.toBits

theorem Packet.sighting_eq_iff {first second : Packet Float} :
    first.sighting = second.sighting ↔
      first.seq = second.seq ∧
        first.ack = second.ack ∧
        first.time.toBits = second.time.toBits := by
  simp [sighting]

/-- An analysis of a flow seen at both ends. -/
inductive Analyzer
  | dropped
  | sackFastRetransmit
  | earlySpuriousRetransmit
  | spuriousByReordering
  | spurious
  | outOfOrder
deriving DecidableEq, Repr

namespace Analyzer

/-- Every analyzer, in order of precedence. -/
def all : List Analyzer :=
  [.dropped, .sackFastRetransmit, .earlySpuriousRetransmit, .spuriousByReordering,
    .spurious, .outOfOrder]

/-- The heading a report is printed under. -/
def title : Analyzer → String
  | .dropped => "Dropped Packets"
  | .sackFastRetransmit => "SACK Fast Retransmit"
  | .earlySpuriousRetransmit => "Single Dup Ack Fast Retransmit"
  | .spuriousByReordering => "Spurious Retransmission From Reordering"
  | .spurious => "Spurious Retransmission"
  | .outOfOrder => "Packet Out of Order"

/-- The packets an analyzer reports for the data sent from an address. -/
def report (analyzer : Analyzer) (sender receiver : Trace Float) (source : Address) :
    Trace Float :=
  match analyzer with
  | .dropped => Analysis.dropped sender receiver source
  | .sackFastRetransmit => Analysis.sackFastRetransmits sender source
  | .earlySpuriousRetransmit => Analysis.earlySpuriousRetransmits sender receiver source
  | .spuriousByReordering => Analysis.spuriousByReordering sender receiver source
  | .spurious => Analysis.spurious sender receiver source
  | .outOfOrder => Analysis.outOfOrder sender receiver source

end Analyzer

/-- The packets under one label. -/
structure Condition where
  name : String
  packets : Trace Float

namespace Condition

/-- Label reports in order, leaving out the sightings that were labelled already. -/
def labelAfter
    (labelled : Std.TreeSet Sighting) :
    List (String × Trace Float) → List Condition
  | [] => []
  | (name, report) :: rest =>
      { name
        packets := report.filter fun packet => !labelled.contains packet.sighting } ::
        labelAfter (labelled.insertMany (report.map Packet.sighting)) rest

/-- Label named reports, an earlier one taking precedence over a later one. -/
def label (reports : List (String × Trace Float)) : List Condition :=
  labelAfter ∅ reports

/-- The conditions of a flow under a list of analyzers. -/
def ofAnalyzers
    (analyzers : List Analyzer)
    (sender receiver : Trace Float)
    (source : Address) :
    List Condition :=
  label (analyzers.map fun analyzer =>
    (analyzer.title, analyzer.report sender receiver source))

end Condition

end Retrace
