import Mathlib.Data.List.Induction
import Mathlib.Data.List.Nodup
import Retrace.Proofs.Analysis.Reordering
import Retrace.Proofs.Analysis.Reports
namespace Retrace

/-!
# Labels by first match

Reports are labelled in order, with a set that grows by every sighting of a
report once that report was gone through.  `ofReport` says of one report what
comes of it, given the reports before it, and a list of conditions is these one
after the other.  So a sighting stands under the label of the first report that
has it and under no other label, and every reported sighting is labelled.  Under
its label it stands once unless that report repeats it: among themselves the
packets of one report are not compared.
-/

/-- The sightings that packets are, in order. -/
def sightingsOf (packets : Trace Float) : List Sighting :=
  packets.map Packet.sighting

namespace Condition

/-- The sightings under a label, in order. -/
def sightings (condition : Condition) : List Sighting :=
  sightingsOf condition.packets

/-- The sightings that any of several reports has. -/
def reported (reports : List (String × Trace Float)) : List Sighting :=
  reports.flatMap fun report => sightingsOf report.2

/-- The sightings under any of several labels. -/
def labelled (conditions : List Condition) : List Sighting :=
  conditions.flatMap sightings

/-- What comes of a report behind others: the packets that none of those has seen. -/
def ofReport
    (earlier : List (String × Trace Float))
    (report : String × Trace Float) :
    Condition where
  name := report.1
  packets := report.2.filter fun packet => packet.sighting ∉ reported earlier

@[simp] theorem labelled_nil : labelled [] = [] :=
  rfl

@[simp] theorem labelled_concat
    (conditions : List Condition)
    (condition : Condition) :
    labelled (conditions ++ [condition]) =
      labelled conditions ++ condition.sightings := by
  simp [labelled]

@[simp] theorem reported_concat
    (reports : List (String × Trace Float))
    (report : String × Trace Float) :
    reported (reports ++ [report]) =
      reported reports ++ sightingsOf report.2 := by
  simp [reported]

/-- Under the label stand the sightings of the report that no earlier report has. -/
theorem sightings_ofReport
    (earlier : List (String × Trace Float))
    (report : String × Trace Float) :
    (ofReport earlier report).sightings =
      (sightingsOf report.2).filter fun sighting =>
        sighting ∉ reported earlier := by
  rw [sightings, ofReport, sightingsOf, sightingsOf, List.filter_map]
  rfl

theorem mem_sightings_ofReport
    {earlier : List (String × Trace Float)}
    {report : String × Trace Float}
    {sighting : Sighting} :
    sighting ∈ (ofReport earlier report).sightings ↔
      sighting ∈ sightingsOf report.2 ∧ sighting ∉ reported earlier := by
  rw [sightings_ofReport, List.mem_filter, decide_eq_true_iff]

/-! ## One more report -/

/-- One more report keeps what is neither known nor in a report before it. -/
theorem labelAfter_concat
    (known : Std.TreeSet Sighting)
    (earlier : List (String × Trace Float))
    (report : String × Trace Float) :
    labelAfter known (earlier ++ [report]) =
      labelAfter known earlier ++
        [{ name := report.1
           packets := report.2.filter fun packet =>
             packet.sighting ∉ known ∧ packet.sighting ∉ reported earlier }] := by
  induction earlier generalizing known with
  | nil =>
      simp [labelAfter, reported, ← Std.TreeSet.contains_iff_mem]
  | cons first rest inductionHypothesis =>
      have sameTest :
          ∀ sighting : Sighting,
            (sighting ∉ known.insertMany (first.2.map Packet.sighting) ∧
                sighting ∉ reported rest) ↔
              (sighting ∉ known ∧ sighting ∉ reported (first :: rest)) := by
        intro sighting
        simp [Std.TreeSet.mem_insertMany_list, reported, sightingsOf, not_or,
          and_assoc]
      simp only [List.cons_append, labelAfter, inductionHypothesis, sameTest]

/-- The conditions of some reports are followed by what comes of one more. -/
theorem label_concat
    (earlier : List (String × Trace Float))
    (report : String × Trace Float) :
    label (earlier ++ [report]) = label earlier ++ [ofReport earlier report] := by
  rw [label, labelAfter_concat, label, ofReport]
  simp

@[simp] theorem label_nil : label [] = [] :=
  rfl

theorem map_name_label (reports : List (String × Trace Float)) :
    (label reports).map Condition.name = reports.map Prod.fst := by
  induction reports using List.reverseRecOn with
  | nil =>
      rfl
  | append_singleton earlier report inductionHypothesis =>
      rw [label_concat, List.map_append, List.map_append, inductionHypothesis]
      rfl

@[simp] theorem length_label (reports : List (String × Trace Float)) :
    (label reports).length = reports.length := by
  simpa using congrArg List.length (map_name_label reports)

/-- Later reports change nothing about the conditions of the earlier ones. -/
theorem label_prefix
    (earlier later : List (String × Trace Float)) :
    label earlier <+: label (earlier ++ later) := by
  induction later using List.reverseRecOn with
  | nil =>
      simp
  | append_singleton rest report inductionHypothesis =>
      rw [← List.append_assoc, label_concat]
      exact inductionHypothesis.trans (List.prefix_append _ _)

/-- At the place of a report stands what comes of it. -/
theorem getElem?_label
    (earlier later : List (String × Trace Float))
    (report : String × Trace Float) :
    (label (earlier ++ report :: later))[earlier.length]? =
      some (ofReport earlier report) := by
  obtain ⟨rest, shape⟩ := label_prefix (earlier ++ [report]) later
  rw [List.append_assoc, List.singleton_append, label_concat] at shape
  rw [← shape]
  simp

/-- The conditions are what comes of the reports, each behind those before it. -/
theorem mem_label_iff
    {reports : List (String × Trace Float)}
    {condition : Condition} :
    condition ∈ label reports ↔
      ∃ earlier report later,
        reports = earlier ++ report :: later ∧
          condition = ofReport earlier report := by
  constructor
  · intro member
    obtain ⟨place, within, isThere⟩ := List.mem_iff_getElem.mp member
    rw [length_label] at within
    have shape :
        reports = reports.take place ++ reports[place] :: reports.drop (place + 1) := by
      rw [← List.drop_eq_getElem_cons within, List.take_append_drop]
    have atPlace :=
      getElem?_label (reports.take place) (reports.drop (place + 1)) reports[place]
    rw [← shape, List.length_take_of_le (Nat.le_of_lt within)] at atPlace
    refine ⟨_, _, _, shape, ?_⟩
    rw [← isThere]
    exact (List.getElem_eq_iff _).mpr atPlace
  · rintro ⟨earlier, report, later, rfl, rfl⟩
    exact List.mem_of_getElem? (getElem?_label earlier later report)

/-! ## What is labelled, and where -/

theorem mem_labelled_label
    {reports : List (String × Trace Float)}
    {sighting : Sighting} :
    sighting ∈ labelled (label reports) ↔ sighting ∈ reported reports := by
  induction reports using List.reverseRecOn with
  | nil =>
      rfl
  | append_singleton earlier report inductionHypothesis =>
      rw [label_concat, labelled_concat, reported_concat, List.mem_append,
        List.mem_append, inductionHypothesis, mem_sightings_ofReport]
      by_cases before : sighting ∈ reported earlier
      · simp [before]
      · simp [before]

/-- What comes of a report shares no sighting with the conditions before it. -/
theorem disjoint_ofReport
    (earlier : List (String × Trace Float))
    (report : String × Trace Float) :
    (labelled (label earlier)).Disjoint (ofReport earlier report).sightings := by
  intro sighting before now
  exact (mem_sightings_ofReport.mp now).2 (mem_labelled_label.mp before)

theorem label_disjoint (reports : List (String × Trace Float)) :
    (label reports).Pairwise fun first second =>
      first.sightings.Disjoint second.sightings := by
  induction reports using List.reverseRecOn with
  | nil =>
      exact List.Pairwise.nil
  | append_singleton earlier report inductionHypothesis =>
      rw [label_concat, List.pairwise_append]
      refine ⟨inductionHypothesis, List.pairwise_singleton _ _, ?_⟩
      intro condition member last isLast
      rw [List.mem_singleton.mp isLast]
      intro sighting under
      exact disjoint_ofReport earlier report
        (List.mem_flatMap.mpr ⟨condition, member, under⟩)

/--
Conditions are reports labelled by first match.

There is one for each report, in order and with its name; it holds of the
report, in order, the packets whose sighting no report before has; no sighting
stands in two of them; and all that was reported stands in one.
-/
structure LabelsFirstMatch
    (reports : List (String × Trace Float))
    (conditions : List Condition) :
    Prop where
  names :
    conditions.map Condition.name = reports.map Prod.fst
  packets :
    ∀ (earlier : List (String × Trace Float)) (report : String × Trace Float)
      (later : List (String × Trace Float)),
      reports = earlier ++ report :: later →
        conditions[earlier.length]?.map Condition.packets =
          some (report.2.filter fun packet => packet.sighting ∉ reported earlier)
  apart :
    conditions.Pairwise fun first second =>
      first.sightings.Disjoint second.sightings
  complete :
    ∀ sighting, sighting ∈ labelled conditions ↔ sighting ∈ reported reports

/--
Labelling is by first match and loses nothing.

So reports in another order get other labels, but the same sightings are
labelled.
-/
theorem labels_by_first_match (reports : List (String × Trace Float)) :
    LabelsFirstMatch reports (label reports) ∧
      ∀ others : List (String × Trace Float), others.Perm reports →
        ∀ sighting,
          sighting ∈ labelled (label others) ↔
            sighting ∈ labelled (label reports) := by
  constructor
  · constructor
    case names =>
      exact map_name_label reports
    case packets =>
      intro earlier report later shape
      rw [shape, getElem?_label]
      rfl
    case apart =>
      exact label_disjoint reports
    case complete =>
      intro sighting
      exact mem_labelled_label
  · intro others reordered sighting
    rw [mem_labelled_label, mem_labelled_label]
    exact (reordered.flatMap_right _).mem_iff

/-! ## Sightings labelled once -/

/-- Sightings are labelled once exactly if each label has every sighting once. -/
theorem nodup_labelled_label_iff {reports : List (String × Trace Float)} :
    (labelled (label reports)).Nodup ↔
      ∀ condition ∈ label reports, condition.sightings.Nodup := by
  rw [labelled, List.nodup_flatMap]
  exact and_iff_left (label_disjoint reports)

/-- No report repeats a sighting that no report before it has. -/
def RepeatNothingNew (reports : List (String × Trace Float)) : Prop :=
  ∀ (earlier : List (String × Trace Float)) (report : String × Trace Float)
    (later : List (String × Trace Float)),
    reports = earlier ++ report :: later →
      ((sightingsOf report.2).filter fun sighting =>
        sighting ∉ reported earlier).Nodup

/-- Sightings are labelled once exactly if no report repeats one that is new with it. -/
theorem labelled_once_iff (reports : List (String × Trace Float)) :
    (labelled (label reports)).Nodup ↔ RepeatNothingNew reports := by
  rw [nodup_labelled_label_iff]
  constructor
  · intro eachOnce earlier report later shape
    rw [← sightings_ofReport]
    exact eachOnce _ (mem_label_iff.mpr ⟨earlier, report, later, shape, rfl⟩)
  · intro nothing condition member
    obtain ⟨earlier, report, later, shape, rfl⟩ := mem_label_iff.mp member
    rw [sightings_ofReport]
    exact nothing earlier report later shape

open Analysis in
/-- A segment is sent again twice, and both copies are captured at one instant. -/
def twiceResent : Trace Float :=
  [segmentOf 1, { segmentOf 1 with time := 0.25 },
    { segmentOf 1 with time := 0.25 }]

/-- If all three arrive, the two copies are one sighting under one label. -/
theorem twiceResent_labelled_twice :
    ¬ (labelled
        (ofAnalyzers Analyzer.all twiceResent twiceResent (.v4 1))).Nodup := by
  decide +kernel

/--
Where the sender's capture tells packets of the source apart by their sightings,
the labels of the analyses do so as well.
-/
theorem nodup_labelled_ofAnalyzers
    (analyzers : List Analyzer)
    {sender : Trace Float}
    (receiver : Trace Float)
    {source : Address}
    (toldApart : (sightingsOf (sender.sentBy source)).Nodup) :
    (labelled (ofAnalyzers analyzers sender receiver source)).Nodup := by
  rw [ofAnalyzers, nodup_labelled_label_iff]
  intro condition member
  obtain ⟨earlier, report, later, shape, rfl⟩ := mem_label_iff.mp member
  have among :
      report ∈ analyzers.map fun analyzer =>
        (analyzer.title, analyzer.report sender receiver source) := by
    rw [shape]
    exact List.mem_append_right _ List.mem_cons_self
  obtain ⟨analyzer, _, rfl⟩ := List.mem_map.mp among
  have ofSender :
      ((ofReport earlier
          (analyzer.title, analyzer.report sender receiver source)).packets).Sublist
        (sender.sentBy source) :=
    List.filter_sublist.trans (analyzer.report_sublist sender receiver source)
  exact (ofSender.map Packet.sighting).nodup toldApart

end Condition

end Retrace
