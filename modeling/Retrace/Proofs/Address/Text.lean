import Mathlib.Data.List.Basic
import Mathlib.Data.List.Induction
import Retrace.Proofs.Text.Digits
namespace Retrace

/-!
# Addresses read back

The text that an address is written as spells this address and no other.  Octets
and groups come back one by one between their separators; what a double colon
stands for is as long as the run of zeros that it replaced, because all other
groups are written.
-/

namespace Text

theorem partsBetween_eq_splitOn
    (separator : Char)
    (text : List Char) :
    partsBetween separator text = text.splitOn separator := by
  induction text with
  | nil =>
      simp [partsBetween]
  | cons character rest inductionHypothesis =>
      rw [List.splitOn_cons_eq_if_modifyHead, partsBetween, inductionHypothesis]
      by_cases separates : character = separator
      · simp [separates]
      · rw [if_neg separates, if_neg (by simpa using separates)]
        cases parts : rest.splitOn separator with
        | nil =>
            exact (List.splitOn_ne_nil separator rest parts).elim
        | cons first others =>
            rfl

/-- Parts without a separator come back from the text that they make up. -/
theorem partsBetween_intercalate
    {separator : Char}
    {parts : List (List Char)}
    (notNil : parts ≠ [])
    (apart : ∀ part ∈ parts, separator ∉ part) :
    partsBetween separator ([separator].intercalate parts) = parts := by
  rw [partsBetween_eq_splitOn]
  exact List.splitOn_intercalate separator apart notNil

/-- What stands in a text made up of parts is a separator or stands in a part. -/
theorem mem_intercalate
    {separator character : Char}
    {parts : List (List Char)}
    (member : character ∈ [separator].intercalate parts) :
    character = separator ∨ ∃ part ∈ parts, character ∈ part := by
  induction parts with
  | nil =>
      cases member
  | cons part rest inductionHypothesis =>
      cases rest with
      | nil =>
          rw [List.intercalate_singleton] at member
          exact Or.inr ⟨part, List.mem_singleton_self part, member⟩
      | cons next others =>
          rw [List.intercalate_cons_cons, List.append_assoc] at member
          rcases List.mem_append.mp member with inPart | after
          · exact Or.inr ⟨part, List.mem_cons_self, inPart⟩
          rcases List.mem_cons.mp after with isSeparator | inRest
          · exact Or.inl isSeparator
          rcases inductionHypothesis inRest with isSeparator | ⟨other, among, inOther⟩
          · exact Or.inl isSeparator
          · exact Or.inr ⟨other, List.mem_cons_of_mem part among, inOther⟩

end Text

namespace Address

/-! ## Octets -/

theorem toList_writeOctets (octets : List Nat) :
    (writeOctets octets).toList =
      ['.'].intercalate (octets.map (Nat.toDigits 10)) := by
  simp [writeOctets, List.map_map, Function.comp_def]

theorem dot_not_mem_toDigits
    {base number : Nat}
    (atLeast : 2 ≤ base) :
    '.' ∉ Nat.toDigits base number := by
  intro member
  obtain ⟨digit, _, isDigit⟩ := exists_digit_of_mem_toDigits atLeast member
  exact Nat.digitChar_ne '.' (by decide) isDigit.symm

theorem octet?_toDigits
    {octet : Nat}
    (isOctet : octet < 256) :
    octet? (Nat.toDigits 10 octet) = some octet := by
  have number : number? 10 3 (Nat.toDigits 10 octet) = some octet :=
    number?_toDigits (by decide) (by decide) (by decide) (by omega)
  have noLeadingZero :
      ¬ (1 < (Nat.toDigits 10 octet).length ∧
        (Nat.toDigits 10 octet).head? = some '0') := by
    rintro ⟨several, leadingZero⟩
    rcases Nat.eq_zero_or_pos octet with isZero | positive
    · rw [isZero] at several
      exact absurd several (by decide)
    · exact head?_toDigits_ne_zero (by decide) positive leadingZero
  simp only [octet?, Bool.and_eq_true, decide_eq_true_eq, beq_iff_eq, noLeadingZero,
    ↓reduceIte, number]
  simp [isOctet]

/-- Four octets come back from their dotted quad. -/
theorem dottedQuad?_writeOctets
    {octets : List Nat}
    (four : octets.length = 4)
    (areOctets : ∀ octet ∈ octets, octet < 256) :
    dottedQuad? (writeOctets octets).toList = some octets := by
  have notNil : octets.map (Nat.toDigits 10) ≠ [] := by
    intro isNil
    rw [List.map_eq_nil_iff.mp isNil] at four
    cases four
  have apart : ∀ part ∈ octets.map (Nat.toDigits 10), '.' ∉ part := by
    intro part member
    obtain ⟨octet, _, rfl⟩ := List.mem_map.mp member
    exact dot_not_mem_toDigits (by decide)
  rw [toList_writeOctets, dottedQuad?, Text.partsBetween_intercalate notNil apart]
  simp only [List.length_map, four, ↓reduceIte]
  exact mapM_map_eq_some fun octet member => octet?_toDigits (areOctets octet member)

theorem dottedQuad?_eq_none
    {text : List Char}
    (noDot : '.' ∉ text) :
    dottedQuad? text = none := by
  rw [dottedQuad?, Text.partsBetween_eq_splitOn, List.splitOn_eq_singleton noDot]
  rfl

theorem ofOctets_octets (bits : UInt32) : ofOctets (octets bits) = .v4 bits := by
  have bounded := bits.toNat_lt
  have spelled : ofDigits 256 (octets bits) = bits.toNat := by
    simp only [octets, ofDigits, List.map_cons, List.map_nil, List.foldl_cons,
      List.foldl_nil, Nat.pow_eq]
    omega
  rw [ofOctets, spelled, UInt32.ofNat_toNat]

theorem lt_of_mem_octets
    {bits : UInt32}
    {octet : Nat}
    (member : octet ∈ octets bits) :
    octet < 256 := by
  obtain ⟨shift, _, rfl⟩ := List.mem_map.mp member
  exact Nat.mod_lt _ (by decide)

/-- An address of the older family comes back from its text. -/
theorem ofChars?_writeOctets (bits : UInt32) :
    ofChars? (writeOctets (octets bits)).toList = some (.v4 bits) := by
  rw [ofChars?, dottedQuad?_writeOctets rfl fun _ member => lt_of_mem_octets member]
  exact congrArg some (ofOctets_octets bits)

/-! ## Groups -/

theorem toList_writeGroups (groups : List Nat) :
    (writeGroups groups).toList =
      [':'].intercalate (groups.map (Nat.toDigits 16)) := by
  simp [writeGroups, List.map_map, Function.comp_def]

theorem colon_not_mem_toDigits
    {base number : Nat}
    (atLeast : 2 ≤ base) :
    ':' ∉ Nat.toDigits base number := by
  intro member
  obtain ⟨digit, _, isDigit⟩ := exists_digit_of_mem_toDigits atLeast member
  exact Nat.digitChar_ne ':' (by decide) isDigit.symm

theorem group?_toDigits
    {group : Nat}
    (isGroup : group < 65536) :
    group? (Nat.toDigits 16 group) = some group :=
  number?_toDigits (by decide) (by decide) (by decide) (by omega)

theorem groupsOfParts?_map
    {groups : List Nat}
    (areGroups : ∀ group ∈ groups, group < 65536) :
    groupsOfParts? (groups.map (Nat.toDigits 16)) = some groups := by
  induction groups with
  | nil =>
      rfl
  | cons group rest inductionHypothesis =>
      obtain ⟨isGroup, restGroups⟩ := List.forall_mem_cons.mp areGroups
      cases rest with
      | nil =>
          have notDotted : dottedQuad? (Nat.toDigits 16 group) = none :=
            dottedQuad?_eq_none (dot_not_mem_toDigits (by decide))
          simp [groupsOfParts?, notDotted, group?_toDigits isGroup]
      | cons next others =>
          have others := inductionHypothesis restGroups
          rw [List.map_cons] at others
          simp [groupsOfParts?, group?_toDigits isGroup, others]

theorem dot_not_mem_writeGroups (groups : List Nat) :
    '.' ∉ (writeGroups groups).toList := by
  rw [toList_writeGroups]
  intro member
  rcases Text.mem_intercalate member with isColon | ⟨part, isPart, inPart⟩
  · cases isColon
  · obtain ⟨group, _, rfl⟩ := List.mem_map.mp isPart
    exact dot_not_mem_toDigits (by decide) inPart

/-- Groups come back from their text. -/
theorem groupsOf?_writeGroups
    {groups : List Nat}
    (areGroups : ∀ group ∈ groups, group < 65536) :
    groupsOf? (writeGroups groups).toList = some groups := by
  cases groups with
  | nil =>
      rfl
  | cons group rest =>
      have notNil : (group :: rest).map (Nat.toDigits 16) ≠ [] :=
        List.cons_ne_nil _ _
      have apart : ∀ part ∈ (group :: rest).map (Nat.toDigits 16), ':' ∉ part := by
        intro part member
        obtain ⟨other, _, rfl⟩ := List.mem_map.mp member
        exact colon_not_mem_toDigits (by decide)
      have some : (writeGroups (group :: rest)).toList.isEmpty = false := by
        rw [toList_writeGroups, List.map_cons]
        cases digits : Nat.toDigits 16 group with
        | nil =>
            exact (Nat.toDigits_ne_nil digits).elim
        | cons first others =>
            cases rest <;> rfl
      rw [groupsOf?, some, toList_writeGroups, Text.partsBetween_intercalate notNil apart]
      exact groupsOfParts?_map areGroups

/-! ## The double colon -/

theorem cutAtDoubleColon?_append
    {front : List Char}
    (noColon : ':' ∉ front)
    (rest : List Char) :
    cutAtDoubleColon? (front ++ rest) =
      (cutAtDoubleColon? rest).map fun cut => (front ++ cut.1, cut.2) := by
  induction front with
  | nil =>
      simp
  | cons character others inductionHypothesis =>
      have notColon : character ≠ ':' :=
        (List.ne_of_not_mem_cons noColon).symm
      rw [List.cons_append, cutAtDoubleColon?,
        inductionHypothesis (List.not_mem_of_not_mem_cons noColon), Option.map_map]
      · rfl
      · intro _ isColon
        exact (notColon isColon).elim

theorem exists_head_toDigits (group : Nat) :
    ∃ first rest, Nat.toDigits 16 group = first :: rest ∧ first ≠ ':' := by
  cases digits : Nat.toDigits 16 group with
  | nil =>
      exact (Nat.toDigits_ne_nil digits).elim
  | cons first rest =>
      refine ⟨first, rest, rfl, ?_⟩
      intro isColon
      have noColon : ':' ∉ Nat.toDigits 16 group :=
        colon_not_mem_toDigits (by decide)
      rw [digits, isColon] at noColon
      exact noColon List.mem_cons_self

theorem cutAtDoubleColon?_colon_cons
    {character : Char}
    (notColon : character ≠ ':')
    (rest : List Char) :
    cutAtDoubleColon? (':' :: character :: rest) =
      (cutAtDoubleColon? (character :: rest)).map fun cut => (':' :: cut.1, cut.2) := by
  rw [cutAtDoubleColon?]
  intro after _ same
  exact notColon (List.cons.inj same).1

/-- Colons between groups are single ones. -/
theorem cutAtDoubleColon?_writeGroups
    (groups : List Nat)
    (rest : List Char) :
    cutAtDoubleColon? ((writeGroups groups).toList ++ rest) =
      (cutAtDoubleColon? rest).map fun cut =>
        ((writeGroups groups).toList ++ cut.1, cut.2) := by
  rw [toList_writeGroups]
  induction groups with
  | nil =>
      simp
  | cons group others inductionHypothesis =>
      have noColon : ':' ∉ Nat.toDigits 16 group :=
        colon_not_mem_toDigits (by decide)
      cases others with
      | nil =>
          simpa using cutAtDoubleColon?_append noColon rest
      | cons next further =>
          obtain ⟨first, tail, digits, notColon⟩ := exists_head_toDigits next
          simp only [List.map_cons, digits] at inductionHypothesis ⊢
          simp only [List.intercalate_cons_cons, List.intercalate_cons_cons_left,
            List.append_assoc, List.cons_append, List.nil_append] at inductionHypothesis ⊢
          rw [cutAtDoubleColon?_append noColon, cutAtDoubleColon?_colon_cons notColon,
            inductionHypothesis, Option.map_map, Option.map_map]
          simp [Function.comp_def]

/-! ## The longest run of zeros -/

/-- A run that a zero at a place continues, or starts if the run is empty. -/
def Run.extended (run : Run) (place : Nat) : Run :=
  if run.length = 0 then ⟨place, 1⟩ else ⟨run.start, run.length + 1⟩

/-- The current run of zeros and the longest one, after one more group at a place. -/
def extendRuns (runs : Run × Run) (group : Nat × Nat) : Run × Run :=
  if group.1 = 0 then
    let current := runs.1.extended group.2
    (current, if runs.2.length < current.length then current else runs.2)
  else
    (⟨0, 0⟩, runs.2)

/-- The run of zeros at the end of groups, and the longest one. -/
def zeroRuns (groups : List Nat) : Run × Run :=
  groups.zipIdx.foldl extendRuns (⟨0, 0⟩, ⟨0, 0⟩)

theorem longestZeroRun_eq (groups : List Nat) :
    longestZeroRun groups = (zeroRuns groups).2 :=
  rfl

theorem zeroRuns_concat
    (earlier : List Nat)
    (group : Nat) :
    zeroRuns (earlier ++ [group]) =
      extendRuns (zeroRuns earlier) (group, earlier.length) := by
  simp [zeroRuns, List.zipIdx_append]

/-- In groups there are zeros where a run says, unless it is empty. -/
def Run.IsZeroIn (run : Run) (groups back : List Nat) : Prop :=
  run.length = 0 ∨
    ∃ front, front.length = run.start ∧
      groups = front ++ List.replicate run.length 0 ++ back

/-- Zeros at the end of groups are continued by one more. -/
theorem Run.IsZeroIn.extend
    {run : Run}
    {earlier : List Nat}
    (isZero : run.IsZeroIn earlier []) :
    (run.extended earlier.length).IsZeroIn (earlier ++ [0]) [] := by
  rw [extended]
  rcases isZero with isEmpty | ⟨front, starts, shape⟩
  · rw [if_pos isEmpty]
    exact Or.inr ⟨earlier, rfl, by simp⟩
  · split
    · exact Or.inr ⟨earlier, rfl, by simp⟩
    · refine Or.inr ⟨front, starts, ?_⟩
      rw [shape, List.replicate_succ']
      simp

theorem Run.IsZeroIn.concat
    {run : Run}
    {earlier back : List Nat}
    (isZero : run.IsZeroIn earlier back)
    (group : Nat) :
    run.IsZeroIn (earlier ++ [group]) (back ++ [group]) := by
  rcases isZero with isEmpty | ⟨front, starts, shape⟩
  · exact Or.inl isEmpty
  · exact Or.inr ⟨front, starts, by rw [shape, List.append_assoc]⟩

theorem zeroRuns_isZero (groups : List Nat) :
    (zeroRuns groups).1.IsZeroIn groups [] ∧
      ∃ back, (zeroRuns groups).2.IsZeroIn groups back := by
  induction groups using List.reverseRecOn with
  | nil =>
      exact ⟨Or.inl rfl, [], Or.inl rfl⟩
  | append_singleton earlier group inductionHypothesis =>
      obtain ⟨current, back, longest⟩ := inductionHypothesis
      rw [zeroRuns_concat, extendRuns]
      by_cases isZero : group = 0
      · subst group
        simp only [↓reduceIte]
        refine ⟨current.extend, ?_⟩
        split
        · exact ⟨[], current.extend⟩
        · exact ⟨back ++ [0], longest.concat 0⟩
      · simp only [isZero, ↓reduceIte]
        exact ⟨Or.inl rfl, back ++ [group], longest.concat group⟩

/-- Groups are those before a run of zeros in them, the zeros, and those after it. -/
theorem Run.IsZeroIn.take_append_drop
    {run : Run}
    {groups back : List Nat}
    (isZero : run.IsZeroIn groups back)
    (notEmpty : run.length ≠ 0) :
    groups.take run.start ++ List.replicate run.length 0 ++
        groups.drop (run.start + run.length) =
      groups := by
  obtain ⟨front, starts, rfl⟩ := isZero.resolve_left notEmpty
  have before :
      (front ++ List.replicate run.length 0 ++ back).take run.start = front := by
    rw [List.append_assoc, List.take_left' starts]
  have after :
      (front ++ List.replicate run.length 0 ++ back).drop (run.start + run.length) =
        back :=
    List.drop_left' (by simp [starts])
  rw [before, after]

/-! ## Whole addresses -/

theorem length_groups (bits : BitVec 128) : (groups bits).length = 8 :=
  rfl

theorem lt_of_mem_groups
    {bits : BitVec 128}
    {group : Nat}
    (member : group ∈ groups bits) :
    group < 65536 := by
  obtain ⟨shift, _, rfl⟩ := List.mem_map.mp member
  exact Nat.mod_lt _ (by decide)

theorem ofGroups_groups (bits : BitVec 128) : ofGroups (groups bits) = .v6 bits := by
  have bounded := bits.isLt
  have spelled : ofDigits 65536 (groups bits) = bits.toNat := by
    simp only [groups, ofDigits, List.map_cons, List.map_nil, List.foldl_cons,
      List.foldl_nil, Nat.pow_eq]
    omega
  rw [ofGroups, spelled, BitVec.ofNat_toNat, BitVec.setWidth_eq]

/-- Eight groups come back from a text without a double colon. -/
theorem allGroups?_writeGroups
    {groups : List Nat}
    (eight : groups.length = 8)
    (areGroups : ∀ group ∈ groups, group < 65536) :
    allGroups? (writeGroups groups).toList = some groups := by
  have noCut := cutAtDoubleColon?_writeGroups groups []
  rw [List.append_nil, cutAtDoubleColon?, Option.map_none] at noCut
  rw [allGroups?, noCut]
  simp only
  rw [groupsOf?_writeGroups areGroups]
  simp [eight]

/-- A double colon stands for as many zeros as are missing of eight groups. -/
theorem allGroups?_doubleColon
    {front back : List Nat}
    {zeros : Nat}
    (someZeros : 0 < zeros)
    (eight : front.length + zeros + back.length = 8)
    (frontGroups : ∀ group ∈ front, group < 65536)
    {text : List Char}
    (spelled : groupsOf? text = some back) :
    allGroups? ((writeGroups front).toList ++ ':' :: ':' :: text) =
      some (front ++ List.replicate zeros 0 ++ back) := by
  have cut := cutAtDoubleColon?_writeGroups front (':' :: ':' :: text)
  rw [cutAtDoubleColon?, Option.map_some, List.append_nil] at cut
  have noDot : (writeGroups front).toList.contains '.' = false := by
    simpa using dot_not_mem_writeGroups front
  have missing : 8 - front.length - back.length = zeros := by
    omega
  have few : front.length + back.length < 8 := by
    omega
  rw [allGroups?, cut]
  simp only [noDot, groupsOf?_writeGroups frontGroups, spelled]
  simp [few, missing]

theorem allGroups?_writeShortened
    {groups : List Nat}
    (eight : groups.length = 8)
    (areGroups : ∀ group ∈ groups, group < 65536) :
    allGroups? (writeShortened groups).toList = some groups := by
  rw [writeShortened]
  split
  · next several =>
      obtain ⟨_, back, isZero⟩ := zeroRuns_isZero groups
      rw [← longestZeroRun_eq] at isZero
      generalize longestZeroRun groups = run at several isZero ⊢
      have someZeros : 0 < run.length :=
        Nat.lt_of_succ_lt several
      have restored := isZero.take_append_drop (Nat.ne_of_gt someZeros)
      have counted := congrArg List.length restored
      rw [List.length_append, List.length_append, List.length_replicate, eight] at counted
      have frontGroups : ∀ group ∈ groups.take run.start, group < 65536 :=
        fun group member => areGroups group (List.mem_of_mem_take member)
      have backGroups :
          ∀ group ∈ groups.drop (run.start + run.length), group < 65536 :=
        fun group member => areGroups group (List.mem_of_mem_drop member)
      have readBack :=
        allGroups?_doubleColon someZeros counted frontGroups
          (groupsOf?_writeGroups backGroups)
      rw [restored] at readBack
      simpa [String.toList_append] using readBack
  · exact allGroups?_writeGroups eight areGroups

theorem dot_not_mem_writeShortened (groups : List Nat) :
    '.' ∉ (writeShortened groups).toList := by
  rw [writeShortened]
  split
  · simp [String.toList_append, dot_not_mem_writeGroups]
  · exact dot_not_mem_writeGroups groups

/-! ## Embedded addresses -/

section

variable
  {first second third fourth : Nat}
  (areOctets : ∀ octet ∈ [first, second, third, fourth], octet < 256)

include areOctets

/-- The groups of an embedded address are read from its dotted quad. -/
theorem groupsOf?_embedded :
    groupsOf?
        (['f', 'f', 'f', 'f'] ++
          ':' :: (writeOctets [first, second, third, fourth]).toList) =
      some [65535, first * 256 + second, third * 256 + fourth] := by
  have quad := dottedQuad?_writeOctets rfl areOctets
  have noColon : ':' ∉ (writeOctets [first, second, third, fourth]).toList := by
    rw [toList_writeOctets]
    intro member
    rcases Text.mem_intercalate member with isDot | ⟨part, isPart, inPart⟩
    · cases isDot
    · obtain ⟨octet, _, rfl⟩ := List.mem_map.mp isPart
      exact colon_not_mem_toDigits (by decide) inPart
  have parts :
      Text.partsBetween ':'
          (['f', 'f', 'f', 'f'] ++
            ':' :: (writeOctets [first, second, third, fourth]).toList) =
        [['f', 'f', 'f', 'f'], (writeOctets [first, second, third, fourth]).toList] := by
    rw [Text.partsBetween_eq_splitOn,
      List.splitOn_append_cons_self_of_not_mem (by decide),
      List.splitOn_eq_singleton noColon]
  have ones : group? ['f', 'f', 'f', 'f'] = some 65535 := by
    decide
  rw [groupsOf?, parts]
  simp [groupsOfParts?, quad, ones]

theorem allGroups?_embedded :
    allGroups?
        ([':', ':', 'f', 'f', 'f', 'f', ':'] ++
          (writeOctets [first, second, third, fourth]).toList) =
      some [0, 0, 0, 0, 0, 65535, first * 256 + second, third * 256 + fourth] := by
  have readBack :=
    @allGroups?_doubleColon [] _ 5 (by decide) rfl (by simp) _
      (groupsOf?_embedded areOctets)
  exact readBack

omit areOctets in
/-- An embedded address is no dotted quad as a whole. -/
theorem dottedQuad?_embedded :
    dottedQuad?
        ([':', ':', 'f', 'f', 'f', 'f', ':'] ++
          (writeOctets [first, second, third, fourth]).toList) =
      none := by
  have firstPart :
      octet? ([':', ':', 'f', 'f', 'f', 'f', ':'] ++ Nat.toDigits 10 first) = none := by
    simp [octet?, number?]
  have noDot : ∀ octet, '.' ∉ Nat.toDigits 10 octet :=
    fun _ => dot_not_mem_toDigits (by decide)
  have parts :
      Text.partsBetween '.'
          ([':', ':', 'f', 'f', 'f', 'f', ':'] ++
            (writeOctets [first, second, third, fourth]).toList) =
        ([':', ':', 'f', 'f', 'f', 'f', ':'] ++ Nat.toDigits 10 first) ::
          [second, third, fourth].map (Nat.toDigits 10) := by
    rw [toList_writeOctets, List.map_cons, List.map_cons, List.intercalate_cons_cons,
      ← List.map_cons, List.append_assoc, ← List.append_assoc, List.singleton_append,
      Text.partsBetween_eq_splitOn, List.splitOn_append_cons_self_of_not_mem]
    · congr 1
      exact List.splitOn_intercalate '.' (by simp [noDot]) (by simp)
    · simp [noDot]
  rw [dottedQuad?, parts]
  simp only [List.mapM_cons, firstPart]
  rfl

end

/-- Eight groups that embed an address are six fixed ones and two that hold it. -/
theorem eq_of_embedsOctets
    {groups : List Nat}
    (eight : groups.length = 8)
    (embeds : embedsOctets groups = true) :
    ∃ upper lower, groups = [0, 0, 0, 0, 0, 65535, upper, lower] := by
  have fixed : groups.take 6 = [0, 0, 0, 0, 0, 65535] := by
    simpa [embedsOctets] using embeds
  have two : (groups.drop 6).length = 2 := by
    rw [List.length_drop, eight]
  obtain ⟨upper, lower, held⟩ := List.length_eq_two.mp two
  refine ⟨upper, lower, ?_⟩
  rw [← List.take_append_drop 6 groups, fixed, held]
  rfl

theorem ofChars?_embedded
    {groups : List Nat}
    (eight : groups.length = 8)
    (areGroups : ∀ group ∈ groups, group < 65536)
    (embeds : embedsOctets groups = true) :
    ofChars? ("::ffff:" ++ writeOctets (embeddedOctets groups)).toList =
      some (ofGroups groups) := by
  obtain ⟨upper, lower, rfl⟩ := eq_of_embedsOctets eight embeds
  have upperGroup : upper < 65536 :=
    areGroups upper (by simp)
  have lowerGroup : lower < 65536 :=
    areGroups lower (by simp)
  have areOctets :
      ∀ octet ∈ [upper / 256, upper % 256, lower / 256, lower % 256], octet < 256 := by
    simp only [List.forall_mem_cons, List.not_mem_nil, false_implies, implies_true,
      and_true]
    omega
  have whole : (upper / 256) * 256 + upper % 256 = upper ∧
      (lower / 256) * 256 + lower % 256 = lower := by
    omega
  have readBack := allGroups?_embedded areOctets
  rw [whole.1, whole.2] at readBack
  have mark : "::ffff:".toList = [':', ':', 'f', 'f', 'f', 'f', ':'] := by
    decide
  have held :
      embeddedOctets [0, 0, 0, 0, 0, 65535, upper, lower] =
        [upper / 256, upper % 256, lower / 256, lower % 256] :=
    rfl
  rw [String.toList_append, mark, held, ofChars?, dottedQuad?_embedded, readBack,
    Option.map_some]

/-! ## Every address -/

/-- Every address comes back from its text. -/
theorem parse?_write (address : Address) :
    parse? address.write = some address := by
  cases address with
  | v4 bits =>
      exact ofChars?_writeOctets bits
  | v6 bits =>
      have areGroups : ∀ group ∈ groups bits, group < 65536 :=
        fun _ member => lt_of_mem_groups member
      rw [parse?, write]
      split
      · next embeds =>
          rw [ofChars?_embedded (length_groups bits) areGroups embeds, ofGroups_groups]
      · rw [ofChars?, dottedQuad?_eq_none (dot_not_mem_writeShortened _),
          allGroups?_writeShortened (length_groups bits) areGroups]
        exact congrArg some (ofGroups_groups bits)

end Address

end Retrace
