import Retrace.Analysis.Retransmissions
import Retrace.Proofs.Analysis.Reordering
import Retrace.Proofs.Analysis.Spurious
import Retrace.Proofs.Observer.Collected
import Retrace.Proofs.Sender.NewData
import Retrace.Proofs.Sender.Ranges
namespace Retrace

/-!
# Retransmissions triggered by selective acknowledgments

An observer that collects retransmissions sees each at the state of that moment.
The counters and the ranges in that state are told by the duplicate
acknowledgments before it, and so is what the two observers collect: the one
compares an exact count, up to the threshold of the replay, with the customary
threshold; the other compares the number of duplicates in the same way, and asks
whether the ranges advertised last hold enough segments.
-/

variable {τ : Type}

/-! ## The state at a retransmission -/

/-- Whether an event reports a retransmission. -/
def Event.isRetransmission (event : Event τ) : Bool :=
  match event.notice with
  | .retransmission _ => true
  | _ => false

/-- Retransmissions are sends. -/
theorem filter_isRetransmission (events : List (Event τ)) :
    events.filter Event.isRetransmission =
      (events.filter Event.isSend).filter Event.isRetransmission := by
  rw [List.filter_filter]
  apply List.filter_congr
  rintro ⟨notice, state⟩ _
  cases notice <;> rfl

namespace SenderState

section

variable
  (state : SenderState τ)
  (packet : Packet τ)

@[simp] theorem duplicateAcks_resendState :
    (state.resendState packet).duplicateAcks = state.duplicateAcks := by
  unfold resendState
  split <;> rfl

@[simp] theorem missingCount_resendState (segment : Offset) :
    (state.resendState packet).missingCount segment = state.missingCount segment := by
  unfold resendState
  split <;> rfl

@[simp] theorem sackRanges_resendState :
    (state.resendState packet).sackRanges = state.sackRanges := by
  unfold resendState
  split <;> rfl

end

/-- A packet is reported once as retransmitted if it is, by what the state holds, and else not. -/
theorem Effect.retransmissions_eq
    [Timescale τ]
    {config : ReplayConfig τ}
    {source : Address}
    {state : SenderState τ}
    {packet : Packet τ}
    {outcome : Outcome τ}
    (effect : Effect config source state packet outcome) :
    outcome.events.filter Event.isRetransmission =
      if packet.isSend source ∧
          packet.seq ≤ state.highestSent ∧
          (state.resendEvidence config packet).isTimeout = false then
        [⟨.retransmission packet, state.resendState packet⟩]
      else
        [] := by
  rw [filter_isRetransmission, effect.sendEvents_eq]
  cases packet.isSend source with
  | false =>
      simp
  | true =>
      by_cases above : state.highestSent < packet.seq
      · have notRepeated : ¬ packet.seq ≤ state.highestSent :=
          UInt64.not_le.mpr above
        simp [sendEvent, above, notRepeated, Event.isRetransmission]
      · have repeated : packet.seq ≤ state.highestSent :=
          UInt64.not_lt.mp above
        cases isTimeout : (state.resendEvidence config packet).isTimeout <;>
          simp [sendEvent, above, repeated, isTimeout, Event.isRetransmission]

end SenderState

namespace Run

variable
  [Timescale τ]
  (config : ReplayConfig τ)
  (source : Address)

/-- A packet, after the earlier ones, is reported as retransmitted. -/
def Retransmits (earlier : List (Packet τ)) (packet : Packet τ) : Prop :=
  .retransmission packet ∈ notices config source earlier packet

theorem retransmits_iff
    {earlier : List (Packet τ)}
    {packet : Packet τ} :
    Retransmits config source earlier packet ↔
      packet.isSend source = true ∧
        packet.seq ≤ highestSeq source earlier ∧
        timedOut config source earlier packet = false := by
  rw [Retransmits, mem_sendNotices_iff config source rfl, verdict, ← UInt64.not_lt]
  by_cases above : highestSeq source earlier < packet.seq
  · simp [above]
  · cases timedOut config source earlier packet <;>
      simp [above]

instance (earlier : List (Packet τ)) (packet : Packet τ) :
    Decidable (Retransmits config source earlier packet) :=
  decidable_of_iff _ (retransmits_iff config source).symm

/-- The state that a packet, after the earlier ones, is reported at if it is retransmitted. -/
def resendState (earlier : List (Packet τ)) (packet : Packet τ) : SenderState τ :=
  { state config source earlier with time := packet.time }.resendState packet

theorem retransmissions_next
    (earlier : List (Packet τ))
    (packet : Packet τ) :
    (next config source earlier packet).events.filter Event.isRetransmission =
      if Retransmits config source earlier packet then
        [⟨.retransmission packet, resendState config source earlier packet⟩]
      else
        [] := by
  rw [(next_effect config source earlier packet).retransmissions_eq,
    isTimeout_eq_timedOut, state_highestSent]
  simp only [retransmits_iff, resendState]

end Run

/-! ## What is collected at each packet -/

namespace Observer

theorem filter_reportsWanted
    (wanted : SenderState τ → Packet τ → Bool)
    (events : List (Event τ)) :
    events.filter (reportsWanted wanted) =
      (events.filter Event.isRetransmission).filter (reportsWanted wanted) := by
  rw [List.filter_filter]
  apply List.filter_congr
  rintro ⟨notice, state⟩ _
  cases notice <;>
    simp [reportsWanted, Event.isRetransmission]

section

variable
  [Timescale τ]
  (config : ReplayConfig τ)
  (source : Address)

/-- A packet, after the earlier ones, is added to what an observer has collected. -/
def Collects
    (observer : Observer τ (Array (Packet τ)))
    (earlier : List (Packet τ))
    (packet : Packet τ) :
    Prop :=
  observeReplay config source observer (earlier ++ [packet]) =
    (observeReplay config source observer earlier).push packet

section

variable
  (wanted : SenderState τ → Packet τ → Bool)
  (earlier : List (Packet τ))
  (packet : Packet τ)

/-- One more packet is collected if it is retransmitted at a state that satisfies the condition. -/
theorem observeReplay_concat :
    (observeReplay config source (retransmissionsIf wanted)
        (earlier ++ [packet])).toList =
      (observeReplay config source (retransmissionsIf wanted) earlier).toList ++
        if Run.Retransmits config source earlier packet ∧
            wanted (Run.resendState config source earlier packet) packet then
          [packet]
        else
          [] := by
  simp only [observeReplay, Run.replay_eq, observeAll_retransmissionsIf,
    Run.events_concat, List.filter_append]
  rw [filter_reportsWanted wanted (Run.next config source earlier packet).events,
    Run.retransmissions_next, sentPackets, List.filterMap_append, ← List.append_assoc]
  congr 1
  by_cases retransmits : Run.Retransmits config source earlier packet
  · cases isWanted : wanted (Run.resendState config source earlier packet) packet <;>
      simp [retransmits, isWanted, reportsWanted, Notice.sent?]
  · simp [retransmits]

theorem collects_iff :
    Collects config source (retransmissionsIf wanted) earlier packet ↔
      Run.Retransmits config source earlier packet ∧
        wanted (Run.resendState config source earlier packet) packet = true := by
  rw [Collects, ← Array.toList_inj, observeReplay_concat, Array.toList_push,
    List.append_cancel_left_eq]
  split <;> simp_all

instance :
    Decidable (Collects config source (retransmissionsIf wanted) earlier packet) :=
  decidable_of_iff _ (collects_iff config source wanted earlier packet).symm

end

/-- What an observer collects are the packets it collects one by one, in order. -/
theorem observeReplay_eq_chosenByPast
    (wanted : SenderState τ → Packet τ → Bool)
    (packets : List (Packet τ)) :
    (observeReplay config source (retransmissionsIf wanted) packets).toList =
      Analysis.chosenByPast
        (fun earlier packet =>
          Collects config source (retransmissionsIf wanted) earlier packet)
        packets := by
  induction packets using List.reverseRecOn with
  | nil =>
      rfl
  | append_singleton earlier packet inductionHypothesis =>
      rw [observeReplay_concat, Analysis.chosenByPast_concat, inductionHypothesis]
      simp only [collects_iff]

/-! ## The two observers -/

variable
  {earlier : List (Packet τ)}
  {packet : Packet τ}

/-- Of the segments retransmitted those are collected whose count is the customary threshold. -/
theorem collects_sackRetransmissions_iff :
    Collects config source sackRetransmissions earlier packet ↔
      Run.Retransmits config source earlier packet ∧
        min config.duplicateThreshold
            (inferring config packet.seq (openDuplicates source earlier)) =
          customaryThreshold := by
  rw [sackRetransmissions, collects_iff, Run.resendState,
    SenderState.missingCount_resendState, beq_iff_eq, ← Run.state_missingCount]
  rfl

/--
Of the retransmissions those are collected at which the duplicates are not
counted at the customary threshold and the ranges advertised last hold enough
segments.
-/
theorem collects_earlyRetransmissions_iff :
    Collects config source earlyRetransmissions earlier packet ↔
      Run.Retransmits config source earlier packet ∧
        min config.duplicateThreshold (openDuplicates source earlier).length ≠
            customaryThreshold ∧
          customaryThreshold ≤
            Sack.segmentCount (lastRanges source earlier) customarySegment := by
  rw [earlyRetransmissions, collects_iff, Run.resendState,
    SenderState.duplicateAcks_resendState, SenderState.sackRanges_resendState,
    Bool.and_eq_true, bne_iff_ne, decide_eq_true_iff, ← Run.state_duplicateAcks,
    ← Run.state_sackRanges config]

/-! ## The threshold of the replay -/

/--
The observers go by the threshold up to which the replay counts: at any packet
the one collects the retransmission of a segment counted missing that often, and
the other collects only while fewer duplicates are counted.
-/
structure FollowThreshold (packets : List (Packet τ)) : Prop where
  reached :
    ∀ earlier packet later,
      packets = earlier ++ packet :: later →
        (Collects config source sackRetransmissions earlier packet ↔
          Run.Retransmits config source earlier packet ∧
            config.duplicateThreshold ≤
              (Run.state config source earlier).missingCount packet.seq)
  notReached :
    ∀ earlier packet later,
      packets = earlier ++ packet :: later →
        Collects config source earlyRetransmissions earlier packet →
          (Run.state config source earlier).duplicateAcks <
            config.duplicateThreshold

/--
A retransmission at which one of the thresholds was met: enough duplicates infer
the segment missing, for the replay or just for the customary threshold; or
enough duplicates came, with ranges that hold enough segments.
-/
def MeetsThreshold (earlier : List (Packet τ)) (packet : Packet τ) : Prop :=
  let duplicates := openDuplicates source earlier
  Run.Retransmits config source earlier packet ∧
    (config.duplicateThreshold ≤ inferring config packet.seq duplicates ∨
      inferring config packet.seq duplicates = customaryThreshold ∨
      (config.duplicateThreshold ≤ duplicates.length ∧
        customaryThreshold ≤
          Sack.segmentCount (lastRanges source earlier) customarySegment))

/--
The observers go by the threshold of a replay exactly when that is the customary
one, or no retransmission of the replay meets either.
-/
theorem follow_threshold_iff (packets : List (Packet τ)) :
    FollowThreshold config source packets ↔
      config.duplicateThreshold = customaryThreshold ∨
        ¬ Occurs (MeetsThreshold config source) packets := by
  constructor
  · intro follow
    by_cases customary : config.duplicateThreshold = customaryThreshold
    · exact Or.inl customary
    · right
      rintro ⟨earlier, packet, later, shape, retransmits, met⟩
      have reached := follow.reached earlier packet later shape
      have notReached := follow.notReached earlier packet later shape
      rw [collects_sackRetransmissions_iff, Run.state_missingCount] at reached
      rw [collects_earlyRetransmissions_iff, Run.state_duplicateAcks] at notReached
      -- What is left is about two counts, each cut off at one threshold and held against the other.
      simp only [retransmits, true_and] at reached notReached
      omega
  · intro agree
    have unmet
        (earlier : List (Packet τ))
        (packet : Packet τ)
        (later : List (Packet τ))
        (shape : packets = earlier ++ packet :: later) :
        config.duplicateThreshold = customaryThreshold ∨
          ¬ MeetsThreshold config source earlier packet :=
      agree.imp_right fun never met => never ⟨earlier, packet, later, shape, met⟩
    constructor
    case reached =>
      intro earlier packet later shape
      rw [collects_sackRetransmissions_iff, Run.state_missingCount]
      apply and_congr_right
      intro retransmits
      have unmetHere := unmet earlier packet later shape
      simp only [MeetsThreshold, retransmits, true_and] at unmetHere
      omega
    case notReached =>
      intro earlier packet later shape collects
      rw [collects_earlyRetransmissions_iff] at collects
      obtain ⟨retransmits, notCustomary, enough⟩ := collects
      have unmetHere := unmet earlier packet later shape
      simp only [MeetsThreshold, retransmits, true_and] at unmetHere
      rw [Run.state_duplicateAcks]
      omega

end

/-- Five segments are sent. -/
def fiveSegments : Trace Float :=
  [1, 1447, 2893, 4339, 5785].map Analysis.segmentOf

/-- Four duplicates say that of five segments the first and the third are missing. -/
def fourDuplicates : Trace Float :=
  fiveSegments ++
    Flow.sample.acknowledgment 1 none 0.0 ::
      List.replicate 4
        (Flow.sample.acknowledgment 1 (some [(1447, 2893), (4339, 7231)]) 0.0)

/-- A replay that counts up to four. -/
def upToFour : ReplayConfig Float :=
  { ReplayConfig.standard with duplicateThreshold := 4 }

/--
When all four duplicates that a replay counts infer a segment missing, the
observer of such segments does not collect it, and the other one does.
-/
theorem fourthDuplicate_misjudged :
    let packets := fourDuplicates ++ [Analysis.segmentOf 2893]
    observeReplay upToFour (.v4 1) sackRetransmissions packets = #[] ∧
      observeReplay upToFour (.v4 1) earlyRetransmissions packets =
        #[Analysis.segmentOf 2893] ∧
      ¬ FollowThreshold upToFour (.v4 1) packets := by
  refine ⟨by decide +kernel, by decide +kernel, ?_⟩
  intro follow
  have collects :
      Collects upToFour (.v4 1) earlyRetransmissions fourDuplicates
        (Analysis.segmentOf 2893) := by
    rw [collects_earlyRetransmissions_iff]
    decide +kernel
  have fewer := follow.notReached fourDuplicates (Analysis.segmentOf 2893) [] rfl collects
  revert fewer
  decide +kernel

/-! ## Ranges older than the duplicates that count -/

section

variable
  [Timescale τ]
  (config : ReplayConfig τ)
  (source : Address)

/-- Whatever the second observer collects has a duplicate since the last other acknowledgment. -/
def BackedByDuplicates (packets : List (Packet τ)) : Prop :=
  ∀ earlier packet later,
    packets = earlier ++ packet :: later →
      Collects config source earlyRetransmissions earlier packet →
        openDuplicates source earlier ≠ []

/--
A retransmission without a duplicate since the last other acknowledgment, when
the ranges advertised before that hold enough segments.
-/
def RestsOnOldRanges (earlier : List (Packet τ)) (packet : Packet τ) : Prop :=
  Run.Retransmits config source earlier packet ∧
    openDuplicates source earlier = [] ∧
      customaryThreshold ≤
        Sack.segmentCount (lastRanges source earlier) customarySegment

/-- All that is collected has a duplicate behind it unless something rests on old ranges. -/
theorem backed_by_duplicates_iff (packets : List (Packet τ)) :
    BackedByDuplicates config source packets ↔
      ¬ Occurs (RestsOnOldRanges config source) packets := by
  constructor
  · rintro backed ⟨earlier, packet, later, shape, retransmits, noDuplicate, enough⟩
    -- No duplicates at all are just as far from the customary threshold as too few are.
    refine backed earlier packet later shape ?_ noDuplicate
    rw [collects_earlyRetransmissions_iff, noDuplicate, List.length_nil, Nat.min_zero]
    exact ⟨retransmits, by decide, enough⟩
  · intro never earlier packet later shape collects noDuplicate
    rw [collects_earlyRetransmissions_iff] at collects
    exact never
      ⟨earlier, packet, later, shape, collects.1, noDuplicate, collects.2.2⟩

end

/-- One duplicate says that the first of five segments is missing; then four are acknowledged. -/
def fourAcknowledged : Trace Float :=
  fiveSegments ++
    [Flow.sample.acknowledgment 1 none 0.0,
      Flow.sample.acknowledgment 1 (some [(1447, 5785)]) 0.0,
      Flow.sample.acknowledgment 5785 none 0.0]

/-- The fifth segment, sent again without any duplicate, is collected for the ranges of before. -/
theorem oldRanges_collected :
    let packets := fourAcknowledged ++ [Analysis.segmentOf 5785]
    observeReplay ReplayConfig.standard (.v4 1) earlyRetransmissions packets =
        #[Analysis.segmentOf 5785] ∧
      ¬ BackedByDuplicates ReplayConfig.standard (.v4 1) packets := by
  refine ⟨by decide +kernel, ?_⟩
  intro backed
  have collects :
      Collects ReplayConfig.standard (.v4 1) earlyRetransmissions fourAcknowledged
        (Analysis.segmentOf 5785) := by
    rw [collects_earlyRetransmissions_iff]
    decide +kernel
  refine backed fourAcknowledged (Analysis.segmentOf 5785) [] rfl collects ?_
  decide

end Observer

namespace Analysis

/--
The analysis of retransmissions triggered by selective acknowledgments reports
what three duplicates or more, since the last other acknowledgment, infer
missing.
-/
theorem sackFastRetransmits_exact (sender : Trace Float) (source : Address) :
    sackFastRetransmits sender source =
      chosenByPast
        (fun earlier packet =>
          Run.Retransmits ReplayConfig.standard source earlier packet ∧
            3 ≤
              inferring ReplayConfig.standard packet.seq
                (openDuplicates source earlier))
        sender := by
  have exactCount (count : Nat) :
      min ReplayConfig.standard.duplicateThreshold count =
          Observer.customaryThreshold ↔
        3 ≤ count :=
    min_eq_left_iff
  rw [sackFastRetransmits, Observer.sackRetransmissions,
    Observer.observeReplay_eq_chosenByPast]
  apply chosenByPast_congr
  intro earlier packet
  rw [← Observer.sackRetransmissions, Observer.collects_sackRetransmissions_iff, exactCount]

end Analysis

end Retrace
