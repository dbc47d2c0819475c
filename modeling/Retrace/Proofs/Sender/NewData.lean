import Retrace.Proofs.Sender.Classification
namespace Retrace

/-!
# New data and data sent again

Whether a send is reported as new or as sent again depends on the highest number
sent alone, which rises exactly when new data is reported.  With that the marks
of a run are told by its history, and data sent again has an original: something
at or above it that was reported as new before.  The one exception is data at
offset zero before anything above it was sent, since a run that has sent nothing
yet has zero for its highest number.
-/

variable {τ : Type}

/-- The first data sent, if there is any, does not begin at offset zero. -/
def StartsAboveZero (source : Address) (packets : List (Packet τ)) : Prop :=
  ∀ first ∈ (sends source packets).head?, first.seq ≠ 0

section

variable
  {source : Address}
  {packets earlier later : List (Packet τ)}
  {packet first : Packet τ}

theorem sends_append_cons
    (isSend : packet.isSend source = true) :
    sends source (earlier ++ packet :: later) =
      sends source earlier ++ packet :: sends source later := by
  simp [sends, isSend]

/-- The first data sent is a send before which nothing was sent. -/
theorem head?_sends_eq_some_iff :
    (sends source packets).head? = some first ↔
      ∃ earlier later,
        packets = earlier ++ first :: later ∧
          sends source earlier = [] ∧
          first.isSend source = true := by
  simp only [sends, List.head?_filter, List.find?_eq_some_iff_append,
    List.filter_eq_nil_iff]
  constructor
  · rintro ⟨isSend, earlier, later, shape, noSends⟩
    exact ⟨earlier, later, shape, by simpa using noSends, isSend⟩
  · rintro ⟨earlier, later, shape, noSends, isSend⟩
    exact ⟨isSend, earlier, later, shape, by simpa using noSends⟩

/-- Data is sent again below a highest number above zero, if the first data sent lay above it. -/
theorem StartsAboveZero.highestSeq_pos
    (aboveZero : StartsAboveZero source (earlier ++ packet :: later))
    (isSend : packet.isSend source = true)
    (repeated : packet.seq ≤ highestSeq source earlier) :
    0 < highestSeq source earlier := by
  rw [StartsAboveZero, sends_append_cons isSend] at aboveZero
  apply UInt64.pos_iff_ne_zero.mpr
  intro isZero
  rw [isZero] at repeated
  cases sent : sends source earlier with
  | nil =>
      rw [sent] at aboveZero
      exact aboveZero packet rfl (UInt64.le_zero_iff.mp repeated)
  | cons first rest =>
      rw [sent] at aboveZero
      have below : first.seq ≤ highestSeq source earlier := by
        apply Offset.le_highest
        rw [sent]
        exact List.mem_cons_self
      rw [isZero] at below
      exact aboveZero first rfl (UInt64.le_zero_iff.mp below)

end

namespace Run

section

variable
  [Timescale τ]
  (config : ReplayConfig τ)
  (source : Address)

theorem mem_sendNotices_iff
    {earlier : List (Packet τ)}
    {packet : Packet τ}
    {notice : Notice τ}
    (isSent : notice.sent?.isSome = true) :
    notice ∈ notices config source earlier packet ↔
      packet.isSend source = true ∧ verdict config source earlier packet = notice := by
  have among :
      notice ∈ notices config source earlier packet ↔
        notice ∈ sendNotices (next config source earlier packet).events := by
    simp [sendNotices, notices, List.mem_filter, isSent]
  rw [among, sendNotices_next]
  cases packet.isSend source <;>
    simp [eq_comm]

/-- New data is reported exactly of a send above the highest number sent. -/
theorem newSend_mem_iff
    {earlier : List (Packet τ)}
    {packet sent : Packet τ} :
    .newSend sent ∈ notices config source earlier packet ↔
      sent = packet ∧
        packet.isSend source = true ∧
        highestSeq source earlier < packet.seq := by
  rw [mem_sendNotices_iff config source rfl, verdict]
  by_cases above : highestSeq source earlier < packet.seq
  · simp only [above, ↓reduceIte, Notice.newSend.injEq, and_true]
    constructor
    · rintro ⟨isSend, same⟩
      exact ⟨same.symm, isSend⟩
    · rintro ⟨same, isSend⟩
      exact ⟨isSend, same.symm⟩
  · cases timedOut config source earlier packet <;>
      simp [above]

/-- Data sent again is reported exactly of a send not above the highest number sent. -/
theorem resent_mem_iff
    {earlier : List (Packet τ)}
    {packet resent : Packet τ} :
    (.retransmission resent ∈ notices config source earlier packet ∨
        .timeout resent ∈ notices config source earlier packet) ↔
      resent = packet ∧
        packet.isSend source = true ∧
        packet.seq ≤ highestSeq source earlier := by
  rw [mem_sendNotices_iff config source rfl, mem_sendNotices_iff config source rfl,
    verdict, ← UInt64.not_lt]
  by_cases above : highestSeq source earlier < packet.seq
  · simp [above]
  · cases timedOut config source earlier packet <;>
      simp [above, and_comm, eq_comm (a := packet)]

/-! ## Marks told by the history -/

/--
The marks of a run are what its history says.

The two highest numbers are those of the sends and of the acknowledgments so
far; neither ever falls, and the highest number sent rises exactly when new data
is reported.  The two times are those of the last acknowledgment and of the last
send, of whatever kind they were.  The sequence numbers with a time are those
that were sent, each with the time it was last sent.
-/
structure TellsHistory : Prop where
  highestSent :
    ∀ packets : List (Packet τ),
      (state config source packets).highestSent = highestSeq source packets
  highestAcked :
    ∀ packets : List (Packet τ),
      (state config source packets).highestAcked = highestAck source packets
  neverFalls :
    ∀ earlier later : List (Packet τ),
      (state config source earlier).highestSent ≤
          (state config source (earlier ++ later)).highestSent ∧
        (state config source earlier).highestAcked ≤
          (state config source (earlier ++ later)).highestAcked
  rises :
    ∀ (earlier : List (Packet τ)) (packet : Packet τ),
      (state config source earlier).highestSent <
          (state config source (earlier ++ [packet])).highestSent ↔
        ∃ sent, .newSend sent ∈ notices config source earlier packet
  lastAckTime :
    ∀ packets : List (Packet τ),
      (state config source packets).lastAckTime = lastAckTime source packets
  lastSendTime :
    ∀ packets : List (Packet τ),
      (state config source packets).lastSendTime = lastSendTime source packets
  sentSeqs :
    ∀ (packets : List (Packet τ)) (seq : Offset),
      seq ∈ (state config source packets).sentTimes ↔
        ∃ packet ∈ sends source packets, packet.seq = seq
  sentTimes :
    ∀ (packets : List (Packet τ)) (seq : Offset),
      (state config source packets).sentTimes[seq]? = lastSent? source packets seq

/-- The marks of every run are what its history says. -/
theorem marks_tell_history : TellsHistory config source := by
  constructor
  case highestSent =>
    exact state_highestSent config source
  case highestAcked =>
    exact state_highestAcked config source
  case neverFalls =>
    intro earlier later
    simp only [state_highestSent, state_highestAcked]
    exact ⟨highestSeq_le_append source earlier later,
      highestAck_le_append source earlier later⟩
  case rises =>
    intro earlier packet
    simp only [state_highestSent, newSend_mem_iff, exists_eq_left]
    exact highestSeq_lt_concat_iff
  case lastAckTime =>
    exact state_lastAckTime config source
  case lastSendTime =>
    exact state_lastSendTime config source
  case sentSeqs =>
    intro packets seq
    simp only [state_sentTimes]
    exact mem_sentTimes source packets seq
  case sentTimes =>
    intro packets seq
    simp only [state_sentTimes]
    exact getElem?_sentTimes source packets seq

/-! ## Originals of data sent again -/

/-- Something at or above a packet was reported as new data. -/
def HasOriginal (past : List (Event τ)) (packet : Packet τ) : Prop :=
  ∃ original,
    .newSend original ∈ past.map Event.notice ∧ packet.seq ≤ original.seq

/-- Whatever is reported as sent again has an original among the events before. -/
def ResendsHaveOriginals (packets : List (Packet τ)) : Prop :=
  ∀ (earlier : List (Packet τ)) (packet : Packet τ) (later : List (Packet τ)),
    packets = earlier ++ packet :: later →
      ∀ resent,
        .retransmission resent ∈ notices config source earlier packet ∨
            .timeout resent ∈ notices config source earlier packet →
          HasOriginal (events config source earlier) resent

/-- The first data sent is reported as new. -/
def FirstSendIsNew (packets : List (Packet τ)) : Prop :=
  ∀ (earlier : List (Packet τ)) (packet : Packet τ) (later : List (Packet τ)),
    packets = earlier ++ packet :: later →
      sends source earlier = [] →
      packet.isSend source = true →
        .newSend packet ∈ notices config source earlier packet

/-- What is reported as new data was sent. -/
theorem mem_sends_of_newSend
    {packets : List (Packet τ)}
    {sent : Packet τ}
    (told : .newSend sent ∈ (events config source packets).map Event.notice) :
    sent ∈ sends source packets := by
  induction packets using List.reverseRecOn with
  | nil =>
      exact (List.not_mem_nil told).elim
  | append_singleton earlier packet inductionHypothesis =>
      simp only [events_concat, List.map_append, List.mem_append] at told
      rcases told with before | now
      · have sentBefore := List.mem_filter.mp (inductionHypothesis before)
        exact List.mem_filter.mpr
          ⟨List.mem_append_left _ sentBefore.1, sentBefore.2⟩
      · obtain ⟨same, isSend, _⟩ := (newSend_mem_iff config source).mp now
        subst same
        exact List.mem_filter.mpr ⟨by simp, isSend⟩

/-- The highest number sent, unless it is zero, was reported as new data. -/
theorem exists_newSend
    {packets : List (Packet τ)}
    (positive : 0 < highestSeq source packets) :
    ∃ original,
      .newSend original ∈ (events config source packets).map Event.notice ∧
        original.seq = highestSeq source packets := by
  induction packets using List.reverseRecOn with
  | nil =>
      exact (UInt64.lt_irrefl 0 positive).elim
  | append_singleton earlier packet inductionHypothesis =>
      simp only [events_concat, List.map_append, List.mem_append]
      by_cases rises : highestSeq source earlier < highestSeq source (earlier ++ [packet])
      · obtain ⟨isSend, above⟩ := highestSeq_lt_concat_iff.mp rises
        refine ⟨packet, Or.inr ?_, ?_⟩
        · exact (newSend_mem_iff config source).mpr ⟨rfl, isSend, above⟩
        · rw [highestSeq_concat, if_pos isSend,
            Offset.max_eq_right (UInt64.le_of_lt above)]
      · have same :
            highestSeq source earlier = highestSeq source (earlier ++ [packet]) :=
          UInt64.le_antisymm (highestSeq_le_append source earlier [packet])
            (UInt64.not_lt.mp rises)
        rw [← same] at positive ⊢
        obtain ⟨original, told, highest⟩ := inductionHypothesis positive
        exact ⟨original, Or.inl told, highest⟩

/-- As long as nothing was sent, no data has an original. -/
theorem not_hasOriginal_of_no_sends
    {earlier : List (Packet τ)}
    (noSends : sends source earlier = [])
    (packet : Packet τ) :
    ¬ HasOriginal (events config source earlier) packet := by
  rintro ⟨original, told, _⟩
  have sent := mem_sends_of_newSend config source told
  rw [noSends] at sent
  exact List.not_mem_nil sent

/--
When data sent again has an original.

In a run all data sent again has one exactly when the first data sent, if there
is any, does not begin at offset zero; and exactly then that is reported as new.
-/
theorem resends_have_originals_iff (packets : List (Packet τ)) :
    (ResendsHaveOriginals config source packets ↔ StartsAboveZero source packets) ∧
      (FirstSendIsNew config source packets ↔ StartsAboveZero source packets) := by
  refine ⟨⟨?_, ?_⟩, ⟨?_, ?_⟩⟩
  · intro haveOriginals first isFirst isZero
    obtain ⟨earlier, later, shape, noSends, isSend⟩ :=
      head?_sends_eq_some_iff.mp isFirst
    have repeated : first.seq ≤ highestSeq source earlier := by
      rw [isZero]
      exact UInt64.zero_le
    have resent :
        .retransmission first ∈ notices config source earlier first ∨
          .timeout first ∈ notices config source earlier first :=
      (resent_mem_iff config source).mpr ⟨rfl, isSend, repeated⟩
    exact not_hasOriginal_of_no_sends config source noSends first
      (haveOriginals earlier first later shape first resent)
  · intro aboveZero earlier packet later shape resent told
    obtain ⟨rfl, isSend, repeated⟩ := (resent_mem_iff config source).mp told
    subst shape
    obtain ⟨original, toldNew, highest⟩ :=
      exists_newSend config source (aboveZero.highestSeq_pos isSend repeated)
    refine ⟨original, toldNew, ?_⟩
    rw [highest]
    exact repeated
  · intro firstIsNew first isFirst isZero
    obtain ⟨earlier, later, shape, noSends, isSend⟩ :=
      head?_sends_eq_some_iff.mp isFirst
    have told := firstIsNew earlier first later shape noSends isSend
    obtain ⟨_, _, above⟩ := (newSend_mem_iff config source).mp told
    rw [isZero] at above
    exact UInt64.not_lt_zero above
  · intro aboveZero earlier first later shape noSends isSend
    have isFirst :=
      head?_sends_eq_some_iff.mpr ⟨earlier, later, shape, noSends, isSend⟩
    have nothingBefore : highestSeq source earlier = 0 := by
      rw [highestSeq, noSends]
      rfl
    refine (newSend_mem_iff config source).mpr ⟨rfl, isSend, ?_⟩
    rw [nothingBefore]
    exact UInt64.pos_iff_ne_zero.mpr (aboveZero first isFirst)

end

/-- A segment of data at offset zero. -/
def zeroSegment : Packet Float :=
  Flow.sample.segment 0 0.0

/-- The first data sent is reported as retransmitted if it begins at offset zero. -/
theorem zeroSegment_retransmitted :
    ¬ ResendsHaveOriginals ReplayConfig.standard (.v4 1) [zeroSegment] := by
  intro haveOriginals
  have told :
      .retransmission zeroSegment ∈
        notices ReplayConfig.standard (.v4 1) [] zeroSegment := by
    decide +kernel
  exact not_hasOriginal_of_no_sends ReplayConfig.standard (.v4 1) rfl zeroSegment
    (haveOriginals [] zeroSegment [] rfl zeroSegment (Or.inl told))

end Run

end Retrace
