import Retrace.CommandLine.Report
import Retrace.Proofs.Json.Fields
import Retrace.Proofs.Json.Layer
import Retrace.Proofs.Sender.Grammar
namespace Retrace

/-!
# Event logs read back

The members of an entry's kind stand in one object with its time and the name of
the kind.  No two of these names are the same, so each member is found under its
own name whatever stands beside it, and the name of the kind tells which members
to look for.  Given a JSON library that reads back what it writes, an entry is
read back exactly when its time is finite; in the log of a replay every time is
that of a packet.
-/

open JsonLayer (IsWritten IsText)

variable {Value : Type} [JsonLayer Value]

/-! ## Ranges -/

namespace ByteRange

section

variable (readsBack : JsonLayer.ReadsBack Value)

include readsBack

theorem decode?_encode (range : ByteRange) :
    decode? (range.encode : Value) = some range := by
  have read :
      JsonLayer.fields? ["start", "end"] (range.encode : Value) =
        some [some (JsonLayer.ofNat range.start.toNat), some (JsonLayer.ofNat range.stop.toNat)] :=
    Json.fields?_written readsBack
      [("start", some (JsonLayer.ofNat range.start.toNat)),
        ("end", some (JsonLayer.ofNat range.stop.toNat))]
      (by simp)
  simp [decode?, read, Json.required?, readsBack.uint64]

theorem list?_encode (ranges : List ByteRange) :
    JsonLayer.list? decode? (JsonLayer.ofItems (ranges.map encode) : Value) = some ranges := by
  rw [readsBack.list]
  exact mapM_map_eq_some fun range _ => decode?_encode readsBack range

end

theorem isWritten_encode (levels : Nat) (range : ByteRange) :
    IsWritten (levels + 1) (range.encode : Value) :=
  .ofMembers (by simp [IsWritten.uint64])

end ByteRange

/-! ## Kinds -/

namespace EntryKind

variable {kind : EntryKind}

theorem name_mem_names (kind : EntryKind) : kind.name ∈ names := by
  cases kind <;> simp [name, names]

theorem isWritten_of_mem_members
    (levels : Nat)
    {member : String × Value}
    (isMember : member ∈ kind.members) :
    IsWritten (levels + 2) member.2 := by
  cases kind with
  | sackChange ranges =>
      obtain rfl := List.mem_singleton.mp isMember
      exact .ofItems (List.forall_mem_map.mpr fun range _ => range.isWritten_encode levels)
  | duplicatesCleared => cases isMember
  | duplicateAck number duplicateAcks =>
      rcases List.mem_pair.mp isMember with rfl | rfl
      · exact .uint64 _ number
      · exact .uint32 _ duplicateAcks
  | retransmission first second
  | recoveryEntered first second =>
      rcases List.mem_pair.mp isMember with rfl | rfl
      · exact .uint64 _ first
      · exact .uint64 _ second
  | newSend number
  | timeout number
  | ack number
  | scoreboardAdd number
  | recoveryLeft number =>
      obtain rfl := List.mem_singleton.mp isMember
      exact .uint64 _ number

section

variable
  (readsBack : JsonLayer.ReadsBack Value)
  {members : List (String × Value)}
  (distinct : (members.map Prod.fst).Nodup)

include readsBack distinct

theorem member?_of_mem
    {α : Type}
    {member : String × Value}
    (isMember : member ∈ members)
    (value? : Value → Option α) :
    member? value? member.1 (JsonLayer.ofMembers members) = value? member.2 := by
  rw [member?, readsBack.member, Json.field?_of_mem distinct isMember]
  rfl

/-- A kind is read back under its name, whatever other members there are. -/
theorem ofMembers?_name
    (present : kind.members ⊆ members) :
    ofMembers? (JsonLayer.ofMembers members) kind.name = some kind := by
  have found {α : Type} (value? : Value → Option α) :
      ∀ member ∈ kind.members,
        member? value? member.1 (JsonLayer.ofMembers members) = value? member.2 :=
    fun member isMember => member?_of_mem readsBack distinct (present isMember) value?
  have word := found JsonLayer.uint64?
  cases kind with
  | sackChange ranges =>
      have read := found (JsonLayer.list? ByteRange.decode?)
      simp only [EntryKind.members, List.forall_mem_singleton] at read
      simp [name, ofMembers?, read, ByteRange.list?_encode readsBack]
  | duplicatesCleared => rfl
  | duplicateAck number duplicateAcks =>
      have half := found JsonLayer.uint32?
      simp only [EntryKind.members, List.forall_mem_cons] at word half
      simp [name, ofMembers?, word.1, half.2, readsBack.uint64, readsBack.uint32]
  | retransmission first second
  | recoveryEntered first second =>
      simp only [EntryKind.members, List.forall_mem_cons] at word
      simp [name, ofMembers?, word.1, word.2, readsBack.uint64]
  | newSend number
  | timeout number
  | ack number
  | scoreboardAdd number
  | recoveryLeft number =>
      simp only [EntryKind.members, List.forall_mem_singleton] at word
      simp [name, ofMembers?, word, readsBack.uint64]

end

end EntryKind

/-! ## Entries -/

namespace LogEntry

variable (entry : LogEntry Float)

/-- The members of an entry. -/
def members : List (String × Value) :=
  ("t", JsonLayer.ofFloat entry.time) :: ("kind", JsonLayer.ofText entry.kind.name) ::
    entry.kind.members

theorem encode_eq :
    (entry.encode JsonLayer.ofFloat : Value) = JsonLayer.ofMembers entry.members :=
  rfl

/-- No member of a kind is named like the time or the kind itself, or like another member. -/
theorem nodup_names :
    ((entry.members : List (String × Value)).map Prod.fst).Nodup := by
  rw [members]
  cases entry.kind <;> simp [EntryKind.members]

theorem isWritten_encode (levels : Nat) :
    IsWritten (levels + 3) (entry.encode JsonLayer.ofFloat : Value) := by
  rw [encode_eq]
  apply IsWritten.ofMembers
  rw [members]
  simp only [List.forall_mem_cons]
  exact ⟨.ofFloat entry.time, .ofText entry.kind.name,
    fun member isMember => EntryKind.isWritten_of_mem_members levels isMember⟩

section

variable (readsBack : JsonLayer.ReadsBack Value)

include readsBack

/-- An entry is read back exactly when its time is finite. -/
theorem decode?_encode :
    decode? (entry.encode JsonLayer.ofFloat : Value) =
      if entry.time.isFinite then some entry else none := by
  have distinct : ((entry.members : List (String × Value)).map Prod.fst).Nodup :=
    entry.nodup_names
  have time :
      EntryKind.member? JsonLayer.float? "t" (JsonLayer.ofMembers entry.members : Value) =
        JsonLayer.float? (JsonLayer.ofFloat entry.time : Value) :=
    EntryKind.member?_of_mem readsBack distinct (List.mem_cons_self ..) JsonLayer.float?
  have name :
      EntryKind.member? (JsonLayer.name? EntryKind.names) "kind"
          (JsonLayer.ofMembers entry.members : Value) =
        JsonLayer.name? EntryKind.names (JsonLayer.ofText entry.kind.name : Value) :=
    EntryKind.member?_of_mem readsBack distinct
      (List.mem_cons_of_mem _ (List.mem_cons_self ..)) (JsonLayer.name? EntryKind.names)
  have kind :
      EntryKind.ofMembers? (JsonLayer.ofMembers entry.members : Value) entry.kind.name =
        some entry.kind :=
    EntryKind.ofMembers?_name readsBack distinct fun member isMember =>
      List.mem_cons_of_mem _ (List.mem_cons_of_mem _ isMember)
  rw [readsBack.name _ _ entry.kind.name_mem_names] at name
  rw [encode_eq, decode?]
  cases finite : entry.time.isFinite with
  | true => simp [time, name, kind, readsBack.float _ finite]
  | false => simp [time, readsBack.noFloat _ finite]

/-- Whatever object an entry is read from, its time is finite. -/
theorem isFinite_of_decode?
    {entry : LogEntry Float}
    {value : Value}
    (read : decode? value = some entry) :
    entry.time.isFinite = true := by
  simp only [decode?, EntryKind.member?, Json.required?, Option.bind_eq_bind,
    Option.bind_eq_some_iff, Option.pure_def, Option.some.injEq] at read
  obtain ⟨time, ⟨_, _, spelled, _, timeRead⟩, _, _, kind, _, rfl⟩ := read
  exact readsBack.isFinite spelled time timeRead

end

end LogEntry

/-! ## Logs -/

namespace EventLog

variable {log : List (LogEntry Float)}

theorem isWritten_encode (levels : Nat) (log : List (LogEntry Float)) :
    IsWritten (levels + 4) (encode JsonLayer.ofFloat log : Value) :=
  .ofItems (List.forall_mem_map.mpr fun entry _ => entry.isWritten_encode levels)

section

variable (readsBack : JsonLayer.ReadsBack Value)

include readsBack

/-- From the document of a log nothing but the log is read, and that only of finite times. -/
theorem decode?_encode_iff {read : List (LogEntry Float)} :
    decode? (encode JsonLayer.ofFloat log : Value) = some read ↔
      read = log ∧ ∀ entry ∈ log, entry.time.isFinite = true := by
  rw [decode?, encode, readsBack.list]
  constructor
  · intro isRead
    have each := List.forall₂_map_left_iff.mp (forall₂_of_mapM isRead)
    have same :
        List.Forall₂ (fun entry value => entry.time.isFinite = true ∧ entry = value)
          log read := by
      apply each.imp
      intro entry value entryRead
      rw [LogEntry.decode?_encode _ readsBack, Option.ite_none_right_eq_some] at entryRead
      exact entryRead.imp_right Option.some.inj
    obtain ⟨finite, isLog⟩ := (List.forall₂_and_left log read).mp same
    exact ⟨(List.forall₂_eq_eq_eq ▸ isLog : log = read).symm, finite⟩
  · rintro ⟨rfl, finite⟩
    apply mapM_map_eq_some
    intro entry isEntry
    rw [LogEntry.decode?_encode _ readsBack, if_pos (finite entry isEntry)]

/-- Whatever document a log is read from, its times are finite. -/
theorem isFinite_of_decode?
    {document : Value}
    (read : decode? document = some log) :
    ∀ entry ∈ log, entry.time.isFinite = true := by
  intro entry isEntry
  obtain ⟨part, partRead⟩ := readsBack.item LogEntry.decode? document log read entry isEntry
  exact LogEntry.isFinite_of_decode? readsBack partRead

/-- The text that either printer writes for a log holds the log. -/
theorem parse?_text
    (finite : ∀ entry ∈ log, entry.time.isFinite = true)
    {text : String}
    (isText : IsText (encode JsonLayer.ofFloat log : Value) text) :
    parse? text Value = some log := by
  rw [parse?, readsBack.parseWhole _ _ (isWritten_encode 123 log) isText, Option.bind_some,
    decode?_encode_iff readsBack]
  exact ⟨rfl, finite⟩

end

end EventLog

/-! ## Logs of replays -/

variable {τ : Type}

theorem Observer.toList_observeAll_eventLog
    (log : Array (LogEntry τ))
    (events : List (Event τ)) :
    (eventLog.observeAll log events).toList = log.toList ++ events.map Event.logEntry := by
  induction events generalizing log with
  | nil => simp [observeAll]
  | cons event events inductionHypothesis =>
      rw [observeAll, List.foldl_cons, ← observeAll, inductionHypothesis]
      simp [eventLog]

section

variable
  [Timescale τ]
  (config : ReplayConfig τ)
  (source : Address)

/-- The log of a replay has an entry for every event, in order. -/
theorem eventLog_replayed (packets : List (Packet τ)) :
    (observeReplay config source Observer.eventLog packets).toList =
      (Run.events config source packets).map Event.logEntry := by
  rw [observeReplay, Run.replay_eq, Observer.toList_observeAll_eventLog]
  rfl

/-- Every event of a run is at the time of one of its packets. -/
theorem Run.time_of_mem_events (packets : List (Packet τ)) :
    ∀ event ∈ events config source packets,
      ∃ packet ∈ packets, event.state.time = packet.time := by
  induction packets using List.reverseRecOn with
  | nil => simp
  | append_singleton earlier packet inductionHypothesis =>
      intro event isEvent
      rw [events_concat] at isEvent
      rcases List.mem_append.mp isEvent with isEarlier | isNext
      · obtain ⟨origin, isOrigin, same⟩ := inductionHypothesis event isEarlier
        exact ⟨origin, List.mem_append_left _ isOrigin, same⟩
      · exact ⟨packet, List.mem_concat_self,
          (next_effect config source earlier packet).time event isNext⟩

theorem exists_packet_of_mem_eventLog (packets : List (Packet τ)) :
    ∀ entry ∈ (observeReplay config source Observer.eventLog packets).toList,
      ∃ packet ∈ packets, entry.time = packet.time := by
  intro entry isEntry
  rw [eventLog_replayed] at isEntry
  obtain ⟨event, isEvent, rfl⟩ := List.mem_map.mp isEntry
  exact Run.time_of_mem_events config source packets event isEvent

end

/-- Times of a replay's log are finite where those of the packets are. -/
theorem isFinite_of_mem_eventLog
    (config : ReplayConfig Float)
    (source : Address)
    {packets : List (Packet Float)}
    (finite : ∀ packet ∈ packets, packet.time.isFinite = true) :
    ∀ entry ∈ (observeReplay config source Observer.eventLog packets).toList,
      entry.time.isFinite = true := by
  intro entry isEntry
  obtain ⟨packet, isPacket, same⟩ :=
    exists_packet_of_mem_eventLog config source packets entry isEntry
  rw [same]
  exact finite packet isPacket

/--
Event logs survive being written and read.

An entry of any kind is read back exactly when its time is finite.  From the
document of a log nothing but that log is ever read, entry by entry, and it is
read exactly when all its times are finite; then either text of it holds it,
too.  So it is with the log of every replay of packets with finite times, and
with what the program writes to its file of events.  Whatever text a log is read
from, its own texts hold the same.
-/
structure EventLogsReadBack (Value : Type) [JsonLayer Value] : Prop where
  entry :
    ∀ entry : LogEntry Float,
      LogEntry.decode? (entry.encode JsonLayer.ofFloat : Value) =
        if entry.time.isFinite then some entry else none
  document :
    ∀ log read : List (LogEntry Float),
      EventLog.decode? (EventLog.encode JsonLayer.ofFloat log : Value) = some read ↔
        read = log ∧ ∀ entry ∈ log, entry.time.isFinite = true
  text :
    ∀ log : List (LogEntry Float), (∀ entry ∈ log, entry.time.isFinite = true) →
      ∀ text, IsText (EventLog.encode JsonLayer.ofFloat log : Value) text →
        EventLog.parse? text Value = some log
  replayed :
    ∀ (config : ReplayConfig Float) (source : Address) (packets : List (Packet Float)),
      (∀ packet ∈ packets, packet.time.isFinite = true) →
      ∀ text,
        IsText (EventLog.encode JsonLayer.ofFloat
          (observeReplay config source Observer.eventLog packets).toList : Value) text →
        EventLog.parse? text Value =
          some (observeReplay config source Observer.eventLog packets).toList
  reported :
    ∀ run : FlowRun, (∀ packet ∈ run.sender, packet.time.isFinite = true) →
      EventLog.parse? (CommandLine.Report.eventsText run Value) Value =
        some (run.observe Observer.eventLog).toList
  again :
    ∀ accepted log, EventLog.parse? accepted Value = some log →
      ∀ text, IsText (EventLog.encode JsonLayer.ofFloat log : Value) text →
        EventLog.parse? text Value = EventLog.parse? accepted Value

/-- Event logs survive being written and read by a library that reads back what it writes. -/
theorem event_logs_read_back (readsBack : JsonLayer.ReadsBack Value) :
    EventLogsReadBack Value := by
  constructor
  case entry =>
    intro entry
    exact entry.decode?_encode readsBack
  case document =>
    intro log read
    exact EventLog.decode?_encode_iff readsBack
  case text =>
    intro log finite text isText
    exact EventLog.parse?_text readsBack finite isText
  case replayed =>
    intro config source packets finite text isText
    exact EventLog.parse?_text readsBack (isFinite_of_mem_eventLog config source finite) isText
  case reported =>
    intro run finite
    have finiteLog := isFinite_of_mem_eventLog run.config run.flow.source finite
    exact EventLog.parse?_text readsBack finiteLog .pretty
  case again =>
    intro accepted log read text isText
    obtain ⟨document, _, decoded⟩ := Option.bind_eq_some_iff.mp read
    have finite := EventLog.isFinite_of_decode? readsBack decoded
    rw [read, EventLog.parse?_text readsBack finite isText]

/-- A duplicate with a block, and the retransmission that it calls for. -/
def sampleLog : List (LogEntry Float) :=
  [⟨0.25, .duplicateAck 1 1⟩, ⟨0.25, .sackChange [⟨1447, 2893⟩]⟩,
    ⟨0.5, .recoveryEntered 1447 1⟩, ⟨0.5, .retransmission 1 1⟩, ⟨0.75, .duplicatesCleared⟩]

/-- The text of the log in one line. -/
def sampleLogText : String :=
  "[\x7b\"t\":0.25,\"kind\":\"dup_ack\",\"ack\":1,\"dup_ack\":1\x7d," ++
    "\x7b\"t\":0.25,\"kind\":\"new_sack\",\"ranges\":[\x7b\"start\":1447,\"end\":2893\x7d]\x7d," ++
    "\x7b\"t\":0.5,\"kind\":\"enter_recovery\"," ++
    "\"recovery_point\":1447,\"recovery_number\":1\x7d," ++
    "\x7b\"t\":0.5,\"kind\":\"retransmission\",\"seq\":1,\"recovery_number\":1\x7d," ++
    "\x7b\"t\":0.75,\"kind\":\"clear_dup_acks\"\x7d]"

/-- The text of a log with entries of five kinds is read as the log. -/
theorem sampleLog_read_back :
    JsonLayer.ReadsBack Json ∧
      (∀ entry ∈ sampleLog, entry.time.isFinite = true) ∧
      IsText (EventLog.encode JsonLayer.ofFloat sampleLog : Json) sampleLogText ∧
      EventLog.parse? sampleLogText = some sampleLog := by
  have finite : ∀ entry ∈ sampleLog, entry.time.isFinite = true := by
    decide +kernel
  have printed :
      JsonLayer.compact (EventLog.encode JsonLayer.ofFloat sampleLog : Json) =
        sampleLogText := by
    decide +kernel
  have isText : IsText (EventLog.encode JsonLayer.ofFloat sampleLog : Json) sampleLogText :=
    printed ▸ .compact
  exact ⟨Json.readsBack, finite, isText,
    (event_logs_read_back Json.readsBack).text sampleLog finite sampleLogText isText⟩

end Retrace
