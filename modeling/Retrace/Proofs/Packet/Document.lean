import Mathlib.Data.List.Nodup
import Retrace.CaptureFile
import Retrace.Disk.Memory
import Retrace.Proofs.Json.Fields
import Retrace.Proofs.Json.Layer
namespace Retrace

/-!
# Packets read back

Given a JSON library that reads back what it writes, a packet that was captured
at a finite time is read back from its document, field by field: from the JSON
value, from the text that either printer writes, and, as one of a trace, from a
file that holds the text.  A field that the document leaves out might as well
have been written with its default.
-/

variable {Value : Type} [JsonLayer Value]

/-! ## Parts of a packet -/

section

variable (readsBack : JsonLayer.ReadsBack Value)

include readsBack

theorem Timestamp.decode?_encode (timestamp : Timestamp) :
    decode? (timestamp.encode : Value) = some timestamp := by
  simp [encode, decode?, readsBack.pair, readsBack.uint32]

theorem decodeBlock?_encodeBlock (block : Offset × Offset) :
    decodeBlock? (encodeBlock block : Value) = some block := by
  simp [encodeBlock, decodeBlock?, readsBack.pair, readsBack.uint64]

end

namespace Options

/-- The fields of the options, the absent ones unwritten. -/
def fields (options : Options) : List (String × Option Value) :=
  [("sack", options.sack.map fun blocks => JsonLayer.ofItems (blocks.map encodeBlock)),
    ("timestamp", options.timestamp.map Timestamp.encode)]

theorem encode_eq (options : Options) :
    (options.encode : Value) = JsonLayer.ofMembers (Json.written options.fields) := by
  obtain ⟨sack, timestamp⟩ := options
  cases sack <;> cases timestamp <;> rfl

section

variable (readsBack : JsonLayer.ReadsBack Value)

include readsBack

theorem nullable?_blocks (blocks : List (Offset × Offset)) :
    JsonLayer.nullable? (JsonLayer.list? decodeBlock?)
        (JsonLayer.ofItems (blocks.map encodeBlock) : Value) =
      some (some blocks) := by
  rw [readsBack.notNull, readsBack.list,
    mapM_map_eq_some fun block _ => decodeBlock?_encodeBlock readsBack block, Option.map_some]

theorem nullable?_timestamp (timestamp : Timestamp) :
    JsonLayer.nullable? Timestamp.decode? (timestamp.encode : Value) =
      some (some timestamp) := by
  have read := Timestamp.decode?_encode readsBack timestamp
  rw [Timestamp.encode] at read ⊢
  rw [readsBack.notNull, read, Option.map_some]

theorem decode?_encode (options : Options) :
    decode? (options.encode : Value) = some options := by
  have read :
      JsonLayer.fields? ["sack", "timestamp"] (options.encode : Value) =
        some (options.fields.map Prod.snd) := by
    rw [encode_eq]
    exact Json.fields?_written readsBack options.fields (by simp [fields])
  rw [decode?, read]
  simp [fields, Json.optional?_map (nullable?_blocks readsBack),
    Json.optional?_map (nullable?_timestamp readsBack)]

end

end Options

/-! ## Packets -/

namespace Packet

/-- The fields of a packet, all of them written. -/
def fields (packet : Packet Float) : List (String × Option Value) :=
  fieldNames.zip
    [some (JsonLayer.ofAddress packet.src), some (JsonLayer.ofAddress packet.dst),
      some (JsonLayer.ofNat packet.seq.toNat), some (JsonLayer.ofNat packet.ack.toNat),
      some (JsonLayer.ofNat packet.flags.bits.toNat), some packet.options.encode,
      some (JsonLayer.ofBool packet.payload), some (JsonLayer.ofFloat packet.time)]

theorem encode_eq (packet : Packet Float) :
    (packet.encode JsonLayer.ofFloat : Value) =
      JsonLayer.ofMembers (Json.written packet.fields) :=
  rfl

/-- A value that spells what a packet has where the field is missing. -/
inductive IsDefault : String → Value → Prop
  | flags {value : Value}
      (read : JsonLayer.uint16? value = some 0) :
      IsDefault "flags" value
  | options {value : Value}
      (read : Options.decode? value = some {}) :
      IsDefault "options" value
  | payload {value : Value}
      (read : JsonLayer.bool? value = some false) :
      IsDefault "payload" value

section

variable (readsBack : JsonLayer.ReadsBack Value)

include readsBack

/-- A packet is read back from its document exactly when its time is finite. -/
theorem decode?_encode (packet : Packet Float) :
    decode? (packet.encode JsonLayer.ofFloat : Value) =
      if packet.time.isFinite then some packet else none := by
  have read :
      JsonLayer.fields? fieldNames (packet.encode JsonLayer.ofFloat : Value) =
        some (packet.fields.map Prod.snd) := by
    rw [encode_eq]
    exact Json.fields?_written readsBack packet.fields (by simp [fields, fieldNames])
  rw [decode?, read]
  cases finite : packet.time.isFinite with
  | true =>
      simp [fields, fieldNames, ofFields?, Json.required?, Json.optional?, readsBack.address,
        readsBack.uint64, readsBack.uint16, Options.decode?_encode readsBack, readsBack.truth,
        readsBack.float _ finite]
  | false =>
      simp [fields, fieldNames, ofFields?, Json.required?, readsBack.noFloat _ finite]

/-- Whatever document a packet is read from, its time is finite. -/
theorem isFinite_of_decode?
    {document : Value}
    {packet : Packet Float}
    (read : decode? document = some packet) :
    packet.time.isFinite = true := by
  obtain ⟨fields, _, read⟩ := Option.bind_eq_some_iff.mp read
  rw [ofFields?.eq_def] at read
  split at read
  · simp only [Option.bind_eq_bind, Option.bind_eq_some_iff, Json.required?, Option.pure_def,
      Option.some.injEq] at read
    obtain ⟨src, _, dst, _, seq, _, ack, _, flags, _, options, _, payload, _, time,
      ⟨spelled, _, timeRead⟩, rfl⟩ := read
    exact readsBack.isFinite spelled time timeRead
  · cases read

/-- A member makes no difference where its field makes none to what is missing. -/
theorem decode?_insert
    (earlier later : List String)
    {name : String}
    {value : Value}
    (names : fieldNames = earlier ++ name :: later)
    (alike :
      ∀ others : String → Option Value,
        ofFields? (earlier.map others ++ some value :: later.map others) =
          ofFields? (earlier.map others ++ none :: later.map others))
    {before after : List (String × Value)}
    (lacks : ∀ member ∈ before ++ after, member.1 ≠ name) :
    decode? (JsonLayer.ofMembers (before ++ (name, value) :: after)) =
      decode? (JsonLayer.ofMembers (before ++ after)) := by
  have distinct : (earlier ++ name :: later).Nodup :=
    names ▸ (by decide : fieldNames.Nodup)
  have notAmong : name ∉ earlier ++ later :=
    (List.nodup_cons.mp (List.nodup_middle.mp distinct)).1
  obtain ⟨notEarlier, notLater⟩ := not_or.mp (mt List.mem_append.mpr notAmong)
  obtain ⟨others?, inserted, omitted⟩ :=
    Json.mapM_field?_insert_self notEarlier notLater lacks value
  rw [decode?, decode?, readsBack.fields, readsBack.fields, names, inserted, omitted]
  cases others? with
  | none => rfl
  | some others => exact alike others

/-- A default that is written makes no difference. -/
theorem decode?_insert_default
    {name : String}
    {value : Value}
    (isDefault : IsDefault name value)
    {before after : List (String × Value)}
    (lacks : ∀ member ∈ before ++ after, member.1 ≠ name) :
    decode? (JsonLayer.ofMembers (before ++ (name, value) :: after)) =
      decode? (JsonLayer.ofMembers (before ++ after)) := by
  cases isDefault with
  | flags read =>
      refine decode?_insert readsBack ["src", "dst", "seq", "ack"]
        ["options", "payload", "time"] rfl ?_ lacks
      intro others
      simp [ofFields?, Json.optional?, read]
  | options read =>
      refine decode?_insert readsBack ["src", "dst", "seq", "ack", "flags"]
        ["payload", "time"] rfl ?_ lacks
      intro others
      simp [ofFields?, Json.optional?, read]
  | payload read =>
      refine decode?_insert readsBack ["src", "dst", "seq", "ack", "flags", "options"]
        ["time"] rfl ?_ lacks
      intro others
      simp [ofFields?, Json.optional?, read]

end

/-- The packet that a text holds. -/
def parse? (text : String) (Value : Type := Json) [JsonLayer Value] : Option (Packet Float) :=
  (JsonLayer.parse? text : Option Value).bind decode?

end Packet

/-! ## What is written -/

open JsonLayer (IsWritten IsText)

theorem Timestamp.isWritten_encode (levels : Nat) (timestamp : Timestamp) :
    IsWritten (levels + 1) (timestamp.encode : Value) :=
  .ofItems (by simp [IsWritten.uint32])

theorem isWritten_encodeBlock (levels : Nat) (block : Offset × Offset) :
    IsWritten (levels + 1) (encodeBlock block : Value) :=
  .ofItems (by simp [IsWritten.uint64])

theorem Options.isWritten_encode (levels : Nat) (options : Options) :
    IsWritten (levels + 3) (options.encode : Value) := by
  apply IsWritten.ofMembers
  intro member isMember
  rcases List.mem_append.mp isMember with isSack | isTimestamp
  · obtain ⟨blocks, _, rfl⟩ := List.mem_map.mp isSack
    exact .ofItems (List.forall_mem_map.mpr fun block _ => isWritten_encodeBlock levels block)
  · obtain ⟨timestamp, _, rfl⟩ := List.mem_map.mp isTimestamp
    exact timestamp.isWritten_encode (levels + 1)

theorem Packet.isWritten_encode (levels : Nat) (packet : Packet Float) :
    IsWritten (levels + 4) (packet.encode JsonLayer.ofFloat : Value) := by
  apply IsWritten.ofMembers
  simp [fieldNames, IsWritten.ofAddress, IsWritten.uint64, IsWritten.uint16,
    packet.options.isWritten_encode levels, IsWritten.ofBool, IsWritten.ofFloat]

namespace Trace

variable {trace : Trace Float}

theorem isWritten_encode (levels : Nat) (trace : Trace Float) :
    IsWritten (levels + 5) (trace.encode : Value) :=
  .ofItems (List.forall_mem_map.mpr fun packet _ => packet.isWritten_encode levels)

section

variable (readsBack : JsonLayer.ReadsBack Value)

include readsBack

theorem decode?_encode
    (finite : ∀ packet ∈ trace, packet.time.isFinite = true) :
    decode? (trace.encode : Value) = some trace := by
  rw [decode?, encode, readsBack.list]
  apply mapM_map_eq_some
  intro packet isPacket
  rw [Packet.decode?_encode readsBack, if_pos (finite packet isPacket)]

theorem isFinite_of_decode?
    {document : Value}
    (read : decode? document = some trace) :
    ∀ packet ∈ trace, packet.time.isFinite = true := by
  intro packet isPacket
  obtain ⟨part, partRead⟩ := readsBack.item Packet.decode? document trace read packet isPacket
  exact Packet.isFinite_of_decode? readsBack partRead

end

end Trace

/-! ## Texts and files -/

theorem fromUTF8?_toUTF8 (text : String) :
    String.fromUTF8? text.toUTF8 = some text :=
  dif_pos text.isValidUTF8

section

variable (readsBack : JsonLayer.ReadsBack Value)

include readsBack

/-- The text that either printer writes for a packet holds the packet. -/
theorem Packet.parse?_text
    {packet : Packet Float}
    (finite : packet.time.isFinite = true)
    {text : String}
    (isText : IsText (packet.encode JsonLayer.ofFloat : Value) text) :
    parse? text Value = some packet := by
  rw [parse?, readsBack.parse _ _ (packet.isWritten_encode 123) isText, Option.bind_some,
    decode?_encode readsBack, if_pos finite]

/-- The text that either printer writes for a trace holds the trace. -/
theorem Trace.parse?_text
    {trace : Trace Float}
    (finite : ∀ packet ∈ trace, packet.time.isFinite = true)
    {text : String}
    (isText : IsText (trace.encode : Value) text) :
    parse? text Value = some trace := by
  rw [parse?, readsBack.parse _ _ (trace.isWritten_encode 122) isText, Option.bind_some,
    decode?_encode readsBack finite]

/-- A file that holds the text of a trace is loaded as the trace. -/
theorem CaptureFile.decode_text
    {trace : Trace Float}
    (finite : ∀ packet ∈ trace, packet.time.isFinite = true)
    {text : String}
    (isText : IsText (trace.encode : Value) text)
    (path : String) :
    decode path text.toUTF8 Value = .ok { path := some path, trace } := by
  simp only [decode, fromUTF8?_toUTF8, Trace.parse?_text readsBack finite isText]

end

/--
Packets survive being written and read.

A packet is read back from its document exactly when its time is finite, and
then from either text of it.  A trace of such packets is loaded from whatever
disk has one of its texts in a file, so in particular once the text was written
there.  An option without blocks is not taken for no option.  Whatever text a
packet or a trace is read from, its own texts hold the same.  What is written
for a default spells it, and a field that is left out might as well be given its
default, at any place, in a document and in its text.
-/
structure PacketsReadBack (Value : Type) [JsonLayer Value] : Prop where
  document :
    ∀ packet : Packet Float,
      Packet.decode? (packet.encode JsonLayer.ofFloat : Value) =
        if packet.time.isFinite then some packet else none
  text :
    ∀ packet : Packet Float, packet.time.isFinite = true →
      ∀ text, IsText (packet.encode JsonLayer.ofFloat : Value) text →
        Packet.parse? text Value = some packet
  file :
    ∀ trace : Trace Float, (∀ packet ∈ trace, packet.time.isFinite = true) →
      ∀ text, IsText (trace.encode : Value) text →
        ∀ {m : Type → Type} [Monad m] [LawfulMonad m] (disk : Disk m) (path : String),
          disk.read path = pure (.ok text.toUTF8) →
          CaptureFile.load disk path Value = pure (.ok { path := some path, trace })
  written :
    ∀ trace : Trace Float, (∀ packet ∈ trace, packet.time.isFinite = true) →
      ∀ text, IsText (trace.encode : Value) text →
        ∀ (files later : Files) (path : String),
          files.write path text = .ok later →
          (CaptureFile.load .ofMemory path Value).run later =
            (.ok { path := some path, trace }, later)
  noBlocks :
    ∀ packet : Packet Float, packet.time.isFinite = true →
      Packet.decode?
          ({ packet with options.sack := none }.encode JsonLayer.ofFloat : Value) ≠
        Packet.decode?
          ({ packet with options.sack := some [] }.encode JsonLayer.ofFloat : Value)
  again :
    ∀ accepted packet, Packet.parse? accepted Value = some packet →
      ∀ text, IsText (packet.encode JsonLayer.ofFloat : Value) text →
        Packet.parse? text Value = Packet.parse? accepted Value
  traceAgain :
    ∀ accepted trace, Trace.parse? accepted Value = some trace →
      ∀ text, IsText (trace.encode : Value) text →
        Trace.parse? text Value = Trace.parse? accepted Value
  defaults :
    Packet.IsDefault "flags" (JsonLayer.ofNat 0 : Value) ∧
      Packet.IsDefault "options" (Options.encode {} : Value) ∧
      Packet.IsDefault "payload" (JsonLayer.ofBool false : Value)
  omitted :
    ∀ (name : String) (value : Value), Packet.IsDefault name value →
      ∀ before after : List (String × Value),
        (∀ member ∈ before ++ after, member.1 ≠ name) →
        Packet.decode? (JsonLayer.ofMembers (before ++ (name, value) :: after)) =
          Packet.decode? (JsonLayer.ofMembers (before ++ after))
  omittedText :
    ∀ (name : String) (value : Value), Packet.IsDefault name value →
      ∀ before after : List (String × Value),
        (∀ member ∈ before ++ after, member.1 ≠ name) →
        (∀ member ∈ before ++ (name, value) :: after,
          IsWritten (JsonLayer.deepest - 1) member.2) →
        ∀ given left,
          IsText (JsonLayer.ofMembers (before ++ (name, value) :: after)) given →
          IsText (JsonLayer.ofMembers (before ++ after)) left →
          Packet.parse? given Value = Packet.parse? left Value

/-- Packets survive being written and read by a library that reads back what it writes. -/
theorem packets_read_back (readsBack : JsonLayer.ReadsBack Value) : PacketsReadBack Value := by
  constructor
  case document => exact Packet.decode?_encode readsBack
  case text =>
    intro packet finite text isText
    exact Packet.parse?_text readsBack finite isText
  case file =>
    intro trace finite text isText m _ _ disk path holds
    simp only [CaptureFile.load, holds, pure_bind,
      CaptureFile.decode_text readsBack finite isText]
  case written =>
    intro trace finite text isText files later path isWritten
    have read := Files.read_of_write isWritten
    rw [← CaptureFile.decode_text readsBack finite isText path]
    simp only [CaptureFile.load, Disk.ofMemory]
    simp [read]
    rfl
  case noBlocks =>
    intro packet finite same
    rw [Packet.decode?_encode readsBack, Packet.decode?_encode readsBack, if_pos finite,
      if_pos finite] at same
    simp at same
  case again =>
    intro accepted packet read text isText
    obtain ⟨document, _, decoded⟩ := Option.bind_eq_some_iff.mp read
    have finite := Packet.isFinite_of_decode? readsBack decoded
    rw [read, Packet.parse?_text readsBack finite isText]
  case traceAgain =>
    intro accepted trace read text isText
    obtain ⟨document, _, decoded⟩ := Option.bind_eq_some_iff.mp read
    have finite := Trace.isFinite_of_decode? readsBack decoded
    rw [read, Trace.parse?_text readsBack finite isText]
  case defaults =>
    exact ⟨.flags (readsBack.uint16 0), .options (Options.decode?_encode readsBack {}),
      .payload (readsBack.truth false)⟩
  case omitted =>
    intro name value isDefault before after lacks
    exact Packet.decode?_insert_default readsBack isDefault lacks
  case omittedText =>
    intro name value isDefault before after lacks each given left isGiven isLeft
    have eachLeft :
        ∀ member ∈ before ++ after, IsWritten (JsonLayer.deepest - 1) member.2 :=
      fun member isMember =>
        each member (List.Sublist.subset (by simp) isMember)
    rw [Packet.parse?, Packet.parse?, readsBack.parse _ _ (.ofMembers each) isGiven,
      readsBack.parse _ _ (.ofMembers eachLeft) isLeft, Option.bind_some, Option.bind_some,
      Packet.decode?_insert_default readsBack isDefault lacks]

/-- A segment, then acknowledgments with no blocks reported, with none to report, and with one. -/
def sampleTrace : Trace Float :=
  [Flow.sample.segment 1 0.0, Flow.sample.acknowledgment 1 none 0.25,
    Flow.sample.acknowledgment 1 (some []) 0.5,
    Flow.sample.acknowledgment 1 (some [(1447, 2893)]) 0.75]

/-- The text of the trace in one line. -/
def sampleText : String :=
  "[\x7b\"src\":\"0.0.0.1\",\"dst\":\"0.0.0.2\",\"seq\":1,\"ack\":1,\"flags\":16," ++
    "\"options\":\x7b\x7d,\"payload\":true,\"time\":0.0\x7d," ++
    "\x7b\"src\":\"0.0.0.2\",\"dst\":\"0.0.0.1\",\"seq\":1,\"ack\":1,\"flags\":16," ++
    "\"options\":\x7b\x7d,\"payload\":false,\"time\":0.25\x7d," ++
    "\x7b\"src\":\"0.0.0.2\",\"dst\":\"0.0.0.1\",\"seq\":1,\"ack\":1,\"flags\":16," ++
    "\"options\":\x7b\"sack\":[]\x7d,\"payload\":false,\"time\":0.5\x7d," ++
    "\x7b\"src\":\"0.0.0.2\",\"dst\":\"0.0.0.1\",\"seq\":1,\"ack\":1,\"flags\":16," ++
    "\"options\":\x7b\"sack\":[[1447,2893]]\x7d,\"payload\":false,\"time\":0.75\x7d]"

/-- The text of a trace is written to a file, and loaded from there as the trace. -/
theorem sampleTrace_read_back :
    JsonLayer.ReadsBack Json ∧
      (∀ packet ∈ sampleTrace, packet.time.isFinite = true) ∧
      IsText (sampleTrace.encode : Json) sampleText ∧
      (CaptureFile.load .ofMemory "trace.json").run
          ⟨[], [(["trace.json"], .file sampleText.toUTF8)]⟩ =
        (.ok { path := some "trace.json", trace := sampleTrace },
          ⟨[], [(["trace.json"], .file sampleText.toUTF8)]⟩) := by
  have finite : ∀ packet ∈ sampleTrace, packet.time.isFinite = true := by
    decide +kernel
  have printed : JsonLayer.compact (sampleTrace.encode : Json) = sampleText := by
    decide +kernel
  have isText : IsText (sampleTrace.encode : Json) sampleText :=
    printed ▸ .compact
  refine ⟨Json.readsBack, finite, isText, ?_⟩
  exact (packets_read_back Json.readsBack).written sampleTrace finite sampleText isText
    ⟨[], []⟩ _ "trace.json" (by rfl)

end Retrace
