import Retrace.Json.Fields
import Retrace.Trace
namespace Retrace

/-!
# Packets in capture files

A capture file is a JSON array of packets.  Flags, options and payload may be
missing from a packet, and an option that is absent is not written.
-/

variable {Value : Type} [JsonLayer Value]

namespace Timestamp

/-- The two clocks as a pair. -/
def encode (timestamp : Timestamp) : Value :=
  JsonLayer.ofItems
    [JsonLayer.ofNat timestamp.value.toNat, JsonLayer.ofNat timestamp.echo.toNat]

/-- The two clocks from a pair. -/
def decode? (value : Value) : Option Timestamp :=
  (JsonLayer.pair? JsonLayer.uint32? JsonLayer.uint32? value).map fun clocks =>
    ⟨clocks.1, clocks.2⟩

end Timestamp

/-- A block of bytes as a pair of its edges. -/
def encodeBlock (block : Offset × Offset) : Value :=
  JsonLayer.ofItems [JsonLayer.ofNat block.1.toNat, JsonLayer.ofNat block.2.toNat]

/-- A block of bytes from a pair of its edges. -/
def decodeBlock? : Value → Option (Offset × Offset) :=
  JsonLayer.pair? JsonLayer.uint64? JsonLayer.uint64?

namespace Options

/-- The options that are present. -/
def encode (options : Options) : Value :=
  JsonLayer.ofMembers
    ((options.sack.toList.map fun blocks =>
        ("sack", JsonLayer.ofItems (blocks.map encodeBlock))) ++
      options.timestamp.toList.map fun timestamp => ("timestamp", timestamp.encode))

/-- The options of a record; a missing option and one that is `null` are absent. -/
def decode? (value : Value) : Option Options := do
  match ← JsonLayer.fields? ["sack", "timestamp"] value with
  | [sack, timestamp] =>
      let sack ←
        Json.optional? none (JsonLayer.nullable? (JsonLayer.list? decodeBlock?)) sack
      let timestamp ← Json.optional? none (JsonLayer.nullable? Timestamp.decode?) timestamp
      return { sack, timestamp }
  | _ => none

end Options

namespace Packet

/-- The fields of a packet, in the order they are written. -/
def fieldNames : List String :=
  ["src", "dst", "seq", "ack", "flags", "options", "payload", "time"]

/-- A packet as a record, its capture instant written by `encodeTime`. -/
def encode {τ : Type} (encodeTime : τ → Value) (packet : Packet τ) : Value :=
  JsonLayer.ofMembers (fieldNames.zip
    [JsonLayer.ofAddress packet.src, JsonLayer.ofAddress packet.dst,
      JsonLayer.ofNat packet.seq.toNat, JsonLayer.ofNat packet.ack.toNat,
      JsonLayer.ofNat packet.flags.bits.toNat, packet.options.encode,
      JsonLayer.ofBool packet.payload, encodeTime packet.time])

/-- A packet from its fields, in the order they are written. -/
def ofFields? : List (Option Value) → Option (Packet Float)
  | [src, dst, seq, ack, flags, options, payload, time] => do
      let src ← Json.required? JsonLayer.address? src
      let dst ← Json.required? JsonLayer.address? dst
      let seq ← Json.required? JsonLayer.uint64? seq
      let ack ← Json.required? JsonLayer.uint64? ack
      let flags ← Json.optional? 0 JsonLayer.uint16? flags
      let options ← Json.optional? {} Options.decode? options
      let payload ← Json.optional? false JsonLayer.bool? payload
      let time ← Json.required? JsonLayer.float? time
      return { src, dst, seq, ack, flags := ⟨flags⟩, options, payload, time }
  | _ => none

/-- A packet from a record. -/
def decode? (value : Value) : Option (Packet Float) :=
  (JsonLayer.fields? fieldNames value).bind ofFields?

end Packet

namespace Trace

/-- A trace as an array of packets. -/
def encode (trace : Trace Float) : Value :=
  JsonLayer.ofItems (trace.map (Packet.encode JsonLayer.ofFloat))

/-- A trace from an array of packets. -/
def decode? : Value → Option (Trace Float) :=
  JsonLayer.list? Packet.decode?

/-- The trace that the text of a capture file holds. -/
def parse? (text : String) (Value : Type := Json) [JsonLayer Value] : Option (Trace Float) :=
  (JsonLayer.parse? text : Option Value).bind decode?

end Trace

end Retrace
