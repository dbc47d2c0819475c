import Retrace.Trace
namespace Retrace.Analysis

/-!
# What was delivered, dropped and put out of order

A packet was delivered if the receiver saw its key from the same source.
Packets without payload may be dropped, but take no part in the comparison of
what was delivered: the last packet of a handshake shares its key with the first
data.

The delivered packets in sending order are paired, place by place, with the data
packets in receiving order.  Where the keys of a pair differ, the order changed.
-/

variable {τ : Type}

/-- The keys of everything the receiver saw from a source. -/
def receivedKeys (receiver : Trace τ) (source : Address) : KeySet :=
  KeySet.ofPackets (receiver.sentBy source)

/-- A key was received exactly when the receiver saw a packet of it from the source. -/
theorem mem_receivedKeys
    {receiver : Trace τ}
    {source : Address}
    {key : PacketKey} :
    key ∈ receivedKeys receiver source ↔
      ∃ seen ∈ receiver, seen.src = source ∧ seen.key = key := by
  simp [receivedKeys, KeySet.mem_ofPackets, Trace.mem_sentBy, and_assoc]

/-- The first packet of every key that a set does not hold yet, in order. -/
def firstOfKeys (known : KeySet) : Trace τ → Trace τ
  | [] => []
  | packet :: rest =>
      if packet.key ∈ known then
        firstOfKeys known rest
      else
        packet :: firstOfKeys (known.insert packet.key) rest

/-- The sent packets the receiver never saw, the first of each key, in sending order. -/
def dropped (sender receiver : Trace τ) (source : Address) : Trace τ :=
  firstOfKeys (receivedKeys receiver source) (sender.sentBy source)

/-- The sent data packets that the receiver saw, in sending order. -/
def delivered (sender receiver : Trace τ) (source : Address) : Trace τ :=
  let received := receivedKeys receiver source
  (sender.sentBy source).filter fun packet =>
    packet.payload && received.contains packet.key

/-- Delivered is what left the source with data, if the receiver saw its key from there. -/
theorem mem_delivered
    {sender receiver : Trace τ}
    {source : Address}
    {packet : Packet τ} :
    packet ∈ delivered sender receiver source ↔
      packet ∈ sender ∧ packet.src = source ∧ packet.payload = true ∧
        ∃ seen ∈ receiver, seen.src = source ∧ seen.key = packet.key := by
  simp [delivered, Trace.mem_sentBy, mem_receivedKeys, and_assoc]

/-- The data packets from a source, in the order they were received. -/
def receivedData (receiver : Trace τ) (source : Address) : Trace τ :=
  (receiver.sentBy source).filter Packet.payload

theorem mem_receivedData
    {receiver : Trace τ}
    {source : Address}
    {packet : Packet τ} :
    packet ∈ receivedData receiver source ↔
      packet ∈ receiver ∧ packet.src = source ∧ packet.payload = true := by
  simp [receivedData, Trace.mem_sentBy, and_assoc]

/-- The delivered packets whose place at the receiver is taken by another packet. -/
def outOfOrder (sender receiver : Trace τ) (source : Address) : Trace τ :=
  (((delivered sender receiver source).zip (receivedData receiver source)).filter
    fun pair => pair.1.key != pair.2.key).map Prod.fst

end Retrace.Analysis
