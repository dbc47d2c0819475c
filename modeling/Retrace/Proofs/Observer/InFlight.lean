import Retrace.Observer.InFlight
import Retrace.Proofs.Analysis.Reports
import Retrace.Proofs.Analysis.Resends
namespace Retrace

/-!
# What changes the number of segments in flight

The number is followed along the notices of a replay, but each change is the
work of one packet: a send that was not lost adds one, an acknowledgment takes
one away.  With the keys of the dropped packets for those of the lost ones, the
sends that add one are the packets delivered, so that the samples can be read
off both captures without any replay.
-/

variable {τ : Type}

/-- A change of the number of segments in flight, with the packet that makes it. -/
inductive FlightChange (τ : Type)
  /-- The packet is one more in flight. -/
  | departure (packet : Packet τ)
  /-- The packet acknowledges one of those in flight, if there is any. -/
  | acknowledgment (packet : Packet τ)
deriving DecidableEq

namespace FlightChange

/-- The packet that makes the change. -/
def packet : FlightChange τ → Packet τ
  | .departure packet => packet
  | .acknowledgment packet => packet

/-- The number after the change. -/
def countAfter (count : Nat) : FlightChange τ → Nat
  | .departure _ => count + 1
  | .acknowledgment _ => count - 1

/-- The packet that is one more in flight, if there is one. -/
def departed? : FlightChange τ → Option (Packet τ)
  | .departure packet => some packet
  | .acknowledgment _ => none

/-- The packet that acknowledges, if there is one. -/
def acknowledged? : FlightChange τ → Option (Packet τ)
  | .departure _ => none
  | .acknowledgment packet => some packet

/-- For every change the time of its packet and the number after it, from a number before all. -/
def samples (count : Nat) : List (FlightChange τ) → List (τ × Nat)
  | [] => []
  | change :: rest =>
      (change.packet.time, change.countAfter count) ::
        samples (change.countAfter count) rest

theorem length_samples
    (count : Nat)
    (changes : List (FlightChange τ)) :
    (samples count changes).length = changes.length := by
  induction changes generalizing count with
  | nil =>
      rfl
  | cons change rest inductionHypothesis =>
      rw [samples, List.length_cons, List.length_cons, inductionHypothesis]

/-- Every change is a departure or an acknowledgment. -/
theorem length_eq_add (changes : List (FlightChange τ)) :
    changes.length =
      (changes.filterMap departed?).length +
        (changes.filterMap acknowledged?).length := by
  induction changes with
  | nil =>
      rfl
  | cons change rest inductionHypothesis =>
      cases change with
      | departure packet =>
          simp only [List.length_cons, List.filterMap_cons, departed?, acknowledged?,
            inductionHypothesis]
          omega
      | acknowledgment packet =>
          simp only [List.length_cons, List.filterMap_cons, departed?, acknowledged?,
            inductionHypothesis]
          omega

end FlightChange

/-! ## The changes that notices report -/

/-- The change that a notice reports, the keys of the lost packets given. -/
def Notice.flightChange? (lost : KeySet) : Notice τ → Option (FlightChange τ)
  | .newSend packet | .retransmission packet | .timeout packet =>
      if packet.key ∈ lost then none else some (.departure packet)
  | .ack packet | .duplicateAck packet => some (.acknowledgment packet)
  | _ => none

/-- The changes that events report, in order. -/
def flightChanges (lost : KeySet) (events : List (Event τ)) : List (FlightChange τ) :=
  (events.map Event.notice).filterMap (Notice.flightChange? lost)

theorem flightChanges_cons
    (lost : KeySet)
    (event : Event τ)
    (rest : List (Event τ)) :
    flightChanges lost (event :: rest) =
      (event.notice.flightChange? lost).toList ++ flightChanges lost rest := by
  rw [flightChanges, flightChanges, List.map_cons, List.filterMap_cons]
  cases event.notice.flightChange? lost <;> rfl

theorem flightChanges_append
    (lost : KeySet)
    (first second : List (Event τ)) :
    flightChanges lost (first ++ second) =
      flightChanges lost first ++ flightChanges lost second := by
  simp [flightChanges]

@[simp] theorem flightChanges_markArrived
    (lost : KeySet)
    (state : SenderState τ)
    (segments : List Offset) :
    flightChanges lost (state.markArrived segments).events = [] :=
  SenderState.filterMap_markArrived _ (fun _ => rfl) state segments

/-- The segments in flight after a change. -/
def InFlight.after (flight : InFlight τ) (change : FlightChange τ) : InFlight τ :=
  flight.become change.packet.time (change.countAfter flight.count)

theorem InFlight.toList_samples_foldl_after
    (flight : InFlight τ)
    (changes : List (FlightChange τ)) :
    (changes.foldl after flight).samples.toList =
      flight.samples.toList ++ FlightChange.samples flight.count changes := by
  induction changes generalizing flight with
  | nil =>
      simp [FlightChange.samples]
  | cons change rest inductionHypothesis =>
      rw [List.foldl_cons, inductionHypothesis, FlightChange.samples]
      simp [after, become]

namespace Observer

theorem observe_inFlight
    (lost : KeySet)
    (flight : InFlight τ)
    (event : Event τ) :
    (inFlight lost).observe flight event =
      (event.notice.flightChange? lost).elim flight flight.after := by
  obtain ⟨notice, state⟩ := event
  cases notice with
  | newSend packet | retransmission packet | timeout packet =>
      simp only [inFlight, Notice.flightChange?, InFlight.sent]
      split <;> rfl
  | _ =>
      rfl

/-- Following the number along events is following the changes they report. -/
theorem observeAll_inFlight
    (lost : KeySet)
    (flight : InFlight τ)
    (events : List (Event τ)) :
    (inFlight lost).observeAll flight events =
      (flightChanges lost events).foldl InFlight.after flight :=
  observeAll_eq_foldl _ (observe_inFlight lost) flight events

end Observer

/-! ## The changes that packets make -/

/-- The change that a packet makes in a replay, the keys of the lost packets given. -/
def Packet.flightChange?
    (lost : KeySet)
    (source : Address)
    (packet : Packet τ) :
    Option (FlightChange τ) :=
  if packet.isSend source then
    if packet.key ∈ lost then none else some (.departure packet)
  else if packet.isAckTo source then
    some (.acknowledgment packet)
  else
    none

/-- A packet makes one change if it is an acknowledgment, or a send not lost, and else none. -/
theorem SenderState.Effect.flightChanges_eq
    [Timescale τ]
    {config : ReplayConfig τ}
    {source : Address}
    {state : SenderState τ}
    {packet : Packet τ}
    {outcome : Outcome τ}
    (lost : KeySet)
    (effect : SenderState.Effect config source state packet outcome) :
    flightChanges lost outcome.events =
      (packet.flightChange? lost source).toList := by
  rw [Packet.flightChange?, Packet.isSend_eq, Packet.isAckTo_eq]
  cases effect with
  | passedOver noAck noSend =>
      simp [noAck, noSend, flightChanges]
  | duplicate acknowledges repeats =>
      rw [acknowledges, flightChanges_cons, flightChanges_append,
        flightChanges_markArrived]
      split <;> rfl
  | late acknowledges below =>
      rw [acknowledges, flightChanges_cons]
      cases state.endsRecovery packet <;> rfl
  | advance acknowledges above =>
      rw [acknowledges, flightChanges_cons, flightChanges_append, flightChanges_cons,
        flightChanges_markArrived]
      cases state.endsRecovery packet <;> rfl
  | newSend sends above =>
      rw [sends, flightChanges_cons]
      exact List.append_nil _
  | timeout sends repeated isTimeout =>
      rw [sends, flightChanges_cons]
      cases state.inRecovery <;>
        exact List.append_nil _
  | recoveryBegun sends repeated noTimeout closed =>
      rw [sends, flightChanges_cons, flightChanges_cons]
      exact List.append_nil _
  | retransmission sends repeated noTimeout isOpen =>
      rw [sends, flightChanges_cons]
      exact List.append_nil _

/-- The events of a run report the changes that its packets make, each once and in order. -/
theorem Run.flightChanges_events
    [Timescale τ]
    (config : ReplayConfig τ)
    (source : Address)
    (lost : KeySet)
    (packets : List (Packet τ)) :
    flightChanges lost (Run.events config source packets) =
      packets.filterMap (Packet.flightChange? lost source) := by
  induction packets using List.reverseRecOn with
  | nil =>
      rfl
  | append_singleton earlier packet inductionHypothesis =>
      rw [events_concat, flightChanges_append, inductionHypothesis,
        (next_effect config source earlier packet).flightChanges_eq,
        List.filterMap_append]
      cases change : packet.flightChange? lost source <;>
        simp [change]

/-- The samples of a replay are those of the changes that its packets make. -/
theorem Observer.samples_inFlight
    [Timescale τ]
    (config : ReplayConfig τ)
    (source : Address)
    (lost : KeySet)
    (packets : List (Packet τ)) :
    (observeReplay config source (inFlight lost) packets).samples.toList =
      FlightChange.samples 0
        (packets.filterMap (Packet.flightChange? lost source)) := by
  rw [observeReplay, Run.replay_eq, observeAll_inFlight,
    InFlight.toList_samples_foldl_after, Run.flightChanges_events]
  rfl

/-! ## Deliveries and acknowledgments -/

namespace Analysis

/-- The change that a packet makes by what the receiver saw. -/
def deliveryChange?
    (receiver : Trace τ)
    (source : Address)
    (packet : Packet τ) :
    Option (FlightChange τ) :=
  if IsDelivered receiver source packet then
    some (.departure packet)
  else if packet.isAckTo source then
    some (.acknowledgment packet)
  else
    none

section

variable
  {sender : Trace τ}
  {receiver : Trace τ}
  {source : Address}
  {packet : Packet τ}

/-- What the source sends is delivered exactly if its key is none of a dropped packet. -/
theorem isDelivered_iff
    (member : packet ∈ sender)
    (isSend : packet.isSend source = true) :
    IsDelivered receiver source packet ↔
      packet.key ∉ KeySet.ofPackets (dropped sender receiver source) := by
  simp only [Packet.isSend, Bool.and_eq_true, decide_eq_true_eq] at isSend
  obtain ⟨⟨fromSource, _⟩, carriesData⟩ := isSend
  have wasSent : packet.key ∈ (sender.sentBy source).map Packet.key :=
    List.mem_map_of_mem (List.mem_filter.mpr ⟨member, decide_eq_true fromSource⟩)
  rw [mem_droppedKeys_iff, IsDelivered, ← mem_receivedKeys]
  simp [fromSource, carriesData, wasSent]

/-- With the dropped packets for the lost ones, a packet changes the number by its delivery. -/
theorem flightChange?_eq_deliveryChange?
    (member : packet ∈ sender)
    (noLoop : ¬ (packet.src = source ∧ packet.dst = source)) :
    packet.flightChange? (KeySet.ofPackets (dropped sender receiver source)) source =
      deliveryChange? receiver source packet := by
  rw [Packet.flightChange?, deliveryChange?]
  cases isSend : packet.isSend source with
  | true =>
      simp only [isDelivered_iff member isSend, Packet.isAckTo_of_isSend isSend]
      by_cases isDropped :
          packet.key ∈ KeySet.ofPackets (dropped sender receiver source) <;>
        simp [isDropped]
  | false =>
      have notDelivered : ¬ IsDelivered receiver source packet := by
        intro isDelivered
        rw [isDelivered.isSend noLoop] at isSend
        exact Bool.noConfusion isSend
      simp [notDelivered]

end

theorem departed_deliveryChanges
    (sender receiver : Trace τ)
    (source : Address) :
    (sender.filterMap (deliveryChange? receiver source)).filterMap
        FlightChange.departed? =
      delivered sender receiver source := by
  rw [delivered_eq_filter, List.filterMap_filterMap, ← List.filterMap_eq_filter]
  apply List.filterMap_congr
  intro packet _
  by_cases isDelivered : IsDelivered receiver source packet
  · simp [deliveryChange?, isDelivered, FlightChange.departed?, Option.guard]
  · cases isAck : packet.isAckTo source <;>
      simp [deliveryChange?, isDelivered, isAck, FlightChange.departed?, Option.guard]

theorem acknowledged_deliveryChanges
    {sender : Trace τ}
    {source : Address}
    (receiver : Trace τ)
    (noLoop :
      ∀ packet ∈ sender, ¬ (packet.src = source ∧ packet.dst = source)) :
    (sender.filterMap (deliveryChange? receiver source)).filterMap
        FlightChange.acknowledged? =
      acks source sender := by
  rw [acks, List.filterMap_filterMap, ← List.filterMap_eq_filter]
  apply List.filterMap_congr
  intro packet member
  by_cases isDelivered : IsDelivered receiver source packet
  -- What is delivered was sent, and what is sent acknowledges nothing to its own source.
  · have noAck := Packet.isAckTo_of_isSend (isDelivered.isSend (noLoop packet member))
    simp [deliveryChange?, isDelivered, noAck, FlightChange.acknowledged?, Option.guard]
  · cases isAck : packet.isAckTo source <;>
      simp [deliveryChange?, isDelivered, isAck, FlightChange.acknowledged?, Option.guard]

/--
The segments in flight account for the deliveries.

When the keys of the dropped packets are taken for those of the lost ones, the
number goes up by one at each packet of the sender's capture that is delivered,
down by one at each acknowledgment to the source, with a sample at the time of
the packet, and nothing else is sampled.
-/
theorem flight_accounts_for_deliveries
    [Timescale τ]
    (config : ReplayConfig τ)
    {sender : Trace τ}
    (receiver : Trace τ)
    {source : Address}
    (noLoop :
      ∀ packet ∈ sender, ¬ (packet.src = source ∧ packet.dst = source)) :
    let lost := KeySet.ofPackets (dropped sender receiver source)
    let samples :=
      (observeReplay config source (Observer.inFlight lost) sender).samples.toList
    let changes := sender.filterMap (deliveryChange? receiver source)
    samples = FlightChange.samples 0 changes ∧
      changes.filterMap FlightChange.departed? = delivered sender receiver source ∧
      changes.filterMap FlightChange.acknowledged? = acks source sender ∧
      samples.length =
        (delivered sender receiver source).length + (acks source sender).length := by
  intro lost samples changes
  have sampled : samples = FlightChange.samples 0 changes := by
    have sameChanges :
        sender.filterMap (Packet.flightChange? lost source) = changes :=
      List.filterMap_congr fun packet member =>
        flightChange?_eq_deliveryChange? member (noLoop packet member)
    rw [← sameChanges]
    exact Observer.samples_inFlight config source lost sender
  have departed := departed_deliveryChanges sender receiver source
  have acknowledged := acknowledged_deliveryChanges receiver noLoop
  refine ⟨sampled, departed, acknowledged, ?_⟩
  rw [sampled, FlightChange.length_samples, FlightChange.length_eq_add, departed,
    acknowledged]

/-- A copy of the second segment, told apart by its timestamp. -/
def stampedCopy : Packet Float :=
  { segmentOf 1447 with
    options := { timestamp := some ⟨7, 0⟩ }
    time := 0.5 }

/-- Two segments are sent; the first is acknowledged, the second sent again and acknowledged. -/
def resentFlight : Trace Float :=
  [segmentOf 1, segmentOf 1447, Flow.sample.acknowledgment 1447 none 0.25, stampedCopy,
    Flow.sample.acknowledgment 2893 none 0.75]

/-- Of the second segment only the copy was delivered, and only that is counted. -/
theorem resentFlight_accounted :
    (∀ packet ∈ resentFlight, ¬ (packet.src = .v4 1 ∧ packet.dst = .v4 1)) ∧
      dropped resentFlight [segmentOf 1, stampedCopy] (.v4 1) = [segmentOf 1447] ∧
      let lost :=
        KeySet.ofPackets (dropped resentFlight [segmentOf 1, stampedCopy] (.v4 1))
      let samples :=
        (observeReplay ReplayConfig.standard (.v4 1) (Observer.inFlight lost)
          resentFlight).samples.toList
      samples = [(0.0, 1), (0.25, 0), (0.5, 1), (0.75, 0)] ∧
        samples.length =
          [segmentOf 1, stampedCopy].length +
            (acks (.v4 1) resentFlight).length := by
  have noLoop :
      ∀ packet ∈ resentFlight, ¬ (packet.src = .v4 1 ∧ packet.dst = .v4 1) := by
    decide
  obtain ⟨sampled, _, _, counted⟩ :=
    flight_accounts_for_deliveries ReplayConfig.standard [segmentOf 1, stampedCopy] noLoop
  refine ⟨noLoop, by decide +kernel, ?_, ?_⟩
  · rw [sampled]
    decide +kernel
  · rw [counted]
    decide +kernel

end Analysis

end Retrace
