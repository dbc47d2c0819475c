import Retrace.Observer.SackRetransmissions
import Retrace.Proofs.Sender.Classification
namespace Retrace

/-!
# What observers collect

Taken together, the sends that the events of a run report are the packets sent,
in order and each once.  An observer that collects retransmissions keeps some of
these, so what it collects stands in the capture in the same order and as often.
-/

variable {τ : Type}

/-- The packets that events say were sent, in order. -/
def sentPackets (events : List (Event τ)) : List (Packet τ) :=
  events.filterMap fun event => event.notice.sent?

theorem sentPackets_eq (events : List (Event τ)) :
    sentPackets events = (sendNotices events).filterMap Notice.sent? := by
  rw [sendNotices, List.filterMap_filter, List.filterMap_map, sentPackets]
  apply List.filterMap_congr
  intro event _
  cases isSent : event.notice.sent? <;>
    simp [isSent]

/-- A verdict is about the packet it was reached on. -/
theorem sent?_verdict
    [Timescale τ]
    (config : ReplayConfig τ)
    (source : Address)
    (earlier : List (Packet τ))
    (packet : Packet τ) :
    (verdict config source earlier packet).sent? = some packet := by
  rw [verdict]
  split
  · rfl
  · split <;> rfl

/-- The events of a run report exactly the packets sent. -/
theorem sentPackets_events
    [Timescale τ]
    (config : ReplayConfig τ)
    (source : Address)
    (packets : List (Packet τ)) :
    sentPackets (Run.events config source packets) = sends source packets := by
  induction packets using List.reverseRecOn with
  | nil =>
      rfl
  | append_singleton earlier packet inductionHypothesis =>
      rw [sentPackets_eq] at inductionHypothesis ⊢
      rw [Run.events_concat, sendNotices_append, List.filterMap_append,
        inductionHypothesis, sendNotices_next, sends, sends, List.filter_append,
        List.filter_singleton]
      cases packet.isSend source with
      | false =>
          rfl
      | true =>
          simp [sent?_verdict]

namespace Observer

/-- Whether an event is a retransmission at a state that satisfies a condition. -/
def reportsWanted
    (wanted : SenderState τ → Packet τ → Bool)
    (event : Event τ) :
    Bool :=
  match event.notice with
  | .retransmission packet => wanted event.state packet
  | _ => false

/-- The retransmissions collected are those that satisfy the condition, in order. -/
theorem observeAll_retransmissionsIf
    (wanted : SenderState τ → Packet τ → Bool)
    (found : Array (Packet τ))
    (events : List (Event τ)) :
    ((retransmissionsIf wanted).observeAll found events).toList =
      found.toList ++ sentPackets (events.filter (reportsWanted wanted)) := by
  induction events generalizing found with
  | nil =>
      simp [observeAll, sentPackets]
  | cons event rest inductionHypothesis =>
      rw [observeAll, List.foldl_cons, ← observeAll, inductionHypothesis,
        List.filter_cons]
      obtain ⟨notice, state⟩ := event
      cases notice with
      | retransmission packet =>
          cases isWanted : wanted state packet <;>
            simp [retransmissionsIf, reportsWanted, isWanted, sentPackets, Notice.sent?]
      | _ =>
          simp [retransmissionsIf, reportsWanted]

/-- What is collected are packets sent, in order and none of them twice. -/
theorem retransmissionsIf_sublist
    [Timescale τ]
    (wanted : SenderState τ → Packet τ → Bool)
    (config : ReplayConfig τ)
    (source : Address)
    (packets : List (Packet τ)) :
    (observeReplay config source (retransmissionsIf wanted)
      packets).toList.Sublist (sends source packets) := by
  rw [observeReplay, Run.replay_eq, observeAll_retransmissionsIf,
    ← sentPackets_events config]
  exact List.filter_sublist.filterMap _

end Observer

end Retrace
