import Retrace.Analysis.Retransmissions
import Retrace.Observer.LostRetransmissions
import Retrace.Observer.Recovery
import Retrace.Observer.SpuriousBursts
import Retrace.Observer.Timeouts
namespace Retrace

/-!
# Metrics of a flow

A flow is measured from the traces of both its ends.  Every metric reduces them
to one number, or to none where it has no meaning.
-/

/-- What there is to measure about a flow. -/
inductive Metric
  | flowCompletionTime
  | packetLoss
  | packetsLost
  | rtoWaitTime
  | rtoWaitTimeForUnsent
  | rtoCount
  | recoveryTime
  | droppedRetransmittedPackets
  | longestSpuriousRetransmissionsBeforeRto
  | spuriousRetransmissionsFromReordering
deriving DecidableEq, Repr

namespace Metric

/-- Every metric, in the order they are reported. -/
def all : List Metric :=
  [.flowCompletionTime, .packetLoss, .packetsLost, .rtoWaitTime, .rtoWaitTimeForUnsent,
    .rtoCount, .recoveryTime, .droppedRetransmittedPackets,
    .longestSpuriousRetransmissionsBeforeRto, .spuriousRetransmissionsFromReordering]

/-- The words of a metric's identifier, in lower case. -/
def words : Metric → List String
  | .flowCompletionTime => ["flow", "completion", "time"]
  | .packetLoss => ["packet", "loss"]
  | .packetsLost => ["packets", "lost"]
  | .rtoWaitTime => ["rto", "wait", "time"]
  | .rtoWaitTimeForUnsent => ["rto", "wait", "time", "for", "unsent"]
  | .rtoCount => ["rto", "count"]
  | .recoveryTime => ["recovery", "time"]
  | .droppedRetransmittedPackets => ["dropped", "retransmitted", "packets"]
  | .longestSpuriousRetransmissionsBeforeRto =>
      ["longest", "spurious", "retransmissions", "before", "rto"]
  | .spuriousRetransmissionsFromReordering =>
      ["spurious", "retransmissions", "from", "reordering"]

/-- The identifier with every word capitalised: `RtoCount`. -/
def identifier (metric : Metric) : String :=
  String.join (metric.words.map String.capitalize)

/-- The identifier joined by underscores: `rto_count`. -/
def snakeCase (metric : Metric) : String :=
  "_".intercalate metric.words

/-- The identifier joined by hyphens: `rto-count`. -/
def kebabCase (metric : Metric) : String :=
  "-".intercalate metric.words

/-- The metric with a given identifier joined by underscores. -/
def ofSnakeCase? (name : String) : Option Metric :=
  all.find? fun metric => metric.snakeCase == name

/-- The metric with a given identifier joined by hyphens. -/
def ofKebabCase? (name : String) : Option Metric :=
  all.find? fun metric => metric.kebabCase == name

/-- The name a reader sees. -/
def title : Metric → String
  | .flowCompletionTime => "Flow Completion Time"
  | .packetLoss => "Packet Loss"
  | .packetsLost => "Packets Lost"
  | .rtoWaitTime => "RTO Wait Time"
  | .rtoWaitTimeForUnsent => "RTO Wait Time for Unsent"
  | .rtoCount => "RTO Count"
  | .recoveryTime => "Recovery Time"
  | .droppedRetransmittedPackets => "Dropped Retransmitted Packets"
  | .longestSpuriousRetransmissionsBeforeRto =>
      "Longest Spurious Retransmissions Before RTO"
  | .spuriousRetransmissionsFromReordering => "Spurious Retransmissions From Reordering"

end Metric

/-- One flow, as seen at both its ends, and the constants it is measured with. -/
structure FlowRun where
  sender : Trace Float
  receiver : Trace Float
  flow : Flow
  config : ReplayConfig Float
  /-- Below this many bytes sent, a sender still has unsent data. -/
  unsentLimit : Offset

namespace FlowRun

/-- The customary bound on the bytes sent while data is still unsent. -/
def customaryUnsentLimit : Offset := 997000

/-- What an observer makes of the sender's side of the flow. -/
def observe {σ : Type} (run : FlowRun) (observer : Observer Float σ) : σ :=
  observeReplay run.config run.flow.source observer run.sender

/-- How many packets the source sent. -/
def sentCount (run : FlowRun) : Nat :=
  run.sender.countSentBy run.flow.source

/-- How many packets from the source the receiver saw. -/
def receivedCount (run : FlowRun) : Nat :=
  run.receiver.countSentBy run.flow.source

/-- The keys of the retransmissions that reordering caused. -/
def spuriousKeys (run : FlowRun) : KeySet :=
  KeySet.ofPackets
    (Analysis.spuriousByReordering run.sender run.receiver run.flow.source)

/-- The share of the sent packets that did not arrive, in percent. -/
def lossPercent? (sent received : Nat) : Option Float :=
  if sent = 0 then
    none
  else
    some ((1.0 - Float.ofNat received / Float.ofNat sent) * 100.0)

/-- The value of a metric, if it has one for this flow. -/
def measure? (run : FlowRun) (metric : Metric) : Option Float :=
  match metric with
  | .flowCompletionTime => run.receiver.completionTime? run.flow
  | .packetLoss => lossPercent? run.sentCount run.receivedCount
  | .packetsLost => some (Float.ofNat run.sentCount - Float.ofNat run.receivedCount)
  | .rtoWaitTime => some (run.observe Observer.timeoutWait)
  | .rtoWaitTimeForUnsent => some (run.observe (Observer.timeoutWaitBelow run.unsentLimit))
  | .rtoCount => some (Float.ofNat (run.observe Observer.timeoutCount))
  | .recoveryTime => some (run.observe Observer.recoveryTimes).total
  | .droppedRetransmittedPackets =>
      some (Float.ofNat (run.observe Observer.lostRetransmissions).lost.size)
  | .longestSpuriousRetransmissionsBeforeRto =>
      some (Float.ofNat (run.observe (Observer.spuriousBursts run.spuriousKeys)).longest)
  | .spuriousRetransmissionsFromReordering =>
      some (Float.ofNat (run.observe (Observer.spuriousBursts run.spuriousKeys)).total)

end FlowRun

end Retrace
