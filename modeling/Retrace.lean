import Retrace.Observer.Timeouts
import Retrace.Observer.Recovery
import Retrace.Observer.LostRetransmissions
import Retrace.Observer.InFlight
import Retrace.Observer.SpuriousBursts
import Retrace.Observer.SackRetransmissions
import Retrace.Observer.EventLog
import Retrace.Analysis.Condition
import Retrace.Metric
import Retrace.Decimal.Binary64
import Retrace.Decimal.Layout
import Retrace.Json.Reader
import Retrace.Json.Printer
import Retrace.Packet.Document
import Retrace.Observer.EventLogDocument
import Retrace.Sender.History
import Retrace.Sender.Diagnostics
import Retrace.Disk.Memory
import Retrace.Main
import Retrace.Proofs.Segments
import Retrace.Proofs.Gaps
import Retrace.Proofs.Sweep
import Retrace.Proofs.Sender.Run
import Retrace.Proofs.Sender.Marks
import Retrace.Proofs.Sender.Episodes
import Retrace.Proofs.Sender.Classification
import Retrace.Proofs.Sender.Recovery
import Retrace.Proofs.Sender.CumulativeWalk
import Retrace.Proofs.Sender.Scoreboard
import Retrace.Proofs.Sender.Grammar
import Retrace.Proofs.Sender.Duplicates
import Retrace.Proofs.Sender.OpenRecovery
import Retrace.Proofs.Sender.RecoveryFields
import Retrace.Proofs.Sender.Delay
import Retrace.Proofs.Sender.Relevance
import Retrace.Proofs.Sender.NewData
import Retrace.Proofs.Sender.Sides
import Retrace.Proofs.Sender.Announcements
import Retrace.Proofs.Analysis.Reordering
import Retrace.Proofs.Analysis.Spurious
import Retrace.Proofs.Analysis.Payload
import Retrace.Proofs.Analysis.Resends
import Retrace.Proofs.Observer.Collected
import Retrace.Proofs.Analysis.Reports
import Retrace.Proofs.Analysis.Labels
import Retrace.Proofs.Observer.Sharing
import Retrace.Proofs.Sender.Ranges
import Retrace.Proofs.Observer.SackRetransmissions
import Retrace.Proofs.Observer.InFlight
import Retrace.Proofs.Observer.FlightWalk
import Retrace.Proofs.Observer.SpuriousBursts
import Retrace.Proofs.Observer.LostRetransmissions
import Retrace.Proofs.Observer.RecoveryTimes
import Retrace.Proofs.Observer.Timeouts
import Retrace.Proofs.Analysis.Loss
import Retrace.Proofs.Address.Text
import Retrace.Proofs.Decimal.Bits
import Retrace.Proofs.Decimal.Nearest
import Retrace.Proofs.Decimal.Shortest
import Retrace.Proofs.Json.Numeral
import Retrace.Proofs.Json.Float
import Retrace.Proofs.Json.Quoted
import Retrace.Proofs.Json.Printer
import Retrace.Proofs.Json.Fields
import Retrace.Proofs.Json.Layer
import Retrace.Proofs.Packet.Document
import Retrace.Proofs.Tiling
import Retrace.Proofs.Sender.BlockOrder
import Retrace.Proofs.Analysis.Dropped
import Retrace.Proofs.Observer.EventLogDocument
