import MessagePipe.Error
import MessagePipe.Frame
import MessagePipe.Identity
import MessagePipe.Watermark
import MessagePipe.Settings
import MessagePipe.Queue.Segments
import MessagePipe.Queue.Table
import MessagePipe.Mailbox.Step
import MessagePipe.Fault
import MessagePipe.Log
import MessagePipe.Pipe.Call
import MessagePipe.Exchange.Step
import MessagePipe.Transfer.Schedule
import MessagePipe.Proofs.Turn
import MessagePipe.Proofs.Run
import MessagePipe.Proofs.Pair
import MessagePipe.Proofs.Handshake
import MessagePipe.Proofs.Wiring
import MessagePipe.Proofs.Lane
import MessagePipe.Proofs.Stream
import MessagePipe.Proofs.Delivery
import MessagePipe.Proofs.Faultless
import MessagePipe.Proofs.WakeUp
import MessagePipe.Proofs.Convergence
import MessagePipe.Proofs.Tally
import MessagePipe.Proofs.Accounting
import MessagePipe.Proofs.Unblocking
import MessagePipe.Proofs.WriteWakeUp
import MessagePipe.Proofs.OneWay
import MessagePipe.Proofs.Entries
import MessagePipe.Proofs.Scene
import MessagePipe.Proofs.Tasks
import MessagePipe.Proofs.Writing
import MessagePipe.Proofs.Reading
import MessagePipe.Proofs.Toil
import MessagePipe.Proofs.Driving
import MessagePipe.Proofs.Turns
import MessagePipe.Proofs.Rounds
import MessagePipe.Proofs.Completion
import MessagePipe.Proofs.History
import MessagePipe.Proofs.Drain
import MessagePipe.Proofs.Exposure
import MessagePipe.Proofs.SignOff
import MessagePipe.Proofs.Footprint
import MessagePipe.Proofs.Backlog
import MessagePipe.Proofs.Confluence
import MessagePipe.Proofs.Pumping
import MessagePipe.Proofs.Mailboxes
import MessagePipe.Proofs.Stations
import MessagePipe.Proofs.Settling
import MessagePipe.Proofs.Onlooker
import MessagePipe.Proofs.Mirror
import MessagePipe.Proofs.Custody
import MessagePipe.Proofs.Nodes
import MessagePipe.Proofs.Linked
import MessagePipe.Proofs.Reclaim
import MessagePipe.Proofs.Lifecycle
import MessagePipe.Proofs.Relocation
import MessagePipe.Proofs.MidMessage
import MessagePipe.Proofs.Severance
import MessagePipe.Proofs.AskingAgain
import MessagePipe.Proofs.Halves
import MessagePipe.Proofs.Directions
import MessagePipe.Proofs.Independence
import MessagePipe.Proofs.Room
import MessagePipe.Proofs.WholeMessages
import MessagePipe.Proofs.Headroom
import MessagePipe.Proofs.Unfinished
import MessagePipe.Proofs.Breaches
import MessagePipe.Proofs.Looking
import MessagePipe.Proofs.ReadNotice
import MessagePipe.Proofs.DelayedTermination
import MessagePipe.Proofs.Progress
