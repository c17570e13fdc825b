import Hdlcd.Library.Reactive
import Hdlcd.Library.Coupling
import Hdlcd.Library.Monitor
import Hdlcd.Library.Reachability
import Hdlcd.Library.Replay
import Hdlcd.Library.Visits
import Hdlcd.Library.AckTrail
import Hdlcd.Library.DeadlineTimer
import Hdlcd.Library.ShiftRegister
import Hdlcd.Hdlc.HdlcFrame
import Hdlcd.Hdlc.FCS16
import Hdlcd.Hdlc.FrameGenerator
import Hdlcd.Hdlc.FrameParser
import Hdlcd.Hdlc.AliveState
import Hdlcd.Hdlc.ProtocolState
import Hdlcd.Framing.ControlField
import Hdlcd.Framing.Deframer
import Hdlcd.Framing.Delivery
import Hdlcd.Framing.Wire
import Hdlcd.Framing.Grammar
import Hdlcd.Framing.Reencoding
import Hdlcd.Framing.CheckSequence
import Hdlcd.Framing.Interruptions
import Hdlcd.Framing.ParserSafety
import Hdlcd.Protocol.Opportunity
import Hdlcd.Protocol.Handlers
import Hdlcd.Protocol.Cascade
import Hdlcd.Protocol.History
import Hdlcd.Protocol.Reception
import Hdlcd.Protocol.QueueDiscipline
import Hdlcd.Protocol.Acknowledgement
import Hdlcd.Protocol.SequenceNumber
import Hdlcd.Protocol.Retransmission
import Hdlcd.Protocol.Preparation
import Hdlcd.Protocol.Consistency
import Hdlcd.Protocol.QueueAccess
import Hdlcd.Protocol.Polling
import Hdlcd.Protocol.AliveHistory
import Hdlcd.Protocol.WakeUp
import Hdlcd.Protocol.Silence
import Hdlcd.Protocol.Ending
import Hdlcd.Protocol.SequenceRange
import Hdlcd.Protocol.Duplicates
import Hdlcd.Protocol.UserData
import Hdlcd.Protocol.Debt
import Hdlcd.Protocol.Demand
import Hdlcd.Protocol.Occupation
import Hdlcd.Protocol.SentInOrder
import Hdlcd.Protocol.Ledger
import Hdlcd.Protocol.Entity
import Hdlcd.Link.Link
import Hdlcd.Link.NoLoss
import Hdlcd.Link.CompliantReceiver
import Hdlcd.Link.ByteChannel
import Hdlcd.Link.InOrder
import Hdlcd.Link.Flowing
import Hdlcd.Link.Drain
import Hdlcd.Link.Delivery
import Hdlcd.HdlcdServer.LockGuard
import Hdlcd.HdlcdServer.HdlcdServerHandler
import Hdlcd.SerialPort.SerialPort
import Hdlcd.SerialPort.Operations
import Hdlcd.SerialPort.SerialPortHandler
import Hdlcd.SerialPort.ClientList
import Hdlcd.SerialPort.Subscriptions
import Hdlcd.SerialPort.SerialPortHandlerCollection
import Hdlcd.Port.Effects
import Hdlcd.Port.Desks
import Hdlcd.Port.Refinement
import Hdlcd.Port.Handover
import Hdlcd.Port.Sessions
import Hdlcd.Port.Calm
import Hdlcd.Port.Reports
import Hdlcd.Port.Locks
import Hdlcd.Port.Line
import Hdlcd.Port.Frames
import Hdlcd.Port.WriteOffset
import Hdlcd.Port.OutdatedHandlers
import Hdlcd.Port.WholeFrames
import Hdlcd.Port.Sniffers
import Hdlcd.Port.Readiness
import Hdlcd.Port.Nesting
import Hdlcd.Port.BackPressure
import Hdlcd.Port.Aliveness
import Hdlcd.Port.Alike
import Hdlcd.Port.ReadOnly
import Hdlcd.Port.Confined
import Hdlcd.Port.Entity
import Hdlcd.Port.Vigilance
import Hdlcd.Port.Audience
import Hdlcd.Port.Reading
import Hdlcd.Port.EndToEnd
import Hdlcd.Port.ActiveHandlers
import Hdlcd.Port.SideBySide
import Hdlcd.Port.Ended
import Hdlcd.Port.Departures
import Hdlcd.Port.Returns
import Hdlcd.HdlcdServer.HdlcdServerHandlerCollection
import Hdlcd.HdlcdServer.Clients
import Hdlcd.HdlcdServer.Shutdown
