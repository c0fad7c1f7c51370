import IoHdlc.Model.Types
import IoHdlc.Model.Codec
import IoHdlc.Model.ReadBack
import IoHdlc.Model.Decode
import IoHdlc.Kit.OctetStuffing
import IoHdlc.Kit.TableCrc
import IoHdlc.Kit.SerialNumber
import IoHdlc.Kit.GoBackN
import IoHdlc.Kit.Reachable
import IoHdlc.Driver.LowLayer
import IoHdlc.Driver.Transparency
import IoHdlc.Driver.Transmit
import IoHdlc.Driver.Receive
import IoHdlc.Driver.RxBounds
import IoHdlc.Driver.Transmission
import IoHdlc.Driver.FlagFraming
import IoHdlc.Driver.LengthFraming
import IoHdlc.Driver.MinimumLength
import IoHdlc.Station.Configuration
import IoHdlc.Station.BufferFit
import IoHdlc.Core.Link
import IoHdlc.Core.Window
import IoHdlc.Core.Receive
import IoHdlc.Core.Transmit
import IoHdlc.Core.Write
import IoHdlc.Kit.Cursor
import IoHdlc.Core.WriteVectors
import IoHdlc.Core.Fragmentation
import IoHdlc.Core.Endpoint
import IoHdlc.Core.Api
import IoHdlc.Core.Node
import IoHdlc.Core.ConnectionCount
import IoHdlc.Core.ModeCoherence
import IoHdlc.Core.FreshConnection
import IoHdlc.Core.WindowInvariant
import IoHdlc.Core.Delivery
import IoHdlc.Core.Unnumbered
import IoHdlc.Core.Worker
import IoHdlc.Core.Emission
import IoHdlc.Core.NodeEmission
import IoHdlc.Core.RejectFreeze
import IoHdlc.Core.RejectExchange
import IoHdlc.Core.LinkRequest
import IoHdlc.Core.PfState
import IoHdlc.Core.PfCycle
import IoHdlc.Core.PfPairing
import IoHdlc.Core.TurnDiscipline
import IoHdlc.Core.UResponse
import IoHdlc.Core.CommandAnswer
import IoHdlc.Core.UmSlot
import IoHdlc.Core.ApiSlot
import IoHdlc.Core.UCommandOnWire
import IoHdlc.Core.LinkUpCalls
import IoHdlc.Core.LinkUpOutcome
import IoHdlc.Core.LinkUpFailure
import IoHdlc.Core.PeerStream
import IoHdlc.Core.WriteCalls
import IoHdlc.Core.Read
import IoHdlc.Core.ReadCalls
import IoHdlc.Core.ReaderWakeup
import IoHdlc.Kit.RetryBudget
import IoHdlc.Core.RetryBudget
import IoHdlc.Core.RetryRuns
import IoHdlc.Kit.Termination
import IoHdlc.Core.FlagService
import IoHdlc.Core.WorkerRank
import IoHdlc.Core.WorkerTermination
import IoHdlc.Core.WaitCondition
import IoHdlc.Core.WriterWakeup
import IoHdlc.Driver.TxPipeline
import IoHdlc.Driver.TxHistory
import IoHdlc.Driver.TxProgress
import IoHdlc.Driver.TxPlan
import IoHdlc.Kit.WrapClock
import IoHdlc.App.LinkManager
import IoHdlc.App.ConnectionEvents
import IoHdlc.App.LinkDownCalls
import IoHdlc.App.AppListener
import IoHdlc.Core.PollAnswer
import IoHdlc.Driver.RxOwnership
import IoHdlc.Kit.Handover
import IoHdlc.Port.Spi
import IoHdlc.Core.Recovery
import IoHdlc.Core.RecoveryExact
import IoHdlc.Port.SpiReception
import IoHdlc.Station.ReplyTimeout
import IoHdlc.Kit.Alignment
import IoHdlc.Pool.Layout
import IoHdlc.Pool.FramePool
import IoHdlc.Kit.LinkedList
import IoHdlc.Kit.CircularList
import IoHdlc.Core.FrameQueues
import IoHdlc.Port.ReplyTimer
import IoHdlc.Port.Uart
import IoHdlc.Port.UartLine
import IoHdlc.Port.Events
import IoHdlc.Port.Gate
import IoHdlc.Station.Runner
import IoHdlc.Driver.Lifecycle
import IoHdlc.Kit.Hysteresis
import IoHdlc.Pool.PoolRuns
import IoHdlc.Station.PoolWatermark
import IoHdlc.Kit.RoundRobin
import IoHdlc.Core.PeerList
import IoHdlc.Kit.BitSerialCrc
import IoHdlc.Driver.FrameCheck
import IoHdlc.Kit.TimedCall
import IoHdlc.App.ApiTimeouts
import IoHdlc.Kit.LockProgram
import IoHdlc.Core.PeerLocks
import IoHdlc.Core.LockDiscipline
import IoHdlc.Driver.PlainTransfer
import IoHdlc.Core.TestFrames
import IoHdlc.Station.TestExchange
import IoHdlc.Core.OctetStream
import IoHdlc.Frames.Holdings
import IoHdlc.Frames.Site
import IoHdlc.Frames.Ownership
import IoHdlc.Frames.TxGate
import IoHdlc.Station.PeerService
import IoHdlc.Core.PeerVisits
import IoHdlc.App.UiValues
