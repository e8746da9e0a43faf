import SwitchTrade.Transition.Run
import SwitchTrade.Transition.Fallible
import SwitchTrade.Authority.Room
import SwitchTrade.Authority.Commands
import SwitchTrade.Authority.AttemptMove
import SwitchTrade.Authority.RoomChange
import SwitchTrade.Authority.AttemptRun
import SwitchTrade.Authority.PhaseOrder
import SwitchTrade.Authority.ClosingIntent
import SwitchTrade.Authority.Barrier
import SwitchTrade.Authority.EventLog
import SwitchTrade.Authority.Credentials
import SwitchTrade.Authority.Pairs
import SwitchTrade.Authority.Idempotency
import SwitchTrade.Authority.Reconnect
import SwitchTrade.Authority.Waiting
import SwitchTrade.Authority.CopyDatabase
import SwitchTrade.Authority.Remembered
import SwitchTrade.Tunnel.SequenceGate
import SwitchTrade.Tunnel.Language
import SwitchTrade.Relay.World
import SwitchTrade.Relay.Section
import SwitchTrade.Relay.Expiry
import SwitchTrade.Relay.Seats
import SwitchTrade.Relay.Barrier
import SwitchTrade.Relay.Stream
import SwitchTrade.Relay.Delivery
import SwitchTrade.Transition.Fifo
import SwitchTrade.Bridge.C2Bridge
import SwitchTrade.Bridge.Fifo
import SwitchTrade.Bridge.Handoff
import SwitchTrade.Bridge.Conservation
import SwitchTrade.Bridge.RateLimit
import SwitchTrade.Client.TunnelClientV2
import SwitchTrade.Client.Discipline
import SwitchTrade.Client.Advertisement
import SwitchTrade.Transition.InPlace
import SwitchTrade.Coordinator.Record
import SwitchTrade.Coordinator.Commands
import SwitchTrade.Coordinator.Process
import SwitchTrade.Coordinator.Edit
import SwitchTrade.Coordinator.Residue
import SwitchTrade.Coordinator.Change
import SwitchTrade.Coordinator.Atomicity
import SwitchTrade.Coordinator.Lineage
import SwitchTrade.Coordinator.LaunchOrder
import SwitchTrade.Coordinator.Recovery
import SwitchTrade.Transition.Dict
import SwitchTrade.Service.Record
import SwitchTrade.Service.Commands
import SwitchTrade.Service.Process
import SwitchTrade.Service.Advance
import SwitchTrade.Service.Step
import SwitchTrade.Service.History
import SwitchTrade.Service.Settled
import SwitchTrade.Service.StateMachine
import SwitchTrade.Transition.Serial
import SwitchTrade.Transition.BigEndian
import SwitchTrade.Transition.PyJson
import SwitchTrade.Transition.PyJsonDumps
import SwitchTrade.Transition.Bitmap
import SwitchTrade.Transition.Bucket
import SwitchTrade.Transition.Window
import SwitchTrade.Transition.Regex
import SwitchTrade.Diagnostics.Redaction
import SwitchTrade.Bridge.FrameRelay
import SwitchTrade.Bridge.LoopSafety
import SwitchTrade.Reliable.Link
import SwitchTrade.Reliable.Sender
import SwitchTrade.Reliable.Receiver
import SwitchTrade.Reliable.SelectiveRepeat
import SwitchTrade.Reliable.Inbound
import SwitchTrade.Reliable.FirstArrivals
import SwitchTrade.Reliable.Outbound
import SwitchTrade.Reliable.Carried
import SwitchTrade.Transition.Uuid
import SwitchTrade.Transition.WalDatabase
import SwitchTrade.Transition.Ends
import SwitchTrade.Closing.Stage
import SwitchTrade.Closing.Control
import SwitchTrade.Closing.Shutdown
import SwitchTrade.Closing.Agreement
import SwitchTrade.Transition.Lines
import SwitchTrade.Transition.LittleEndian
import SwitchTrade.Installer.WslConfig
import SwitchTrade.Installer.Merge
import SwitchTrade.Installer.MergeExact
import SwitchTrade.Installer.Machine
import SwitchTrade.Installer.KernelManager
import SwitchTrade.Installer.Runtimes
import SwitchTrade.Installer.ProvisioningEngine
import SwitchTrade.Installer.Removal
import SwitchTrade.Installer.KernelSetting
import SwitchTrade.Installer.KernelCalls
import SwitchTrade.Installer.Candidate
import SwitchTrade.Installer.Rollback
import SwitchTrade.Installer.Destruction
import SwitchTrade.Installer.OwnedOnly
import SwitchTrade.Installer.Restorable
import SwitchTrade.Usb.Lease
import SwitchTrade.Usb.Session
import SwitchTrade.Usb.Settled
import SwitchTrade.Usb.Restoration
import SwitchTrade.Distributed.ControlFile
import SwitchTrade.Distributed.ControlRun
import SwitchTrade.Distributed.Protocol
import SwitchTrade.Release.Probes
import SwitchTrade.Release.LocalRelease
import SwitchTrade.Release.Answers
import SwitchTrade.Release.Steps
import SwitchTrade.Release.FailClosed
import SwitchTrade.Acknowledge.MeasuredControl
import SwitchTrade.Acknowledge.Exchange
import SwitchTrade.Acknowledge.ReplayedOnce
import SwitchTrade.Readiness.SideReady
import SwitchTrade.Readiness.Total
import SwitchTrade.Readiness.RoundTrip
import SwitchTrade.Tunnel.Codec
import SwitchTrade.Pia.Datagram
import SwitchTrade.Pia.Tiling
import SwitchTrade.Relay.RateIdentity
import SwitchTrade.Transition.Chunks
import SwitchTrade.Transition.Permuted
import SwitchTrade.Pk3.Record
import SwitchTrade.Party.Observer
import SwitchTrade.Party.Ledger
import SwitchTrade.Party.RealTrades
import SwitchTrade.Pk3.Encryption
import SwitchTrade.Pk3.PartyTail
import SwitchTrade.Pk3.FromPk3
import SwitchTrade.Rfu.Slot
import SwitchTrade.Rfu.Llsf
import SwitchTrade.Rfu.NiSender
import SwitchTrade.Rfu.Base85
import SwitchTrade.Rfu.Beacon
import SwitchTrade.Rfu.Block
import SwitchTrade.Transition.Reassembly
import SwitchTrade.Rfu.Assembler
import SwitchTrade.Rfu.Reassembled
import SwitchTrade.Rfu.OnceInOrder
import SwitchTrade.Rfu.BlockSender
import SwitchTrade.Rfu.Reflection
import SwitchTrade.Rfu.GbaFrame
import SwitchTrade.Rfu.Confirmed
import SwitchTrade.Rfu.Pipeline
import SwitchTrade.Rfu.BarrierResponder
import SwitchTrade.Pia.Texts
import SwitchTrade.Pia.Session
import SwitchTrade.Pia.Joiner
import SwitchTrade.Pia.HostJoin
import SwitchTrade.Diagnostics.SupportText
import SwitchTrade.Diagnostics.DiagnosticRun
import SwitchTrade.Diagnostics.Lifecycle
import SwitchTrade.Diagnostics.CarefulRuns
import SwitchTrade.Transition.Stages
import SwitchTrade.Trade.LinkPlayer
import SwitchTrade.Trade.EntryPhase
import SwitchTrade.Trade.TradeEngine
import SwitchTrade.Trade.Dance
import SwitchTrade.Trade.Rounds
import SwitchTrade.Trade.Supply
import SwitchTrade.Trade.Untagged
import SwitchTrade.Rfu.LinkSetup
import SwitchTrade.Sim.LinkState
import SwitchTrade.Sim.ChildLink
import SwitchTrade.Sim.ChildSteps
import SwitchTrade.Sim.ChildSpeech
import SwitchTrade.Sim.ChildAcks
import SwitchTrade.Sim.ChildWindow
