import Remote8008.Guarantees.AutoStart
import Remote8008.Guarantees.BootstrapJam
import Remote8008.Guarantees.BroadcastFilter
import Remote8008.Guarantees.BroadcastPeer
import Remote8008.Guarantees.CacheCoherence
import Remote8008.Guarantees.CleanFrames
import Remote8008.Guarantees.CommandsRelease
import Remote8008.Guarantees.ConnectLeaks
import Remote8008.Guarantees.ConsoleQueue
import Remote8008.Guarantees.DeviceRefines
import Remote8008.Guarantees.DhcpOptions
import Remote8008.Guarantees.DrainExactlyOnce
import Remote8008.Guarantees.DrainReleases
import Remote8008.Guarantees.EchoAnswers
import Remote8008.Guarantees.EtherbonePacket
import Remote8008.Guarantees.EtherboneReply
import Remote8008.Guarantees.EtherboneTotal
import Remote8008.Guarantees.FaultReports
import Remote8008.Guarantees.FirmwareEffects
import Remote8008.Guarantees.FrameDispatch
import Remote8008.Guarantees.FrameFields
import Remote8008.Guarantees.LeaseClient
import Remote8008.Guarantees.LeaseExchange
import Remote8008.Guarantees.MainPhases
import Remote8008.Guarantees.ProbeReach
import Remote8008.Guarantees.PumpDiscipline
import Remote8008.Guarantees.ReadFreshness
import Remote8008.Guarantees.Renewal
import Remote8008.Guarantees.RequestServer
import Remote8008.Guarantees.ResetOrder
import Remote8008.Guarantees.RxBackpressure
import Remote8008.Guarantees.RxSnapshot
import Remote8008.Guarantees.RxStream
import Remote8008.Guarantees.SendAccounting
import Remote8008.Guarantees.SendExact
import Remote8008.Guarantees.ServePhase
import Remote8008.Guarantees.SingleInstance
import Remote8008.Guarantees.SlotGate
import Remote8008.Guarantees.StaleCache
import Remote8008.Guarantees.StaleReceive
import Remote8008.Guarantees.StallCrossing
import Remote8008.Guarantees.StallHysteresis
import Remote8008.Guarantees.Startup
import Remote8008.Guarantees.StashedReplies
import Remote8008.Guarantees.StickyErrors
import Remote8008.Guarantees.TerminalRestored
import Remote8008.Guarantees.TransactionIds
import Remote8008.Guarantees.Transcript
import Remote8008.Guarantees.TransmitFrame
import Remote8008.Guarantees.TrapFrame
import Remote8008.Guarantees.TxAccounting
import Remote8008.Guarantees.TypedInput
import Remote8008.Guarantees.UdpDelivery
import Remote8008.Guarantees.UdpRoundTrip
import Remote8008.Guarantees.UnleasedSilence
import Remote8008.Guarantees.WireImage
import Remote8008.Guarantees.WireLinearizable
import Remote8008.Guarantees.WireMatches
import Remote8008.Guarantees.WriteLoss
import Remote8008.Guarantees.WritesAccepted
import Remote8008.Lib.BigEndian
import Remote8008.Lib.BufferedFifo
import Remote8008.Lib.Congruential
import Remote8008.Lib.FlopChain
import Remote8008.Lib.Interaction
import Remote8008.Lib.Latch
import Remote8008.Lib.Machine
import Remote8008.Lib.Memory
import Remote8008.Lib.OneSlot
import Remote8008.Lib.OnesComplement
import Remote8008.Lib.Processes
import Remote8008.Lib.ProgramLogic
import Remote8008.Lib.Raising
import Remote8008.Lib.ResetSync
import Remote8008.Lib.Rv32
import Remote8008.Lib.Stopwatch
import Remote8008.Source.B8008Core
import Remote8008.Source.BoardConnect
import Remote8008.Source.Cli
import Remote8008.Source.Commands
import Remote8008.Source.Console
import Remote8008.Source.ConsoleBridge
import Remote8008.Source.ConsolePump
import Remote8008.Source.Crg
import Remote8008.Source.Crt0
import Remote8008.Source.Dhcp8008
import Remote8008.Source.Discovery
import Remote8008.Source.Eb8008
import Remote8008.Source.EbServe
import Remote8008.Source.EbServer
import Remote8008.Source.EtherboneWire
import Remote8008.Source.Firmware
import Remote8008.Source.Main
import Remote8008.Source.NetCore
import Remote8008.Source.Probe
import Remote8008.Source.UdpPing
import Remote8008.Source.UdpReceive
import Remote8008.Source.UdpTransmit
import Remote8008.System.BridgeSession
import Remote8008.System.ClientServer
import Remote8008.System.CommandRuns
import Remote8008.System.ConsoleSession
import Remote8008.System.HostPrograms
import Remote8008.System.HostRuns
import Remote8008.System.ReadSession
import Remote8008.System.WireSession
