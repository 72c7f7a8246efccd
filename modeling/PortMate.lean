import PortMate.CommandHistoryRuns
import PortMate.ContentUploadRuns
import PortMate.DeferredInputs
import PortMate.DisconnectReasons
import PortMate.FileBatchTargets
import PortMate.HistoryTrims
import PortMate.HostFileRuns
import PortMate.HostKeySharing
import PortMate.HttpChunkArithmetic
import PortMate.JsonMergeLaws
import PortMate.JsonRpc
import PortMate.KnownHostsRoundTrip
import PortMate.LogReferences
import PortMate.LogShardRaces
import PortMate.McpApprovals
import PortMate.McpHttpOrigins
import PortMate.McpInterference
import PortMate.McpWriteGate
import PortMate.MigrationTokens
import PortMate.ModemChecksum
import PortMate.ModemEchoes
import PortMate.ModemPadding
import PortMate.ModemTransfer
import PortMate.ModemUploadPaths
import PortMate.OneKeyPrompts
import PortMate.PemSecrecy
import PortMate.RedactionValues
import PortMate.RuntimeStatusRuns
import PortMate.ScpOutcomes
import PortMate.SerialAnalysis
import PortMate.SerialCapture
import PortMate.SerialCloseBarrier
import PortMate.SerialColumnRuns
import PortMate.ShellCommands
import PortMate.Socks5
import PortMate.SshAgentRuns
import PortMate.StdioMessages
import PortMate.StoreInstances
import PortMate.StreamDecode
import PortMate.SyncInput
import PortMate.SystemEventRelay
import PortMate.TelnetConvergence
import PortMate.TerminalByteRows
import PortMate.TerminalCommandLine
import PortMate.TerminalCompletion
import PortMate.TerminalInputDelivery
import PortMate.TerminalInputText
import PortMate.TerminalTimestamps
import PortMate.TextLogLines
import PortMate.TftpCommands
import PortMate.TftpDelivery
import PortMate.TftpRequests
import PortMate.TmuxControl
import PortMate.TmuxFields
import PortMate.TransferMerge
import PortMate.TunnelLists
import PortMate.WorkspaceDetach
import PortMate.WorkspaceRereading
