import ProxiMight.Runs
import ProxiMight.NatTable
import ProxiMight.NatLiveFlow
import ProxiMight.CString
import ProxiMight.Rule
import ProxiMight.Lockdown
import ProxiMight.Vpn
import ProxiMight.Profile
import ProxiMight.Resolve
import ProxiMight.Checker
import ProxiMight.Backend
import ProxiMight.Engine
import ProxiMight.HealthWatcher
import ProxiMight.HealthTrip
import ProxiMight.LockdownSafety
import ProxiMight.Relay
import ProxiMight.WinDivert
import ProxiMight.Stance
import ProxiMight.FlowEnd
import ProxiMight.OpenVpn
import ProxiMight.InlineBlocks
import ProxiMight.LockdownHysteresis
import ProxiMight.RemoveProxy
import ProxiMight.FreshEvidence
import ProxiMight.Files
import ProxiMight.AtomicWrite
import ProxiMight.Json
import ProxiMight.ProfileJson
import ProxiMight.ProfileRoundTrip
import ProxiMight.ProfileFile
import ProxiMight.SaveLock
import ProxiMight.Segments
import ProxiMight.Net
import ProxiMight.HttpConnect
import ProxiMight.Socks
import ProxiMight.ProxyHandshake
import ProxiMight.CredentialSecrecy
import ProxiMight.HttpTunnel
import ProxiMight.ProfileSnapshot
import ProxiMight.RelayService
import ProxiMight.Enforcement
import ProxiMight.ForeignProfile
import ProxiMight.WatcherPrivacy
import ProxiMight.LoadedChains
import ProxiMight.SealedFile
import ProxiMight.Resave
import ProxiMight.WireGuard
import ProxiMight.DirectTraffic
import ProxiMight.ConnectionLog
import ProxiMight.RelayLife
import ProxiMight.Wildcard
import ProxiMight.Separated
import ProxiMight.Glob
import ProxiMight.RuleMeaning
import ProxiMight.PortSpec
import ProxiMight.NatInvariants
import ProxiMight.NatSweep
import ProxiMight.RedundancyChain
import ProxiMight.HalfLoaded
import ProxiMight.FreshIds
import ProxiMight.AllowlistPush
import ProxiMight.TunnelAllowlist
import ProxiMight.Splice
import ProxiMight.ConnectRequest
import ProxiMight.Numbers
import ProxiMight.SocksRequest
import ProxiMight.Socks5Stream
import ProxiMight.ReplyRouting
import ProxiMight.RefusedConnect
import ProxiMight.Words
import ProxiMight.Remotes
import ProxiMight.EndpointPorts
import ProxiMight.GlobalDirectives
import ProxiMight.RecordedRemotes
import ProxiMight.RemoveChain
import ProxiMight.ValidProfile
import ProxiMight.RestoredVpns
import ProxiMight.Shifts
import ProxiMight.RuleEdits
import ProxiMight.AllowlistRepush
import ProxiMight.VpnRunner
import ProxiMight.TunnelTable
import ProxiMight.TunnelHonesty
import ProxiMight.VpnImport
import ProxiMight.Phrases
import ProxiMight.Addresses
import ProxiMight.FullTunnel
import ProxiMight.NamePatterns
import ProxiMight.CommandLine
import ProxiMight.Decimal
import ProxiMight.BringUpCommand
import ProxiMight.WgDump
import ProxiMight.StartFailure
import ProxiMight.LinkedQueue
import ProxiMight.CheckerQueue
import ProxiMight.FlowInbox
import ProxiMight.RingBuffer
import ProxiMight.EventLog
import ProxiMight.Base64
import ProxiMight.ChainTunnel
import ProxiMight.ProxiedTraffic
import ProxiMight.FairRuns
import ProxiMight.ProcRun
import ProxiMight.NetRefs
import ProxiMight.TimeLimits
import ProxiMight.PathScan
import ProxiMight.PathScanJob
import ProxiMight.OvpnState
import ProxiMight.VpnRunnerEnd
import ProxiMight.EngineLife
import ProxiMight.EditSession
import ProxiMight.RelayStop
import ProxiMight.ProxyCheck
import ProxiMight.StubDemo
import ProxiMight.CheckerEnd
