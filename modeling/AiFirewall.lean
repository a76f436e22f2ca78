import AiFirewall.Config
import AiFirewall.BoundedTables
import AiFirewall.FallibleWrites
import AiFirewall.Addr
import AiFirewall.ConfigCheck
import AiFirewall.Frame
import AiFirewall.KernelMaps
import AiFirewall.EgressProgram
import AiFirewall.FragmentedOpeners
import AiFirewall.Runs
import AiFirewall.StrictUdpRuns
import AiFirewall.Detector
import AiFirewall.BanEscalation
import AiFirewall.BanState
import AiFirewall.DaemonSteps
import AiFirewall.ForgivenessClock
import AiFirewall.BurstStrikes
import AiFirewall.PolicyCompile
import AiFirewall.ApplyConfig
import AiFirewall.ConfigCells
import AiFirewall.RuleSync
import AiFirewall.ConfigRollback
import AiFirewall.PolicyDecision
import AiFirewall.Posture
import AiFirewall.Lockdown
import AiFirewall.BoundedBins
import AiFirewall.ConfigBans
import AiFirewall.ConfigCapacity
import AiFirewall.DaemonRuns
import AiFirewall.RestartRestore
import AiFirewall.LastingBans
import AiFirewall.DelistedBans
import AiFirewall.ListedBans
import AiFirewall.MonitorMode
import AiFirewall.SourceIsolation
import AiFirewall.AddressText
import AiFirewall.FeedCapacity
import AiFirewall.HostNetworks
import AiFirewall.FeedProtection
import AiFirewall.ConfigFiles
import AiFirewall.FeedSources
import AiFirewall.LastGood
import AiFirewall.MissedEdits
import AiFirewall.PostureOverlay
import AiFirewall.AskPanel
import AiFirewall.ConfirmedActions
import AiFirewall.Links
import AiFirewall.NoLinkLeft
import AiFirewall.PortEdits
import AiFirewall.LostEdits
import AiFirewall.RestartGap
import AiFirewall.SweepRace
import AiFirewall.BanWriters
import AiFirewall.BanOrigins
import AiFirewall.TrimmedText
import AiFirewall.LimitText
import AiFirewall.PortLists
import AiFirewall.BanExpiry
import AiFirewall.SweepExact
import AiFirewall.StrictestLimit
import AiFirewall.DetectorBounds
import AiFirewall.WindowLimiter
import AiFirewall.PolicyRuns
import AiFirewall.ConnectionLimit
import AiFirewall.ConnectionNames
import AiFirewall.BanNotes
import AiFirewall.DefaultRoute
import AiFirewall.ModelHost
import AiFirewall.PacketTotals
import AiFirewall.ThinkFilter
import AiFirewall.AskStream
import AiFirewall.NftListing
import AiFirewall.VmForwarding
import AiFirewall.FamilyParity
import AiFirewall.TextPieces
import AiFirewall.FeedText
import AiFirewall.PlainDetector
import AiFirewall.UdpReplies
import AiFirewall.SavedText
import AiFirewall.RebootedBans
import AiFirewall.EventQueue
import AiFirewall.RunOutputs
import AiFirewall.CutOff
import AiFirewall.ScanBans
import AiFirewall.SteadyBurst
import AiFirewall.Selftest
import AiFirewall.DetectorTest
import AiFirewall.BothBanMaps
import AiFirewall.StatusReport
import AiFirewall.TrafficTest
import AiFirewall.BanHistory
import AiFirewall.LineLog
import AiFirewall.HistoryFile
import AiFirewall.ProtectedSources
import AiFirewall.DoctorBans
import AiFirewall.Rounding
import AiFirewall.RoundedScore
