import KGuardian.AddressLookups
import KGuardian.AllowLists
import KGuardian.AuditQueue
import KGuardian.AuditRun
import KGuardian.AuditTrail
import KGuardian.BitBlocks
import KGuardian.BlockYaml
import KGuardian.BridgeNetworkPolicy
import KGuardian.BrokerAudit
import KGuardian.BrokerAuth
import KGuardian.BrokerRoutes
import KGuardian.BrokerTraffic
import KGuardian.Channels
import KGuardian.ChatDelivery
import KGuardian.ChatFrames
import KGuardian.ChatStream
import KGuardian.CheckIns
import KGuardian.CiliumPolicy
import KGuardian.CiliumYaml
import KGuardian.ClusterAgreement
import KGuardian.ClusterTraffic
import KGuardian.ConcurrencyLimit
import KGuardian.ConcurrentIngest
import KGuardian.DeadPods
import KGuardian.DedupTable
import KGuardian.DropProbe
import KGuardian.DroppedTraffic
import KGuardian.FlavourAgreement
import KGuardian.FrontendAgreement
import KGuardian.FrontendCilium
import KGuardian.FrontendManifests
import KGuardian.FrontendPeers
import KGuardian.FrontendPolicy
import KGuardian.FrontendSeccomp
import KGuardian.GeneratorAgreement
import KGuardian.GeneratorStability
import KGuardian.GoJson
import KGuardian.GraphEnds
import KGuardian.Grouping
import KGuardian.Histories
import KGuardian.IgnoredAddresses
import KGuardian.IngestRuns
import KGuardian.InodeOwners
import KGuardian.InstallIds
import KGuardian.JoinedNames
import KGuardian.JsJson
import KGuardian.JsText
import KGuardian.KeyedLists
import KGuardian.KeyedTables
import KGuardian.LastWrites
import KGuardian.Ledgers
import KGuardian.ManifestText
import KGuardian.MapWrites
import KGuardian.Matcher
import KGuardian.MergePatch
import KGuardian.NetAddr
import KGuardian.NetworkEvents
import KGuardian.NetworkGraph
import KGuardian.NetworkProbe
import KGuardian.ObservedPolicies
import KGuardian.ObservedTraffic
import KGuardian.OutputFiles
import KGuardian.PartialLookups
import KGuardian.Patterns
import KGuardian.PeerGroups
import KGuardian.PeerInclusion
import KGuardian.PeerKeys
import KGuardian.PendingBatch
import KGuardian.PercentEncoding
import KGuardian.PinnedPeers
import KGuardian.PlainScalars
import KGuardian.PodGroups
import KGuardian.PodReadiness
import KGuardian.PodRecords
import KGuardian.PodTrafficReads
import KGuardian.PodUpserts
import KGuardian.PolicyDecode
import KGuardian.PolicyEditor
import KGuardian.PolicyMirror
import KGuardian.PolicySemantics
import KGuardian.PolicyStore
import KGuardian.PolicyTargets
import KGuardian.PolicyYaml
import KGuardian.ProbeReports
import KGuardian.PromoteCluster
import KGuardian.ProviderCalls
import KGuardian.RankedLists
import KGuardian.RecreatedPolicies
import KGuardian.RetentionPass
import KGuardian.Runs
import KGuardian.SeccompProfiles
import KGuardian.Selectors
import KGuardian.Server
import KGuardian.ServiceTable
import KGuardian.ServiceTranslation
import KGuardian.ServingPods
import KGuardian.SortedGroups
import KGuardian.StaleReconciles
import KGuardian.StandardPolicy
import KGuardian.StatusAggregator
import KGuardian.StatusPatches
import KGuardian.StreamAgreement
import KGuardian.SyscallCapture
import KGuardian.SyscallIngest
import KGuardian.SyscallRuns
import KGuardian.Tally
import KGuardian.TextScan
import KGuardian.ToolLoops
import KGuardian.ToolResults
import KGuardian.TopOffenders
import KGuardian.TrafficReports
import KGuardian.UnobservedDirection
import KGuardian.Utf8Stream
import KGuardian.VerdictQueries
import KGuardian.VersionService
import KGuardian.WorkloadSelectors
import KGuardian.WrittenManifests
