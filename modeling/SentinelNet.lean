import SentinelNet.Lib.Regex
import SentinelNet.Lib.Worklist
import SentinelNet.FwAnalyzers.FortiTree
import SentinelNet.PolicyTest.AceSoundness
import SentinelNet.PolicyTest.FortiAddresses
import SentinelNet.PolicyTest.FortiServices
import SentinelNet.PolicyTest.Coverage
import SentinelNet.PolicyTest.EgressConsulted
import SentinelNet.PolicyTest.HonestUnknown
import SentinelNet.PolicyTest.PartialFlows
import SentinelNet.PolicyTest.VrfStaticRoutes
import SentinelNet.RouteTable.Attribution
import SentinelNet.PathTrace.VrfRows
import SentinelNet.PathTrace.Walks
import SentinelNet.Observability.FlowProjection
import SentinelNet.Observability.FlowTotals
import SentinelNet.Observability.Writer
import SentinelNet.Observability.InterfaceEvents
import SentinelNet.Observability.Sources
import SentinelNet.Observability.Retention
import SentinelNet.Observability.SnapshotIsolation
import SentinelNet.Observability.Aggregates
import SentinelNet.Observability.TenantIsolation
import SentinelNet.Observability.Conclusions
import SentinelNet.Observability.Recorrelation
import SentinelNet.Observability.BaselineIsolation
import SentinelNet.Ingesters.TemplateOrder
import SentinelNet.Ingesters.SyslogTime
import SentinelNet.Inventory.DeviceByIp
import SentinelNet.Probes.Tokens
import SentinelNet.Probes.Bastions
import SentinelNet.Probes.Leftovers
import SentinelNet.Probes.SiteBoundary
import SentinelNet.Inventory.Decommission
import SentinelNet.ConfigDrift.History
import SentinelNet.Sessions.Lifetimes
import SentinelNet.Sessions.Logout
import SentinelNet.Notifications.AtMostOnce
import SentinelNet.Notifications.QuietHours
import SentinelNet.Notifications.Progress
import SentinelNet.Inventory.CsvTruth
import SentinelNet.Sessions.ReadOnlyClients
import SentinelNet.Users.Quorum
import SentinelNet.Users.Perimeter
import SentinelNet.Triage.Authority
import SentinelNet.Triage.Jobs
import SentinelNet.Blueprint.Drafts
import SentinelNet.Blueprint.Restored
import SentinelNet.Audit.Tampering
import SentinelNet.Login.Attempts
import SentinelNet.Probes.Terminal
import SentinelNet.Probes.BulkCommands
import SentinelNet.Probes.AgentConfig
import SentinelNet.Inventory.Categories
import SentinelNet.Segments.Zones
import SentinelNet.History.Journal
import SentinelNet.Mirror.Repair
import SentinelNet.Ping.Transitions
import SentinelNet.Blueprint.VrfVerdicts
import SentinelNet.Blueprint.Conflicts
import SentinelNet.Blueprint.Closing
import SentinelNet.Blueprint.Derive
import SentinelNet.MacHistory.Isolation
import SentinelNet.Probes.Scope
import SentinelNet.Probes.RestRelay
import SentinelNet.Probes.Visits
import SentinelNet.Probes.Syslog
import SentinelNet.Redundancy.Service
import SentinelNet.Triage.Records
import SentinelNet.Triage.Ticks
import SentinelNet.Backups.Walk
import SentinelNet.Backups.Current
import SentinelNet.NetMap.Tenants
import SentinelNet.PolicyTest.RouteLookup
import SentinelNet.PolicyTest.ExampleFlows
import SentinelNet.PolicyTest.GroupEntries
import SentinelNet.Observability.PortVerdicts
import SentinelNet.Observability.ErrorGrowth
