import Gadgetron.Auth.KeyValidator
import Gadgetron.Penny.Reconfigure
import Gadgetron.Approval.Agreement
import Gadgetron.Workbench.Replay
import Gadgetron.Host.BrokerChannel
import Gadgetron.Chat.JobStream
import Gadgetron.Chat.Spend
import Gadgetron.Jobs.Leasing
import Gadgetron.Quota.RateLimit
import Gadgetron.Autonomy.Budget
import Gadgetron.Quota.Enforcer
import Gadgetron.Bundle.MigrationOrder
import Gadgetron.Jobs.FollowUp
import Gadgetron.Jobs.Retry
import Gadgetron.Events.Delivery
import Gadgetron.Collections.Current
import Gadgetron.Enrollment.Activation
import Gadgetron.Alerts.Trace
import Gadgetron.Graph.Visible
import Gadgetron.Penny.ToolCalls
import Gadgetron.Graph.ReviewedRuns
import Gadgetron.Provider.Decode
import Gadgetron.Servers.FindingAlerts
import Gadgetron.Servers.Observations
import Gadgetron.Sources.InStep
import Gadgetron.Bundle.Selection
import Gadgetron.Knowledge.Fusion
import Gadgetron.Penny.ExactlyOnce
import Gadgetron.Web.MarkerCodec
import Gadgetron.Penny.Resumption
import Gadgetron.Servers.JobLedger
import Gadgetron.Knowledge.Containment
import Gadgetron.Knowledge.ChunkSizes
import Gadgetron.Knowledge.Link
import Gadgetron.Sources.SafeFetch
import Gadgetron.Knowledge.KeywordSearch
import Gadgetron.Nodes.Postcondition
import Gadgetron.Bundle.PlugRegistry
import Gadgetron.Penny.ProviderGates
import Gadgetron.Knowledge.NotePath
import Gadgetron.Servers.Rebucket
import Gadgetron.Enrollment.Layering
import Gadgetron.Enrollment.Rollout
import Gadgetron.Alerts.Masking
import Gadgetron.Knowledge.Duplicates
import Gadgetron.Graph.Neighborhood
import Gadgetron.Jobs.Terminal
import Gadgetron.Lib.Regex
import Gadgetron.Penny.Redact
import Gadgetron.Policy.Canonical
import Gadgetron.Jobs.AgentJson
import Gadgetron.Servers.Cooling
import Gadgetron.Graph.Paths
