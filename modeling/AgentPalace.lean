import AgentPalace.Coordination.Atomicity
import AgentPalace.Coordination.Audit
import AgentPalace.Coordination.Affinity
import AgentPalace.Coordination.Lease
import AgentPalace.Outbox.Expiry
import AgentPalace.Replication.Attempts
import AgentPalace.Skills.Governance
import AgentPalace.Graph.Names
import AgentPalace.Config.Loopback
import AgentPalace.Ingest.IndexAgree
import AgentPalace.Mcp.TasksFollow
import AgentPalace.Mcp.Placement
import AgentPalace.Hub.Verification
import AgentPalace.Hub.Approvals
import AgentPalace.Hub.CredentialRuns
import AgentPalace.Hub.PolicyAdmins
import AgentPalace.Hub.Bootstrap
import AgentPalace.SelfModel.Lifecycle
import AgentPalace.Hub.Memory
import AgentPalace.Server.Durable
import AgentPalace.Server.KgOnce
import AgentPalace.Server.Follower
import AgentPalace.Server.Reload
import AgentPalace.Hub.Forwarding
import AgentPalace.Delegation.Trace
import AgentPalace.Remote.Segments
import AgentPalace.Remote.SharedStore
import AgentPalace.Ingest.DrawerKey
import AgentPalace.Cli.MigrateSafe
import AgentPalace.Outbox.Claims
import AgentPalace.Mcp.SearchMerge
import AgentPalace.Ingest.RemoteUrl
import AgentPalace.Outbox.KeyedReplay
import AgentPalace.Ingest.Sealed
import AgentPalace.Remote.TokenStores
import AgentPalace.Search.Freshness
import AgentPalace.Dialect.WakeUp
import AgentPalace.Graph.Traversal
import AgentPalace.Core.NearDuplicate
import AgentPalace.Hub.PrivateTokens
import AgentPalace.Mcp.SignIn
import AgentPalace.A2a.Objects
import AgentPalace.McpTasks.DetailedTask
import AgentPalace.Server.TaskTokens
import AgentPalace.Search.CutoffTies
import AgentPalace.Storage.FilterSql
import AgentPalace.Storage.Maintenance
import AgentPalace.Ingest.DryRun
import AgentPalace.Storage.ProvenanceJson
import AgentPalace.Storage.Locator
