import RustdeskConsole.Effects.Logic
import RustdeskConsole.Updater.World
import RustdeskConsole.Updater.Journal
import RustdeskConsole.Updater.Worker
import RustdeskConsole.Updater.WorkerRules
import RustdeskConsole.Updater.WorkerSpec
import RustdeskConsole.Updater.Safety
import RustdeskConsole.Effects.Embedding
import RustdeskConsole.Updater.Live
import RustdeskConsole.Updater.Control
import RustdeskConsole.Updater.Acceptance
import RustdeskConsole.Collections.OrderedMap
import RustdeskConsole.Collections.Numeral
import RustdeskConsole.Rbac.Authorization
import RustdeskConsole.Rbac.Grants
import RustdeskConsole.Rbac.UserRole
import RustdeskConsole.Effects.Outcomes
import RustdeskConsole.Rbac.Requests
import RustdeskConsole.Rbac.Delegation
import RustdeskConsole.Rbac.Report
import RustdeskConsole.Rbac.Removal
import RustdeskConsole.Rbac.Eligibility
import RustdeskConsole.Rbac.Targets
import RustdeskConsole.Rbac.Roles
import RustdeskConsole.Rbac.Invariant
import RustdeskConsole.Protobuf.Message
import RustdeskConsole.WebClient.Handshake
import RustdeskConsole.WebClient.Binding
import RustdeskConsole.Auth.Entities
import RustdeskConsole.Auth.World
import RustdeskConsole.Auth.Login
import RustdeskConsole.Auth.Effect
import RustdeskConsole.Auth.Protocol
import RustdeskConsole.Auth.LoginSpec
import RustdeskConsole.Auth.Revocation
import RustdeskConsole.Auth.Soundness
import RustdeskConsole.Gateway.Entities
import RustdeskConsole.Gateway.World
import RustdeskConsole.Gateway.Service
import RustdeskConsole.Gateway.Law
import RustdeskConsole.Gateway.Lawful
import RustdeskConsole.Gateway.Registry
import RustdeskConsole.Gateway.Capacity
import RustdeskConsole.Gateway.Switchboard
import RustdeskConsole.Gateway.Invalidation
import RustdeskConsole.Gateway.Closing
import RustdeskConsole.Gateway.SessionSteps
import RustdeskConsole.Gateway.ChannelSteps
import RustdeskConsole.Gateway.Protocol
import RustdeskConsole.Gateway.Frames
import RustdeskConsole.Gateway.ServiceSpec
import RustdeskConsole.Gateway.GatewaySpec
import RustdeskConsole.Gateway.Sessions
import RustdeskConsole.Gateway.Channels
import RustdeskConsole.Devices.Service
import RustdeskConsole.Devices.Ledger
import RustdeskConsole.Devices.Handlers
import RustdeskConsole.Devices.Tombstones
import RustdeskConsole.Devices.Bans
import RustdeskConsole.Devices.Reports
import RustdeskConsole.Devices.Isolation
import RustdeskConsole.Heartbeats.Service
import RustdeskConsole.Heartbeats.Pending
import RustdeskConsole.Heartbeats.Current
import RustdeskConsole.Heartbeats.Owing
import RustdeskConsole.Batches.Service
import RustdeskConsole.Batches.Drafts
import RustdeskConsole.Batches.Protocol
import RustdeskConsole.Batches.Handlers
import RustdeskConsole.Batches.Scope
import RustdeskConsole.Batches.Atomic
import RustdeskConsole.ServerBans.Service
import RustdeskConsole.ServerBans.Queue
import RustdeskConsole.ServerBans.Turns
import RustdeskConsole.Effects.Replay
import RustdeskConsole.ServerEvents.Service
import RustdeskConsole.ServerEvents.Baseline
import RustdeskConsole.ServerEvents.Fresh
import RustdeskConsole.Settings.Service
import RustdeskConsole.Settings.Protocol
import RustdeskConsole.Settings.Updates
import RustdeskConsole.Audits.Service
import RustdeskConsole.Audits.Protocol
import RustdeskConsole.Audits.Idempotence
import RustdeskConsole.Database.Statements
import RustdeskConsole.Database.Repair
import RustdeskConsole.Accounts.Administered
import RustdeskConsole.Accounts.Redemption
import RustdeskConsole.Accounts.Identifiers
import RustdeskConsole.Accounts.Capture
import RustdeskConsole.Oidc.Identities
import RustdeskConsole.Strategies.Delivery
import RustdeskConsole.Strategies.Freshness
import RustdeskConsole.Releases.Versions
import RustdeskConsole.Releases.Manifest
import RustdeskConsole.Releases.Planner
import RustdeskConsole.Posix.Paths
import RustdeskConsole.Posix.Disk
import RustdeskConsole.Posix.Volume
import RustdeskConsole.Posix.Calls
import RustdeskConsole.Serialization.Json
import RustdeskConsole.Archives.Listing
import RustdeskConsole.Archives.Members
import RustdeskConsole.Archives.Extraction
import RustdeskConsole.Archives.Containment
import RustdeskConsole.Tags.Service
import RustdeskConsole.Tags.Protocol
import RustdeskConsole.Tags.Unique
import RustdeskConsole.OidcConfigs.Unmixed
import RustdeskConsole.OidcLogins.Once
import RustdeskConsole.AddressBooks.Access
import RustdeskConsole.AddressBooks.Names
import RustdeskConsole.AddressBooks.Atomicity
import RustdeskConsole.AddressBooks.TagFilter
import RustdeskConsole.AddressBooks.RoundTrip
import RustdeskConsole.Directory.Searches
import RustdeskConsole.Heartbeats.Sync
import RustdeskConsole.Accounts.Provisioning
import RustdeskConsole.ServerEvents.Nodes
import RustdeskConsole.ServerEvents.Rendering
import RustdeskConsole.WebClient.Devices
import RustdeskConsole.Audits.Connections
import RustdeskConsole.UserGroups.Runs
import RustdeskConsole.NexusBuilds.Truthful
import RustdeskConsole.Protobuf.Wire
import RustdeskConsole.WebClient.Canonical
import RustdeskConsole.Backups.Storage
import RustdeskConsole.Backups.Scanning
import RustdeskConsole.Backups.Manifests
import RustdeskConsole.Backups.Reading
import RustdeskConsole.Backups.Restoration
import RustdeskConsole.Backups.Snapshots
import RustdeskConsole.Backups.Recovery
import RustdeskConsole.Updater.Retention
import RustdeskConsole.UpdateChecks.Answers
import RustdeskConsole.Releases.Downloads
import RustdeskConsole.Deployments.Published
import RustdeskConsole.Deployments.Fingerprints
import RustdeskConsole.Startup.Owner
import RustdeskConsole.Network.Observation
import RustdeskConsole.Updater.Locking
import RustdeskConsole.Migrations.Locked
