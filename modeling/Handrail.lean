import Handrail.Attachments.StagingSafety
import Handrail.Catalog.Disclosure
import Handrail.Catalog.Listing
import Handrail.Conversation.ApprovalStoreRuns
import Handrail.Conversation.ByteLimits
import Handrail.Conversation.Deliveries
import Handrail.Conversation.EventStoreContract
import Handrail.Conversation.FoldedStates
import Handrail.Conversation.Reconciliation
import Handrail.Conversation.TitleGeneration
import Handrail.Postgres.ActivityStore
import Handrail.Postgres.LivePubSubRouting
import Handrail.Postgres.RealtimeCallOrder
import Handrail.Postgres.UsageReceipts
import Handrail.Presence.ConvergenceSteps
import Handrail.ProviderContext.CheckpointVersions
import Handrail.ProviderContext.FingerprintIdentity
import Handrail.ProviderContext.Sha256Digest
import Handrail.Providers.Base64
import Handrail.Realtime.AuthoritySafety
import Handrail.Registry.Authorization
import Handrail.Runtime.RetryHistory
import Handrail.Search.CitationRecords
import Handrail.Server.Replays
import Handrail.Tools.JsonIdentity
import Handrail.Tools.SharedLoops
import Handrail.Transports.DurableReplay
import Handrail.Transports.GatewayFrames
import Handrail.Transports.ManagedRuntime
