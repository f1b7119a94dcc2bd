import TrustLink.Effects.Prog
import TrustLink.Effects.Exec
import TrustLink.Effects.Pool
import TrustLink.Effects.Reliance
import TrustLink.Effects.Lock
import TrustLink.Store.Table
import TrustLink.Numeric.JsNumber
import TrustLink.Model.Records
import TrustLink.Model.Prisma
import TrustLink.Model.World
import TrustLink.Model.Repositories
import TrustLink.Model.EscrowService
import TrustLink.Model.Disputes
import TrustLink.Model.Webhook
import TrustLink.Model.Workers
import TrustLink.Model.Operations
import TrustLink.Model.Frame
import TrustLink.Concurrency.Session
import TrustLink.Concurrency.Discipline
import TrustLink.Concurrency.Terminal
import TrustLink.Concurrency.AutoReleaseClaim
import TrustLink.Concurrency.AutoReleaseGate
import TrustLink.Payments.Delivery
import TrustLink.Payments.Conservation
import TrustLink.Effects.Path
import TrustLink.Lifecycle.Abstract
import TrustLink.Lifecycle.Sequential
import TrustLink.Lifecycle.Refinement
import TrustLink.Lifecycle.Services
import TrustLink.Lifecycle.Runs
import TrustLink.Ingest.Model
import TrustLink.Lifecycle.Retry
import TrustLink.Ingest.Chain
import TrustLink.Ingest.Poller
import TrustLink.Ingest.Replay
import TrustLink.Lifecycle.ChainOrder
import TrustLink.Payments.Marks
import TrustLink.Contract.Model
import TrustLink.Contract.Confirmation
import TrustLink.Contract.Custody
import TrustLink.Concurrency.DeliveryClaim
import TrustLink.Auth.Model
import TrustLink.Auth.Challenge
import TrustLink.Auth.Lineage
import TrustLink.Auth.Rotation
import TrustLink.Auth.Reuse
import TrustLink.Concurrency.Evidence
import TrustLink.Payments.Matching
import TrustLink.Workers.ClaimReturn
import TrustLink.Dlq.Model
import TrustLink.Dlq.Finality
import TrustLink.Dlq.Exclusivity
import TrustLink.Ingest.Cycles
import TrustLink.Ingest.Positions
import TrustLink.Ingest.Order
import TrustLink.Ingest.Rewind
import TrustLink.Effects.Returns
import TrustLink.Concurrency.CacheReads
import TrustLink.Concurrency.Idempotency
import TrustLink.Contract.Submission
import TrustLink.Repository.Mutators
import TrustLink.Analytics.Chart
import TrustLink.Cache.Memory
import TrustLink.Ingest.Resolution
import TrustLink.Repository.Pages
import TrustLink.Requests.Canonical
import TrustLink.Auth.AccessToken
import TrustLink.Repository.CachedRecord
import TrustLink.Common.Encryption
import TrustLink.Common.Sanitize
import TrustLink.Logistics.Credential
import TrustLink.Lifecycle.BuyerContact
import TrustLink.Notifications.Dispatch
import TrustLink.Notifications.RetryQueue
import TrustLink.Store.Rotation
import TrustLink.Vendor.Profile
import TrustLink.Workers.Batch
import TrustLink.Workers.PollCycle
import TrustLink.Workers.PollRotation
import TrustLink.Common.DecimalPlaces
import TrustLink.Notifications.Backoff
import TrustLink.StressTest.Overall
import TrustLink.Concurrency.Authorisation
import TrustLink.Contract.Stack
import TrustLink.Notifications.FanOut
