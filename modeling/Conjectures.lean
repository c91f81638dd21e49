import Conjectures.Lib.Run
import Conjectures.Lib.Transaction
import Conjectures.Lib.Table
import Conjectures.Db.Models
import Conjectures.Db.Errors
import Conjectures.Db.Credits
import Conjectures.Db.Transfers
import Conjectures.Api.Intake
import Conjectures.DepositWatcher.Settle
import Conjectures.DepositWatcher.OneSpend
import Conjectures.Chain.Transfers
import Conjectures.DepositWatcher.Scan
import Conjectures.DepositWatcher.Arrivals
import Conjectures.Db.Intents
import Conjectures.Api.Intents
import Conjectures.Intents.Steps
import Conjectures.Intents.Holds
import Conjectures.Intents.Copies
import Conjectures.Intents.Charge
import Conjectures.Db.TmcPay
import Conjectures.Api.TmcPay
import Conjectures.Api.Webhook
import Conjectures.TmcPay.Effects
import Conjectures.Reconciler.Pass
import Conjectures.Reconciler.Steps
import Conjectures.TmcPay.Rows
import Conjectures.Reconciler.Abandoned
import Conjectures.Webhooks.Claims
import Conjectures.Webhooks.Deliveries
import Conjectures.Webhooks.Once
import Conjectures.TmcPay.Sessions
import Conjectures.TmcPay.Credit
import Conjectures.Db.Reviews
import Conjectures.Db.Instructions
import Conjectures.Db.Payouts
import Conjectures.Rewards.Effects
import Conjectures.Rewards.Standing
import Conjectures.Rewards.Matching
import Conjectures.Chain.Payouts
import Conjectures.PayoutWatcher.Steps
import Conjectures.PayoutWatcher.Ledger
import Conjectures.PayoutWatcher.Tail
import Conjectures.PayoutWatcher.Conflicts
import Conjectures.Db.Verification
import Conjectures.Verification.Steps
import Conjectures.Verification.Leases
import Conjectures.Db.Invitations
import Conjectures.Invitations.Redemptions
import Conjectures.Bounty.Pricing
import Conjectures.Bounty.Quotes
import Conjectures.Bounty.Steps
import Conjectures.Bounty.Solvency
import Conjectures.Publication.Files
import Conjectures.Publication.Steps
import Conjectures.Publication.Recovery
import Conjectures.Publication.Crashes
import Conjectures.Publication.Readers
import Conjectures.Competition.Queue
import Conjectures.Competition.Registrations
import Conjectures.Db.Trajectories
import Conjectures.Trajectories.Storage
import Conjectures.Trajectories.Quota
import Conjectures.Trajectories.Claims
import Conjectures.Trajectories.Payments
import Conjectures.Trajectories.Exclusive
import Conjectures.Api.Submissions
import Conjectures.Intake.Steps
import Conjectures.Intake.Recording
import Conjectures.Intake.Collisions
import Conjectures.Intake.Keys
import Conjectures.Auth.Limiter
import Conjectures.Auth.Password
import Conjectures.Auth.Disclosure
import Conjectures.Auth.Answers
import Conjectures.Db.Sessions
import Conjectures.Auth.Cli
import Conjectures.Auth.CliRows
import Conjectures.Auth.CliSound
import Conjectures.Auth.CliSessions
import Conjectures.Auth.Entry
import Conjectures.Auth.Principals
import Conjectures.Auth.Ways
import Conjectures.Auth.SignIns
import Conjectures.Auth.Apart
import Conjectures.Bounty.Interpolation
import Conjectures.Chain.Search
import Conjectures.Chain.Pairing
import Conjectures.Chain.References
import Conjectures.Lib.DecimalArithmetic
import Conjectures.Lib.Numerals
import Conjectures.TmcPay.Amounts
import Conjectures.TmcPay.Rendering
import Conjectures.TmcPay.Quotes
import Conjectures.Api.Packages
import Conjectures.Intents.Conservation
import Conjectures.Rewards.Amendments
import Conjectures.Lib.JsonTokens
import Conjectures.Lib.Json
import Conjectures.Lib.JsonWriter
import Conjectures.Bundle.Manifest
import Conjectures.Bundle.Grammar
import Conjectures.Bundle.Canonical
import Conjectures.TaskStore.Bundles
import Conjectures.TaskStore.Publishers
import Conjectures.TaskStore.Invariant
import Conjectures.TaskStore.Operations
import Conjectures.TaskStore.Runs
import Conjectures.Auth.Traffic
import Conjectures.Auth.Clients
import Conjectures.Emissions.Vector
import Conjectures.Emissions.Conservation
import Conjectures.Api.Addresses
import Conjectures.Api.Forwarding
import Conjectures.Trajectories.Uploads
import Conjectures.Lib.Bytes
import Conjectures.Trajectories.ZipDirectory
import Conjectures.Trajectories.ZipFile
import Conjectures.Lib.Floating
import Conjectures.Feeds.Instants
import Conjectures.Lib.Base64
import Conjectures.Lib.Keyset
import Conjectures.Feeds.Texts
import Conjectures.Feeds.Cursors
import Conjectures.Feeds.Paging
import Conjectures.Scanner.Rules
import Conjectures.Scanner.Statements
import Conjectures.Lib.Quotients
import Conjectures.Pricing.Bonus
import Conjectures.Lib.Worklist
import Conjectures.Versions.Names
import Conjectures.Lib.JsonFields
import Conjectures.Lib.Memo
import Conjectures.Lib.Sorting
import Conjectures.Versions.Report
import Conjectures.Versions.Closure
import Conjectures.Versions.Imports
import Conjectures.Versions.Identity
import Conjectures.Versions.Order
import Conjectures.Versions.Shuffles
import Conjectures.Versions.Sensitivity
import Conjectures.Versions.Trees
import Conjectures.Versions.Dependencies
import Conjectures.Lib.Thresholds
import Conjectures.Pricing.Recomputation
import Conjectures.Lib.JsonReader
import Conjectures.Trajectories.Nesting
import Conjectures.Attribution.Credit
import Conjectures.Attribution.Header
import Conjectures.Lib.JsonPretty
import Conjectures.Allowlist.Registry
import Conjectures.Allowlist.Documents
import Conjectures.Allowlist.Merging
import Conjectures.Allowlist.Runs
import Conjectures.Allowlist.Building
import Conjectures.Allowlist.Built
import Conjectures.Registry.Reading
import Conjectures.Registry.Writing
import Conjectures.Registry.Rows
import Conjectures.Registry.VersionRows
import Conjectures.Registry.Codec
import Conjectures.Registry.Routing
import Conjectures.Registry.AppendOnly
import Conjectures.Registry.Places
import Conjectures.Registry.Builder
import Conjectures.Registry.Releases
import Conjectures.Registry.Opened
import Conjectures.Registry.TaskIds
