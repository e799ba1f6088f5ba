import Aeropass.Lib.Runs
import Aeropass.Lib.LastWins
import Aeropass.Lib.Threads
import Aeropass.Lib.Ledger
import Aeropass.Lib.LockOrder
import Aeropass.Lib.Inbox
import Aeropass.Lib.Rows
import Aeropass.Lib.Cell
import Aeropass.Lib.AuditLog
import Aeropass.Lib.PyStr
import Aeropass.Lib.PyLower
import Aeropass.Lib.PyInt
import Aeropass.Lib.Window
import Aeropass.Lib.SlidingLog
import Aeropass.Lib.ExitStack
import Aeropass.Lib.Binary64
import Aeropass.Lib.PyJson
import Aeropass.Lib.PyDict
import Aeropass.Lib.TwoRuns
import Aeropass.Lib.Calendar
import Aeropass.Lib.IsoFormat
import Aeropass.Domain.Basic
import Aeropass.Domain.Flight
import Aeropass.Domain.Credential
import Aeropass.Domain.Builder
import Aeropass.Domain.Signing
import Aeropass.Domain.Passenger
import Aeropass.Domain.Identity
import Aeropass.Domain.Events
import Aeropass.Domain.Verification
import Aeropass.Credentials.Store
import Aeropass.Credentials.System
import Aeropass.Credentials.Tables
import Aeropass.Credentials.Inv
import Aeropass.Credentials.Effects
import Aeropass.Credentials.Steps
import Aeropass.Credentials.IssueSteps
import Aeropass.Credentials.Reach
import Aeropass.Credentials.History
import Aeropass.Credentials.OneLive
import Aeropass.Credentials.FastPath
import Aeropass.Credentials.Consume
import Aeropass.Credentials.Writes
import Aeropass.Credentials.Sources
import Aeropass.Credentials.Locks
import Aeropass.Credentials.Forget
import Aeropass.Credentials.Failed
import Aeropass.Credentials.View
import Aeropass.Credentials.AtRest
import Aeropass.Credentials.Alike
import Aeropass.Credentials.LazyExpiry
import Aeropass.Credentials.Sweep
import Aeropass.Credentials.Emission
import Aeropass.Credentials.Offline
import Aeropass.Outbox.Store
import Aeropass.Outbox.System
import Aeropass.Outbox.Inv
import Aeropass.Outbox.Delivery
import Aeropass.Outbox.Drain
import Aeropass.Outbox.Consumer
import Aeropass.Outbox.Stale
import Aeropass.Outbox.Columns
import Aeropass.Outbox.Bodies
import Aeropass.Verification.Store
import Aeropass.Verification.System
import Aeropass.Verification.Progress
import Aeropass.Verification.Effects
import Aeropass.Verification.Inv
import Aeropass.Verification.Writes
import Aeropass.Verification.Attempts
import Aeropass.Verification.Identities
import Aeropass.Verification.Explained
import Aeropass.Registration.Store
import Aeropass.Registration.System
import Aeropass.Registration.Inv
import Aeropass.Registration.Answers
import Aeropass.Registration.Stored
import Aeropass.Registration.Judged
import Aeropass.Observability.Catalog
import Aeropass.Observability.Hooks
import Aeropass.Observability.Transparent
import Aeropass.Observability.Privacy
import Aeropass.Observability.Dropped
import Aeropass.Observability.Unseen
import Aeropass.Observability.Sink
import Aeropass.Verification.Metrics
import Aeropass.Biometrics.Adapters
import Aeropass.Biometrics.Inconclusive
import Aeropass.Breaker.System
import Aeropass.Breaker.Inv
import Aeropass.Breaker.Gate
import Aeropass.Breaker.Sequential
import Aeropass.Breaker.Burst
import Aeropass.Breaker.Lost
import Aeropass.Breaker.Lockout
import Aeropass.Faults.Context
import Aeropass.Faults.Requests
import Aeropass.Faults.Reported
import Aeropass.Faults.Isolated
import Aeropass.Fakes.RateLimiter
import Aeropass.Fakes.TokenStore
import Aeropass.System.World
import Aeropass.System.Projection
import Aeropass.System.Custody
import Aeropass.System.Schema
import Aeropass.System.Deadlock
import Aeropass.System.Notices
import Aeropass.Credentials.Linearize
import Aeropass.Verification.Counted
import Aeropass.System.Failures
import Aeropass.Api.Private
import Aeropass.Api.Contract
import Aeropass.System.Issued
