import EventLedger.Library.Table
import EventLedger.Library.Machine
import EventLedger.Library.Trace
import EventLedger.Library.Clocked
import EventLedger.Library.Lists
import EventLedger.Library.DigitText
import EventLedger.Library.Utf8
import EventLedger.Library.PercentEncoding
import EventLedger.Library.Rounding
import EventLedger.Library.Ordering
import EventLedger.Library.SlidingWindow
import EventLedger.Library.Paging
import EventLedger.Library.Isolation
import EventLedger.Library.MultiDict
import EventLedger.Library.Responder
import EventLedger.Python.Datetime
import EventLedger.Python.Decimal
import EventLedger.Python.Json
import EventLedger.Python.JsonEquality
import EventLedger.Python.JsonWriter
import EventLedger.Python.Storage
import EventLedger.Python.DecimalText
import EventLedger.Python.Timestamp
import EventLedger.Schema
import EventLedger.RequestBody
import EventLedger.Tracing
import EventLedger.AccountService.Database
import EventLedger.AccountService.Service
import EventLedger.AccountService.Effect
import EventLedger.AccountService.Ledger
import EventLedger.AccountService.History
import EventLedger.AccountService.Replay
import EventLedger.AccountService.AuditTrail
import EventLedger.AccountService.Concurrent
import EventLedger.AccountService.ConcurrentBalance
import EventLedger.AccountService.ConcurrentConflict
import EventLedger.AccountService.ConcurrentEffects
import EventLedger.AccountService.OrderIndependence
import EventLedger.AccountService.ExactMoney
import EventLedger.AccountService.RecentTransactions
import EventLedger.AccountService.Redelivery
import EventLedger.AccountService.Serializability
import EventLedger.AccountService.Routes
import EventLedger.AccountService.Journal
import EventLedger.AccountService.SeparateAccounts
import EventLedger.EventGateway.Database
import EventLedger.EventGateway.EventService
import EventLedger.EventGateway.AccountClient
import EventLedger.EventGateway.AsyncFallback
import EventLedger.EventGateway.Request
import EventLedger.EventGateway.SharedClient
import EventLedger.EventGateway.BreakerCalls
import EventLedger.EventGateway.RateLimit
import EventLedger.EventGateway.RateLimitDecisions
import EventLedger.EventGateway.Errors
import EventLedger.EventGateway.Middleware
import EventLedger.EventGateway.Lifecycle
import EventLedger.EventGateway.Process
import EventLedger.EventGateway.Steps
import EventLedger.EventGateway.Consistency
import EventLedger.EventGateway.DeliveryQueue
import EventLedger.EventGateway.Outcomes
import EventLedger.EventGateway.Payloads
import EventLedger.EventGateway.PendingEvents
import EventLedger.EventGateway.StatusTransitions
import EventLedger.EventGateway.Resubmission
import EventLedger.EventGateway.ConcurrentSubmits
import EventLedger.EventGateway.Attempts
import EventLedger.EventGateway.Classification
import EventLedger.EventGateway.FailedEvents
import EventLedger.EventGateway.DownstreamErrors
import EventLedger.EventGateway.MetadataComparison
import EventLedger.EventGateway.Passes
import EventLedger.EventGateway.Backoff
import EventLedger.EventGateway.QueueDrain
import EventLedger.EventGateway.Listing
import EventLedger.EventGateway.QueueAudit
import EventLedger.EventGateway.Overdue
import EventLedger.EventGateway.TraceContext
import EventLedger.EventGateway.EventTrail
import EventLedger.EventGateway.Metrics
import EventLedger.EventGateway.Server
import EventLedger.EventGateway.Paging
import EventLedger.EventGateway.Acknowledgements
import EventLedger.EventGateway.HttpRuns
import EventLedger.Delivery.System
import EventLedger.Delivery.Steps
import EventLedger.Delivery.Connection
import EventLedger.Delivery.Ledger
import EventLedger.Delivery.Payloads
import EventLedger.Delivery.Outcomes
import EventLedger.Delivery.ExactlyOnce
import EventLedger.Delivery.Rejection
import EventLedger.Delivery.PayloadText
import EventLedger.Delivery.Routing
import EventLedger.Delivery.Retry
import EventLedger.Delivery.Listings
import EventLedger.Delivery.TraceIds
import EventLedger.Delivery.QueuedPath
import EventLedger.Delivery.Reconciliation
import EventLedger.Delivery.AccountPages
import EventLedger.Delivery.ErrorRelay
import EventLedger.Delivery.Load
