import CloudScale.Lib.Run
import CloudScale.Lib.Txn
import CloudScale.Lib.Server
import CloudScale.Lib.Acting
import CloudScale.Lib.Serial
import CloudScale.Lib.Returns
import CloudScale.Lib.Alone
import CloudScale.Lib.Owned
import CloudScale.Lib.Table
import CloudScale.Lib.Occ
import CloudScale.Lib.Protocol
import CloudScale.Shared.Json
import CloudScale.Shared.Events
import CloudScale.Shared.Consumer
import CloudScale.Shared.Subscriptions
import CloudScale.Shared.Outbox
import CloudScale.Shared.OutboxDelivery
import CloudScale.Shared.OutboxOrder
import CloudScale.Shared.OutboxWorkers
import CloudScale.Shared.Message
import CloudScale.Shared.Inbox
import CloudScale.OrderService.Model
import CloudScale.OrderService.Handlers
import CloudScale.OrderService.Absorbing
import CloudScale.OrderService.Accounts
import CloudScale.OrderService.Confluence
import CloudScale.OrderService.Compensation
import CloudScale.OrderService.Idempotency
import CloudScale.InventoryService.Model
import CloudScale.InventoryService.Handlers
import CloudScale.InventoryService.Sessions
import CloudScale.InventoryService.Stock
import CloudScale.InventoryService.Locking
import CloudScale.InventoryService.LockServer
import CloudScale.InventoryService.LockRuns
import CloudScale.PaymentService.Payments
import CloudScale.Shared.JsonAccess
import CloudScale.PaymentService.Billing
import CloudScale.NotificationService.Confirmations
import CloudScale.CatalogService.Model
import CloudScale.CatalogService.Handlers
import CloudScale.Shared.DatabaseSessions
import CloudScale.Shared.PoisonMessage
import CloudScale.Shared.CircuitBreaker
import CloudScale.Shared.Resilience
import CloudScale.Tenancy.Writes
import CloudScale.Tenancy.Reads
import CloudScale.Tenancy.SagaContext
import CloudScale.Saga.ExactlyOnce
import CloudScale.Saga.System
import CloudScale.Saga.Messages
import CloudScale.Saga.Facts
import CloudScale.Saga.Charges
import CloudScale.Saga.Reservations
import CloudScale.Saga.Status
import CloudScale.Lib.Pool
import CloudScale.Platform.DomainErrors
import CloudScale.Platform.Entitlements
import CloudScale.CatalogService.BulkImport
import CloudScale.CatalogService.ProductQuota
import CloudScale.Lib.Stages
import CloudScale.OrderService.Quota
import CloudScale.Lib.Keyspace
import CloudScale.Lib.Endings
import CloudScale.Lib.Environment
import CloudScale.Lib.Exclusive
import CloudScale.AuthService.Tokens
import CloudScale.AuthService.Handlers
import CloudScale.AuthService.Rotation
import CloudScale.AuthService.Revocation
import CloudScale.Shared.Idempotency
import CloudScale.Shared.IdempotencyLock
import CloudScale.Shared.CachedResponses
import CloudScale.Lib.Joined
import CloudScale.Shared.CacheAside
import CloudScale.Lib.Relay
import CloudScale.CatalogService.ListCaches
import CloudScale.NotificationService.Deliveries
import CloudScale.Shared.EventIdentity
import CloudScale.Lib.FixedWindow
import CloudScale.Shared.Counters
import CloudScale.Shared.RateLimiter
import CloudScale.AuthService.Login
import CloudScale.PaymentService.Webhooks
import CloudScale.Shared.Pagination
import CloudScale.Frontend.ApiClient
import CloudScale.Frontend.ProtectedRoute
import CloudScale.InventoryService.ReleaseFailures
import CloudScale.InventoryService.Reservations
import CloudScale.InventoryService.BatchReserve
import CloudScale.InventoryService.LockOwners
import CloudScale.Shared.SingleFlight
import CloudScale.Shared.PyValue
import CloudScale.CatalogService.StoredProducts
import CloudScale.AuthService.LockoutDuration
import CloudScale.Shared.PyText
import CloudScale.PaymentService.StripeSignature
import CloudScale.PaymentService.SignedEvents
import CloudScale.Lib.Rounding
import CloudScale.Shared.OffsetPagination
import CloudScale.Lib.Listing
import CloudScale.Platform.OffsetListings
import CloudScale.OrderService.Sweeper
import CloudScale.OrderService.OrderTotals
import CloudScale.OrderService.StorableCheckouts
import CloudScale.CatalogService.BulkOutcomes
import CloudScale.CatalogService.SearchRanking
import CloudScale.Lib.Like
import CloudScale.CatalogService.Suggestions
import CloudScale.OrderService.Analytics
import CloudScale.Frontend.DataTable
import CloudScale.Lib.Csv
import CloudScale.Lib.Substitution
import CloudScale.Frontend.CsvExport
import CloudScale.Frontend.JsString
import CloudScale.Frontend.Security
import CloudScale.Frontend.FuzzySearch
import CloudScale.Frontend.Virtualizer
import CloudScale.Frontend.CartStore
import CloudScale.Frontend.WebSocket
import CloudScale.Lib.Base64
import CloudScale.Lib.Unicode
import CloudScale.Frontend.Uri
import CloudScale.Frontend.Json
import CloudScale.Frontend.SecureStorage
import CloudScale.Platform.RequestPipeline
import CloudScale.Frontend.ErrorMapper
import CloudScale.Frontend.Checkout
import CloudScale.Shared.Bulkhead
import CloudScale.Lib.SqlText
import CloudScale.Shared.RlsMigration
import CloudScale.Shared.Revisions
import CloudScale.Lib.Parts
import CloudScale.AuthService.Accounts
import CloudScale.PaymentService.PlanChanges
import CloudScale.Frontend.Transmissions
import CloudScale.Frontend.SentHeaders
import CloudScale.Frontend.ServiceWorker
import CloudScale.Lib.History
import CloudScale.Frontend.CacheFirst
