import ERP.Auth.Effects
import ERP.Auth.Placement
import ERP.Auth.PlacementRuns
import ERP.Auth.Rotation
import ERP.Auth.RotationRuns
import ERP.Auth.Sessions
import ERP.Billing.Cancellation
import ERP.Billing.CancellationRuns
import ERP.Billing.ChargeOnce
import ERP.Billing.InvoiceExport
import ERP.Billing.PaymentRequest
import ERP.Billing.PeriodInvoices
import ERP.Billing.Settlement
import ERP.Billing.SettlementRuns
import ERP.Billing.Store
import ERP.Billing.Subscription
import ERP.Billing.SubscriptionCalls
import ERP.Billing.SubscriptionRuns
import ERP.Billing.SubscriptionSerial
import ERP.Events.Outbox
import ERP.Events.OutboxRuns
import ERP.FeatureFlags.Coherence
import ERP.FeatureFlags.Flags
import ERP.Inventory.Availability
import ERP.Inventory.AverageInvariant
import ERP.Inventory.AverageReplay
import ERP.Inventory.AverageRuns
import ERP.Inventory.Configure
import ERP.Inventory.ConfigureValued
import ERP.Inventory.Costing
import ERP.Inventory.CostingSpec
import ERP.Inventory.DivisorOperations
import ERP.Inventory.Divisors
import ERP.Inventory.Entries
import ERP.Inventory.FifoInvariant
import ERP.Inventory.FifoIssue
import ERP.Inventory.Growth
import ERP.Inventory.Ledger
import ERP.Inventory.PartialReceipts
import ERP.Inventory.PurchaseReceipts
import ERP.Inventory.Purchasing
import ERP.Inventory.Quantities
import ERP.Inventory.Readiness
import ERP.Inventory.Refinement
import ERP.Inventory.Replay
import ERP.Inventory.ReplayQuantities
import ERP.Inventory.ReplayReconciled
import ERP.Inventory.Reservation
import ERP.Inventory.ReservationClasses
import ERP.Inventory.Reserving
import ERP.Inventory.RestoreRuns
import ERP.Inventory.Restoring
import ERP.Inventory.Reversal
import ERP.Inventory.Soundness
import ERP.Inventory.Stock
import ERP.Inventory.Trail
import ERP.Inventory.Transfer
import ERP.Inventory.TransferBooks
import ERP.Inventory.TransferKept
import ERP.Inventory.TransferRefinement
import ERP.Inventory.Valuation
import ERP.Lib.Binary64
import ERP.Lib.Chain
import ERP.Lib.Csv
import ERP.Lib.Fifo
import ERP.Lib.FifoParts
import ERP.Lib.Growth
import ERP.Lib.GuardedWrites
import ERP.Lib.KeyedInsert
import ERP.Lib.Keyset
import ERP.Lib.LockedTable
import ERP.Lib.OrderedMap
import ERP.Lib.Path
import ERP.Lib.RowLocks
import ERP.Lib.Rows
import ERP.Lib.Runs
import ERP.Lib.Sorting
import ERP.Lib.Table
import ERP.Lib.Tasks
import ERP.Lib.Text
import ERP.Lib.Transaction
import ERP.Migrations.LegacyReservations
import ERP.Migrations.Reconciled
import ERP.Observability.Telemetry
import ERP.Observability.TelemetryRuns
import ERP.Orders.Completion
import ERP.Orders.DivisorRuns
import ERP.Orders.FifoRuns
import ERP.Orders.Kitchen
import ERP.Orders.KitchenService
import ERP.Orders.Operations
import ERP.Orders.OrderLines
import ERP.Orders.PaymentEvents
import ERP.Orders.PaymentLedger
import ERP.Orders.Payments
import ERP.Orders.PurchaseFreeze
import ERP.Orders.PurchaseNumbers
import ERP.Orders.PurchaseOrders
import ERP.Orders.PurchaseRuns
import ERP.Orders.ReceiptLines
import ERP.Orders.ReceiptOutcome
import ERP.Orders.TrailRuns
import ERP.Orders.TransferCalls
import ERP.Orders.TransferRuns
import ERP.Orders.ValueRuns
import ERP.Platform.LifecycleRuns
import ERP.Platform.Settings
import ERP.Platform.SettingsRuns
import ERP.Platform.TenantLifecycle
import ERP.Rbac.Administrators
import ERP.Rbac.Effects
import ERP.Rbac.Escalation
import ERP.Rbac.Invitations
import ERP.Rbac.Roles
import ERP.Realtime.Delivery
import ERP.Realtime.Rooms
import ERP.Receipt
import ERP.Schema
import ERP.Storage.TenantPath
import ERP.Storage.Upload
import ERP.Store
import ERP.Tenants.Currency
import ERP.Tenants.CurrencyRuns
import ERP.Worker.JobAttempts
import ERP.Worker.JobHistory
import ERP.Worker.JobHistoryRuns
