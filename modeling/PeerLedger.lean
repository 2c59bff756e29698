import PeerLedger.Formats.Base64Url
import PeerLedger.Formats.JsonText
import PeerLedger.Formats.IsoDate
import PeerLedger.Formats.FixedPoint
import PeerLedger.Formats.JsonNumbers
import PeerLedger.Formats.JsonWebToken
import PeerLedger.Formats.LikePattern
import PeerLedger.Formats.DateTime
import PeerLedger.Formats.JsonSchema
import PeerLedger.Formats.PercentEncoding
import PeerLedger.Formats.BinaryString
import PeerLedger.Numbers.Rounding
import PeerLedger.Numbers.FloatingPoint
import PeerLedger.Accounts.Bank
import PeerLedger.Limits.FixedWindow
import PeerLedger.Limits.RateLimitGuards
import PeerLedger.Listings.Pages
import PeerLedger.Dialogues.Dialogue
import PeerLedger.Transactions.Program
import PeerLedger.Transactions.Machine
import PeerLedger.Transactions.RelyGuarantee
import PeerLedger.Transactions.Solo
import PeerLedger.Transactions.Snapshot
import PeerLedger.Transactions.Executions
import PeerLedger.Transactions.Clients
import PeerLedger.Transactions.Statements
import PeerLedger.Transactions.Embedding
import PeerLedger.Transactions.Restriction
import PeerLedger.Ledger.Journal
import PeerLedger.Ledger.WalletAggregate
import PeerLedger.Ledger.WalletHistory
import PeerLedger.Ledger.Database
import PeerLedger.Ledger.EventStore
import PeerLedger.Ledger.EventStreams
import PeerLedger.Ledger.Wallets
import PeerLedger.Ledger.Commits
import PeerLedger.Ledger.Changes
import PeerLedger.Ledger.Consistency
import PeerLedger.Ledger.Service
import PeerLedger.Ledger.Statements
import PeerLedger.Ledger.Commands
import PeerLedger.Ledger.SettlementStatements
import PeerLedger.Ledger.TransferCommands
import PeerLedger.Ledger.Soundness
import PeerLedger.Ledger.Serializability
import PeerLedger.Ledger.Settlements
import PeerLedger.Ledger.Provenance
import PeerLedger.Ledger.TransferHolds
import PeerLedger.Ledger.Balances
import PeerLedger.Ledger.BankRefinement
import PeerLedger.Ledger.Decisions
import PeerLedger.Ledger.Reconciliation
import PeerLedger.Ledger.WalletReconciliation
import PeerLedger.Ledger.Rebuilds
import PeerLedger.Ledger.QuiescentWallets
import PeerLedger.Ledger.Receivers
import PeerLedger.Ledger.Auth
import PeerLedger.Ledger.WalletCreation
import PeerLedger.Ledger.LegacyBalances
import PeerLedger.Ledger.Conflicts
import PeerLedger.Ledger.ConflictRetries
import PeerLedger.Payments.Transfer
import PeerLedger.Payments.Database
import PeerLedger.Payments.Outbox
import PeerLedger.Payments.Gateway
import PeerLedger.Payments.Saga
import PeerLedger.Payments.Transfers
import PeerLedger.Payments.SplitBills
import PeerLedger.Payments.MoneyText
import PeerLedger.Payments.Service
import PeerLedger.Payments.Commits
import PeerLedger.Payments.Protocol
import PeerLedger.Payments.BillCounts
import PeerLedger.Payments.Workers
import PeerLedger.Payments.SagaRules
import PeerLedger.Payments.RequestRules
import PeerLedger.Payments.Soundness
import PeerLedger.Payments.Scripts
import PeerLedger.Payments.Leases
import PeerLedger.Payments.Fencing
import PeerLedger.Payments.Completions
import PeerLedger.Payments.Announcements
import PeerLedger.Payments.Settling
import PeerLedger.Payments.Amounts
import PeerLedger.Payments.AmountTransport
import PeerLedger.Payments.Conservation
import PeerLedger.Payments.Agreement
import PeerLedger.Payments.SettledBills
import PeerLedger.Payments.HoldIntent
import PeerLedger.Payments.OrphanedHolds
import PeerLedger.Payments.Idempotency
import PeerLedger.Payments.Authorization
import PeerLedger.Payments.CreationRaces
import PeerLedger.Payments.StuckBills
import PeerLedger.Payments.StrandedTransfers
import PeerLedger.Payments.FxRounding
import PeerLedger.Payments.BillSplits
import PeerLedger.Payments.CircuitBreaker
import PeerLedger.Payments.Retries
import PeerLedger.Payments.LostLeases
import PeerLedger.Payments.Reminders
import PeerLedger.Payments.Scans
import PeerLedger.Messaging.Relay
import PeerLedger.Messaging.Publication
import PeerLedger.Messaging.Encoding
import PeerLedger.Notifications.IntegrationEvent
import PeerLedger.Notifications.Inbox
import PeerLedger.Notifications.Deliveries
import PeerLedger.Notifications.ActivityFeed
import PeerLedger.Notifications.Producers
import PeerLedger.Messaging.FedRelay
import PeerLedger.Messaging.LedgerOutbox
import PeerLedger.Notifications.FedInbox
import PeerLedger.Notifications.Pipeline
import PeerLedger.Notifications.BrokerConnection
import PeerLedger.Notifications.Authentication
import PeerLedger.Notifications.LiveActivity
import PeerLedger.Messaging.Contracts
import PeerLedger.Sessions.Frontend
import PeerLedger.Sessions.Gateway
import PeerLedger.Sessions.Browsers
import PeerLedger.Sessions.Handlers
import PeerLedger.Sessions.RequestUsers
import PeerLedger.Sessions.Renewals
import PeerLedger.Sessions.PageAccess
