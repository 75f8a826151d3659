import JitaCart.Base.Table
import JitaCart.Base.Request
import JitaCart.Base.Numeric
import JitaCart.Base.Balance
import JitaCart.Schema
import JitaCart.Directory
import JitaCart.Settlement
import JitaCart.Api.Extract
import JitaCart.Api.ItemStatus
import JitaCart.Api.Claims
import JitaCart.Api.Reimbursements
import JitaCart.Api.Fulfillments
import JitaCart.Api.Lists
import JitaCart.Api.Contracts
import JitaCart.Worker.Match
import JitaCart.Worker.Terminal
import JitaCart.Operations
import JitaCart.Books.Ledger
import JitaCart.Books.Projection
import JitaCart.Books.Conservation
import JitaCart.Items.Stock
import JitaCart.Items.Settled
import JitaCart.Items.Effect
import JitaCart.Items.Invariant
import JitaCart.Items.Guarantees
import JitaCart.Items.Completeness
import JitaCart.Contracts.Binding
import JitaCart.Contracts.Totals
import JitaCart.Contracts.Scoring
import JitaCart.Items.Edits
import JitaCart.Contracts.Failure
import JitaCart.Contracts.Transitions
import JitaCart.Api.Corps
import JitaCart.Corps.Scoping
import JitaCart.Wallet.Bindings
import JitaCart.Wallet.Polls
import JitaCart.Wallet.Verification
import JitaCart.Wallet.Payouts
import JitaCart.Api.Transaction
import JitaCart.Api.Auth
import JitaCart.Auth.Atomicity
import JitaCart.Base.InFlight
import JitaCart.Api.Handlers
import JitaCart.Claiming.Rows
import JitaCart.Claiming.Agreement
import JitaCart.Claiming.Activity
import JitaCart.Api.Deletion
import JitaCart.Tenancy.Views
import JitaCart.Tenancy.Reach
import JitaCart.Api.Routes
import JitaCart.Tenancy.Touched
import JitaCart.Tenancy.Isolation
import JitaCart.Tenancy.RowSecurity
import JitaCart.Tenancy.Barrier
import JitaCart.Tenancy.Visible
import JitaCart.Tenancy.Archive
import JitaCart.Base.ReadCommitted
import JitaCart.Base.RelyGuarantee
import JitaCart.Items.Recompute
import JitaCart.Books.Amounts
import JitaCart.Books.Tips
import JitaCart.Books.Coverage
import JitaCart.Items.Closing
import JitaCart.Auth.ActiveCharacter
import JitaCart.Base.Quota
import JitaCart.Concurrent.Groups
import JitaCart.Concurrent.Lists
import JitaCart.Concurrent.Quotas
import JitaCart.Concurrent.ActiveLists
import JitaCart.Base.Replay
import JitaCart.Tokens.Cipher
import JitaCart.Concurrent.Characters
import JitaCart.Concurrent.CharacterCap
import JitaCart.Concurrent.TokenRows
import JitaCart.Base.Identity
import JitaCart.Concurrent.Corps
import JitaCart.Concurrent.Polling
import JitaCart.Concurrent.Trade
import JitaCart.Concurrent.Settling
import JitaCart.Concurrent.Debts
import JitaCart.Concurrent.TradeSteps
import JitaCart.Concurrent.Settled
import JitaCart.Concurrent.SettledRows
import JitaCart.Concurrent.Notices
import JitaCart.Concurrent.PayerAgreement
import JitaCart.Base.Gates
import JitaCart.Concurrent.ListFirst
import JitaCart.Base.Guarded
import JitaCart.Concurrent.Postings
import JitaCart.Concurrent.Charges
import JitaCart.Concurrent.Uncharged
import JitaCart.Concurrent.Bookkeeping
import JitaCart.Base.Leases
import JitaCart.Base.Rota
import JitaCart.Base.Json
import JitaCart.Base.Cascade
import JitaCart.Webhooks.Events
import JitaCart.Webhooks.Outbox
import JitaCart.Webhooks.Delivery
import JitaCart.Webhooks.Leasing
import JitaCart.Base.Strings
import JitaCart.Base.Grouping
import JitaCart.Domain.Multibuy
import JitaCart.Multibuy.Groups
import JitaCart.Multibuy.RoundTrip
import JitaCart.Multibuy.Formats
import JitaCart.Markets.Types
import JitaCart.Markets.Resolution
import JitaCart.Markets.Pricing
import JitaCart.Api.Naming
import JitaCart.Markets.Requests
import JitaCart.Base.Aggregate
import JitaCart.Concurrent.Estimates
import JitaCart.Concurrent.EstimateTotals
import JitaCart.Concurrent.EstimateRuns
import JitaCart.Base.Decimals
import JitaCart.Markets.Overflow
import JitaCart.Base.Saturation
import JitaCart.Markets.Aggregation
import JitaCart.Auth.ReturnTo
import JitaCart.Base.Like
import JitaCart.Markets.Search
import JitaCart.Markets.Discovery
import JitaCart.Citadels.Access
import JitaCart.Citadels.Turns
import JitaCart.Base.Select
import JitaCart.Tokens.Sweep
import JitaCart.Tokens.Rotation
import JitaCart.Base.Paging
import JitaCart.Wallet.Journal
import JitaCart.Base.Mapping
import JitaCart.Worker.Principals
