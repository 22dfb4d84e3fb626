import Fulfilment.Audit
import Fulfilment.Double
import Fulfilment.Ident
import Fulfilment.Json.Read
import Fulfilment.Json.Render
import Fulfilment.Json.Value
import Fulfilment.Limits
import Fulfilment.Money
import Fulfilment.Notice
import Fulfilment.Order.Basic
import Fulfilment.Order.Book
import Fulfilment.Order.Eligibility
import Fulfilment.Order.Event
import Fulfilment.Order.InPlace
import Fulfilment.Order.Line
import Fulfilment.Order.Number
import Fulfilment.Order.Rejection
import Fulfilment.Order.Status
import Fulfilment.Order.Transition
import Fulfilment.Proofs.Alone
import Fulfilment.Proofs.Fallible
import Fulfilment.Proofs.Json.ReadBack
import Fulfilment.Proofs.Lists
import Fulfilment.Proofs.Order.Attempts
import Fulfilment.Proofs.Order.Fields
import Fulfilment.Proofs.Order.History
import Fulfilment.Proofs.Order.InPlace
import Fulfilment.Proofs.Order.Lifecycle
import Fulfilment.Proofs.Order.Numbering
import Fulfilment.Proofs.Order.Placing
import Fulfilment.Proofs.Order.Progress
import Fulfilment.Proofs.Order.Replay
import Fulfilment.Proofs.Order.Saving
import Fulfilment.Proofs.Order.Total
import Fulfilment.Proofs.Pool
import Fulfilment.Proofs.Protocol
import Fulfilment.Proofs.Saga.Alone
import Fulfilment.Proofs.Saga.Arrival
import Fulfilment.Proofs.Saga.Attempts
import Fulfilment.Proofs.Saga.Cancelling
import Fulfilment.Proofs.Saga.Contention
import Fulfilment.Proofs.Saga.Once
import Fulfilment.Proofs.Saga.OtherPayment
import Fulfilment.Proofs.Saga.Overdue
import Fulfilment.Proofs.Saga.Parking
import Fulfilment.Proofs.Saga.Reaction
import Fulfilment.Proofs.Service.Account
import Fulfilment.Proofs.Service.Accounting
import Fulfilment.Proofs.Service.Amounts
import Fulfilment.Proofs.Service.Auditing
import Fulfilment.Proofs.Service.Categories
import Fulfilment.Proofs.Service.Change
import Fulfilment.Proofs.Service.Command
import Fulfilment.Proofs.Service.Creating
import Fulfilment.Proofs.Service.Failing
import Fulfilment.Proofs.Service.History
import Fulfilment.Proofs.Service.Holding
import Fulfilment.Proofs.Service.Keys
import Fulfilment.Proofs.Service.Listing
import Fulfilment.Proofs.Service.Moving
import Fulfilment.Proofs.Service.Privacy
import Fulfilment.Proofs.Service.Publishing
import Fulfilment.Proofs.Service.Quantities
import Fulfilment.Proofs.Service.Request
import Fulfilment.Proofs.Service.Seeding
import Fulfilment.Proofs.Service.TimingOut
import Fulfilment.Proofs.Service.Traffic
import Fulfilment.Proofs.Shop.Alone
import Fulfilment.Proofs.Stock.Agreement
import Fulfilment.Proofs.Stock.Alone
import Fulfilment.Proofs.Stock.Clearing
import Fulfilment.Proofs.Stock.Conflicts
import Fulfilment.Proofs.Stock.Conservation
import Fulfilment.Proofs.Stock.Counters
import Fulfilment.Proofs.Stock.InHand
import Fulfilment.Proofs.Stock.Index
import Fulfilment.Proofs.Stock.Losses
import Fulfilment.Proofs.Stock.Merging
import Fulfilment.Proofs.Stock.Quantity
import Fulfilment.Proofs.Stock.Reachable
import Fulfilment.Proofs.Stock.Releasing
import Fulfilment.Proofs.Stock.Replaying
import Fulfilment.Proofs.Stock.Reserving
import Fulfilment.Proofs.Stock.Spending
import Fulfilment.Proofs.Stock.Standing
import Fulfilment.Proofs.Stock.Sweeping
import Fulfilment.Proofs.Stock.Traffic
import Fulfilment.Proofs.TableTotal
import Fulfilment.Proofs.Text.Bytes
import Fulfilment.Proofs.Text.Keyword
import Fulfilment.Proofs.Text.Numeral
import Fulfilment.Proofs.Text.Spelling
import Fulfilment.Proofs.Text.Trimming
import Fulfilment.Proofs.Text.Uuid
import Fulfilment.Proofs.Time.Rfc3339
import Fulfilment.Proofs.Wire.Lawful
import Fulfilment.Proofs.Wire.RoundTrip
import Fulfilment.Saga.Deadline
import Fulfilment.Saga.Delivery
import Fulfilment.Saga.Error
import Fulfilment.Saga.Handling
import Fulfilment.Saga.Holds
import Fulfilment.Saga.Reaction
import Fulfilment.Saga.Signal
import Fulfilment.Script
import Fulfilment.Service.Commands
import Fulfilment.Service.Error
import Fulfilment.Service.Internal
import Fulfilment.Service.Operation
import Fulfilment.Service.Seed
import Fulfilment.Service.Settings
import Fulfilment.Shop.Calls
import Fulfilment.Shop.Catalog
import Fulfilment.Shop.RequestKeys
import Fulfilment.Shop.World
import Fulfilment.Stock.Calls
import Fulfilment.Stock.Counter
import Fulfilment.Stock.Error
import Fulfilment.Stock.Hold
import Fulfilment.Stock.Ledger
import Fulfilment.Stock.Line
import Fulfilment.Stock.Reservation
import Fulfilment.Table
import Fulfilment.Text.Blank
import Fulfilment.Text.Keyword
import Fulfilment.Text.Numeral
import Fulfilment.Text.Split
import Fulfilment.Time.Date
import Fulfilment.Time.Instant
import Fulfilment.Time.Rfc3339
import Fulfilment.Uuid
import Fulfilment.Wire.Audit
import Fulfilment.Wire.Basic
import Fulfilment.Wire.Ident
import Fulfilment.Wire.Notice
import Fulfilment.Wire.Order
import Fulfilment.Wire.Signal
import Fulfilment.Wire.Stock
import Fulfilment.Wire.Text
