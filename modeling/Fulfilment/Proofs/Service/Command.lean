import Fulfilment.Saga.Deadline
import Fulfilment.Saga.Handling
import Fulfilment.Service.Commands
import Fulfilment.Service.Internal
import Fulfilment.Shop.World

/-!
# Commands of the shop

Everything that changes orders, as one type: what customers and other services ask for, the handling
of signals, and the scan for overdue payments.
-/
namespace Fulfilment
namespace Service

/-- An operation that changes orders. -/
inductive Command where
  | create (budget : RetryBudget) (ttl : Span) (request : CreateRequest) (draw : Draw)
  | cancel (id : OrderId) (user : UserId) (reason : Option String)
  | refund (id : OrderId) (user : UserId) (reason : Option String) (refund : RefundId)
  | linkPayment (id : OrderId) (payment : PaymentId)
  | ship (id : OrderId)
  | deliver (id : OrderId)
  | completeRefund (id : OrderId)
  | handle (retries : ConflictRetries) (signal : Signal)
  | scan (batch : BatchSize)

/-- What an operation that changes orders ends with. It may have broken off without an answer. -/
inductive Answer where
  | order (r : Except ServiceError Order)
  | handled (r : Except SagaError Saga.Handled)
  | scanned (r : Except SagaError Nat)
  | brokeOff

/-- How the creation of an order ends. -/
def Answer.ofCreation : Except ServiceError (Ending Order) → Answer
  | .ok (.answered o) => order (.ok o)
  | .ok .brokeOff => brokeOff
  | .error e => order (.error e)

/-- The calls of the operation, where a desk settles and releases holds. -/
def Command.script (desk : HoldDesk) : Command → Script Shop.calls Answer
  | .create budget ttl request draw =>
    .ofCreation <$> (createOrder budget ttl request draw).run
  | .cancel id user reason => .order <$> (cancelOrder id user reason).run
  | .refund id user reason made => .order <$> (refundOrder id user reason made).run
  | .linkPayment id payment => .order <$> (Service.linkPayment id payment).run
  | .ship id => .order <$> (markShipped id).run
  | .deliver id => .order <$> (markDelivered id).run
  | .completeRefund id => .order <$> (Service.completeRefund id).run
  | .handle retries signal => .handled <$> Saga.handle desk retries signal
  | .scan batch => .scanned <$> Saga.scan desk batch

end Service

/-- A world with one store, which sells widgets and has five of them. -/
def widgetShop : World where
  clock := ⟨0, 0, by decide, by decide, by decide⟩
  ledger := (({} : Ledger).write ⟨"widget"⟩ 5).openStore ⟨"store"⟩
  catalog := ({} : Catalog).add ⟨"store"⟩ [⟨"widget"⟩]

/-- A request for two of the widgets. -/
def twoWidgets : Service.CreateRequest where
  key := "first"
  user := ⟨.ofNat 1⟩
  store := ⟨"store"⟩
  lines := [⟨⟨"widget"⟩, "Widget", 2, ⟨100⟩⟩]

/-- The order that is asked for. -/
def widgetRequest : NewOrder :=
  twoWidgets.newOrder ⟨⟨.ofNat 2⟩, ⟨"first"⟩, 0⟩ widgetShop.clock

def placedWidgets : Order := .ofRequest widgetRequest widgetShop.clock

/-- The shop in which one order is stored. -/
def shopWith (o : Order) : World := { widgetShop with book := ({} : OrderBook).store o }

def widgetsHeld : Signal := .inventoryReserved placedWidgets.id [] widgetShop.clock

/-- The payment for the two widgets is completed. -/
def widgetsPaid : Signal := .paymentCompleted placedWidgets.id ⟨"payment"⟩ ⟨200⟩ widgetShop.clock

end Fulfilment
