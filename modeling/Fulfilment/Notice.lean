import Fulfilment.Order.Basic
import Fulfilment.Stock.Line

/-!
# Notices

What other services are told about an order. A cancellation carries a category that is read off the
words of its reason: stock, time-out and user words are looked for in this order, and a reason
without any of them is a system error.
-/
namespace Fulfilment

/-- Why an order was cancelled, as other services see it. -/
inductive Category where
  | userRequested
  | stockUnavailable
  | paymentTimeout
  | systemError
deriving DecidableEq, Repr

namespace Category

def all : List Category := [.userRequested, .stockUnavailable, .paymentTimeout, .systemError]

/-- The name of the category on the wire. -/
def toText : Category → String
  | userRequested => "USER_REQUESTED"
  | stockUnavailable => "STOCK_UNAVAILABLE"
  | paymentTimeout => "PAYMENT_TIMEOUT"
  | systemError => "SYSTEM_ERROR"

def ofText? (s : String) : Option Category := all.find? fun c => c.toText == s

@[simp] theorem ofText?_toText (c : Category) : ofText? c.toText = some c := by
  cases c <;> rfl

/-- The reason has a word that tells of stock. -/
def tellsOfStock (reason : String) : Bool :=
  Text.mentions reason "stock" || Text.mentions reason "inventory"

/-- The reason has a word that tells of a deadline. -/
def tellsOfDeadline (reason : String) : Bool :=
  Text.mentions reason "timeout" || Text.mentions reason "expired"

/-- The reason has a word that tells of the customer. -/
def tellsOfUser (reason : String) : Bool :=
  Text.mentions reason "user" || Text.mentions reason "customer" || Text.mentions reason "requested"

def classify (reason : String) : Category :=
  if tellsOfStock reason then stockUnavailable
  else if tellsOfDeadline reason then paymentTimeout
  else if tellsOfUser reason then userRequested
  else systemError

end Category

/-- What other services are told. -/
inductive Notice where
  | orderCreated (order : OrderId) (number : OrderNumber) (user : UserId) (store : StoreId)
      (lines : List Line) (totalAmount : Money) (createdAt : Instant)
  | stockReserved (order : OrderId) (reservation : ReservationId) (store : StoreId)
      (lines : List StockLine) (expiresAt : Instant)
  | orderConfirmed (order : OrderId) (user : UserId) (totalAmount : Money)
      (paymentDeadline : Option Instant) (confirmedAt : Instant)
  | orderCancelled (order : OrderId) (reservation : Option ReservationId) (category : Category)
      (reason : String) (restoreStock : Bool) (lines : List StockLine) (cancelledAt : Instant)
  | orderRefunded (order : OrderId) (refund : RefundId) (amount : Money) (reason : String)
      (refundedAt : Instant)
deriving DecidableEq, Repr

namespace Notice

/-- The stock lines of an order: one for each of its lines. -/
def stockLines (o : Order) : List StockLine := o.lines.map fun l => ⟨l.product, l.quantity⟩

/-- The order has been placed. -/
def created (o : Order) : Notice :=
  .orderCreated o.id o.number o.user o.store o.lines o.totalAmount o.createdAt

/-- There is no such notice for an order without a reservation and its deadline. -/
def reserved? (o : Order) : Option Notice :=
  match o.reservation, o.expiresAt with
  | some reservation, some expiresAt =>
    some (.stockReserved o.id reservation o.store (stockLines o) expiresAt)
  | _, _ => none

/-- The order is confirmed and awaits its payment until its deadline. -/
def confirmed (o : Order) (now : Instant) : Notice :=
  .orderConfirmed o.id o.user o.totalAmount o.expiresAt now

/-- The category is that of the reason. -/
def cancelled (o : Order) (reason : String) (restoreStock : Bool) (now : Instant) : Notice :=
  .orderCancelled o.id o.reservation (.classify reason) reason restoreStock (stockLines o) now

/-- There is no such notice for an order without a refund. -/
def refunded? (o : Order) (now : Instant) : Option Notice :=
  o.refund.map fun refund => .orderRefunded o.id refund o.totalAmount (o.refundReason.getD "") now

/-- The name of the kind of notice. -/
def kind : Notice → String
  | orderCreated .. => "OrderCreated"
  | stockReserved .. => "StockReserved"
  | orderConfirmed .. => "OrderConfirmed"
  | orderCancelled .. => "OrderCancelled"
  | orderRefunded .. => "OrderRefunded"

/-- The order that the notice is about. -/
def order : Notice → OrderId
  | orderCreated order .. => order
  | stockReserved order .. => order
  | orderConfirmed order .. => order
  | orderCancelled order .. => order
  | orderRefunded order .. => order

end Notice

/-- The notices published so far, oldest first. While it fails, it takes none. -/
structure Outbox where
  notices : List Notice := []
  failing : Bool := false
deriving Repr

namespace Outbox

/-- Publishes a notice. A failure loses the notice and nothing else: what it tells of has already
happened. -/
def publish (b : Outbox) (n : Notice) : Outbox :=
  if b.failing then b else { b with notices := b.notices ++ [n] }

def about (b : Outbox) (id : OrderId) : List Notice := b.notices.filter fun n => n.order = id

end Outbox
end Fulfilment
