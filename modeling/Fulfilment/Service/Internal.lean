import Fulfilment.Service.Operation

/-!
# Reads and internal requests

Customers read their own orders. Other services move orders on and are trusted, so they read any
order.
-/
namespace Fulfilment
namespace Service

open Operation

/-! ## Reads -/

/-- An order, for its owner. -/
def getOrder (id : OrderId) (user : UserId) : Operation Order := loadOwned id user

/-- The orders of a user, newest first. -/
def listOrders (user : UserId) (status : Option Status) : Operation (List Order) :=
  call .book (Shop.ordersOf user status)

/-- An order, for another service. -/
def getOrderInternal (id : OrderId) : Operation Order := loadOrder id

/-- Whether a payment is linked to an order. -/
def isPaymentLinked (id : OrderId) : Operation Bool :=
  return (← loadOrder id).payment.isSome

/-! ## Requests of other services -/

/-- Who causes the changes that other services ask for. -/
def internalActor : String := "internal"

/-- Asks an order to do something at the instant of the request, and records it when it is saved. -/
def moveOn (id : OrderId) (name : String) (a : Action) : Operation Order := do
  let now ← Shop.now
  let o ← loadOrder id
  let (o, t) ← accept o a now
  let o ← saveOrder o
  let recordedAt ← Shop.now
  Shop.record (.ofTransition id name t internalActor recordedAt)
  return o

/-- Links a payment to a confirmed order. A second one is refused. -/
def linkPayment (id : OrderId) (payment : PaymentId) : Operation Order :=
  moveOn id "LinkPayment" (.linkPayment payment)

/-- Hands a prepared order to the carrier. -/
def markShipped (id : OrderId) : Operation Order := moveOn id "MarkShipped" .ship

/-- Notes that a shipped order has arrived. -/
def markDelivered (id : OrderId) : Operation Order := moveOn id "MarkDelivered" .deliver

/-- Notes that a refund has been paid. -/
def completeRefund (id : OrderId) : Operation Order := moveOn id "CompleteRefund" .completeRefund

end Service
end Fulfilment
