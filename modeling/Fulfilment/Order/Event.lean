import Fulfilment.Order.Line
import Fulfilment.Order.Number

/-!
# Order events

What can happen to an order. A transition decides one event, and the state of an order is the fold
of its events.
-/
namespace Fulfilment

/-- What an order is placed with. -/
structure NewOrder where
  id : OrderId
  number : OrderNumber
  user : UserId
  store : StoreId
  lines : List Line
deriving DecidableEq, Repr

/-- Something that happened to an order. -/
inductive Event where
  | placed (request : NewOrder) (placedAt : Instant)
  | stockReserved (reservation : ReservationId) (expiresAt reservedAt : Instant)
  | confirmed (confirmedAt : Instant)
  | paymentLinked (payment : PaymentId) (linkedAt : Instant)
  | paymentCompleted (payment : PaymentId) (completedAt : Instant)
  | prepared (confirmedAt : Instant)
  | shipped (shippedAt : Instant)
  | delivered (deliveredAt : Instant)
  | cancelled (reason : String) (cancelledAt : Instant)
  | paymentTimedOut (deadline : Option Instant) (reason : String) (timedOutAt : Instant)
  | refundRequested (refund : RefundId) (reason : String) (requestedAt : Instant)
  | refundCompleted (refund : RefundId) (completedAt : Instant)
deriving DecidableEq, Repr

namespace Event

/-- The name of the kind of event. -/
def kind : Event → String
  | placed .. => "OrderPlaced"
  | stockReserved .. => "StockReserved"
  | confirmed .. => "OrderConfirmed"
  | paymentLinked .. => "PaymentLinked"
  | paymentCompleted .. => "PaymentCompleted"
  | prepared .. => "OrderPrepared"
  | shipped .. => "OrderShipped"
  | delivered .. => "OrderDelivered"
  | cancelled .. => "OrderCancelled"
  | paymentTimedOut .. => "PaymentTimedOut"
  | refundRequested .. => "RefundRequested"
  | refundCompleted .. => "RefundCompleted"

/-- When the event happened. -/
def occurredAt : Event → Instant
  | placed _ t => t
  | stockReserved _ _ t => t
  | confirmed t => t
  | paymentLinked _ t => t
  | paymentCompleted _ t => t
  | prepared t => t
  | shipped t => t
  | delivered t => t
  | cancelled _ t => t
  | paymentTimedOut _ _ t => t
  | refundRequested _ _ t => t
  | refundCompleted _ t => t

end Event
end Fulfilment
