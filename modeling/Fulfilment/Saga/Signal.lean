import Fulfilment.Ident
import Fulfilment.Money
import Fulfilment.Time.Instant

/-!
# Signals

What the inventory service and the payment service tell about an order.
-/
namespace Fulfilment

/-- A product that the inventory service holds, and its stock after that. -/
structure ReservedLine where
  product : ProductId
  quantity : UInt32
  resultingStock : Int64
deriving DecidableEq, Repr

/-- A product that the inventory service could not hold. -/
structure ShortfallLine where
  product : ProductId
  requested : UInt32
  available : Int64
deriving DecidableEq, Repr

/-- What another service tells about an order. -/
inductive Signal where
  | inventoryReserved (order : OrderId) (lines : List ReservedLine) (reservedAt : Instant)
  | inventoryReservationFailed (order : OrderId) (lines : List ShortfallLine) (reason : String)
      (failedAt : Instant)
  | paymentCompleted (order : OrderId) (payment : PaymentId) (totalAmount : Money)
      (completedAt : Instant)
  | paymentFailed (order : OrderId) (payment : PaymentId) (reason : String) (failedAt : Instant)
  | paymentCancelled (order : OrderId) (payment : PaymentId) (reason : String)
      (cancelledAt : Instant)
  | paymentCompensation (order : OrderId) (payment : PaymentId) (reason : String)
      (compensatedAt : Instant)
deriving DecidableEq, Repr

namespace Signal

/-- The name of the kind of signal. -/
def kind : Signal → String
  | inventoryReserved .. => "InventoryReserved"
  | inventoryReservationFailed .. => "InventoryReservationFailed"
  | paymentCompleted .. => "PaymentCompleted"
  | paymentFailed .. => "PaymentFailed"
  | paymentCancelled .. => "PaymentCancelled"
  | paymentCompensation .. => "PaymentCompensation"

/-- The order that the signal is about. -/
def order : Signal → OrderId
  | inventoryReserved order .. => order
  | inventoryReservationFailed order .. => order
  | paymentCompleted order .. => order
  | paymentFailed order .. => order
  | paymentCancelled order .. => order
  | paymentCompensation order .. => order

/-- The payment that the signal is about. -/
def payment? : Signal → Option PaymentId
  | paymentCompleted _ payment .. => some payment
  | paymentFailed _ payment .. => some payment
  | paymentCancelled _ payment .. => some payment
  | paymentCompensation _ payment .. => some payment
  | _ => none

end Signal
end Fulfilment
