import Fulfilment.Saga.Signal
import Fulfilment.Wire.Ident

/-!
# Signals on the wire

What other services tell about an order, tagged with its kind.
-/
namespace Fulfilment

open Wire

/-- The names of the members of a line that is held. -/
def ReservedLine.fieldNames : List String := ["product_id", "quantity", "resulting_stock"]

instance : Wire ReservedLine where
  toJson l :=
    record ReservedLine.fieldNames [toJson l.product, toJson l.quantity, toJson l.resultingStock]
  ofJson? := readRecord ReservedLine.fieldNames do
    return { product := ← required, quantity := ← required, resultingStock := ← required }

/-- The names of the members of a line that is not held. -/
def ShortfallLine.fieldNames : List String := ["product_id", "requested", "available"]

instance : Wire ShortfallLine where
  toJson l :=
    record ShortfallLine.fieldNames [toJson l.product, toJson l.requested, toJson l.available]
  ofJson? := readRecord ShortfallLine.fieldNames do
    return { product := ← required, requested := ← required, available := ← required }

namespace Signal

/-- The names of the members of each kind of signal. -/
def fieldNames : String → List String
  | "InventoryReserved" => ["order_id", "items", "reserved_at"]
  | "InventoryReservationFailed" => ["order_id", "items", "reason", "failed_at"]
  | "PaymentCompleted" => ["order_id", "payment_id", "total_amount", "completed_at"]
  | "PaymentFailed" => ["order_id", "payment_id", "reason", "failed_at"]
  | "PaymentCancelled" => ["order_id", "payment_id", "reason", "cancelled_at"]
  | "PaymentCompensation" => ["order_id", "payment_id", "reason", "compensated_at"]
  | _ => []

def fieldValues : Signal → List Json
  | inventoryReserved order lines t => [toJson order, toJson lines, toJson t]
  | inventoryReservationFailed order lines reason t =>
    [toJson order, toJson lines, toJson reason, toJson t]
  | paymentCompleted order payment totalAmount t =>
    [toJson order, toJson payment, toJson totalAmount, toJson t]
  | paymentFailed order payment reason t => [toJson order, toJson payment, toJson reason, toJson t]
  | paymentCancelled order payment reason t =>
    [toJson order, toJson payment, toJson reason, toJson t]
  | paymentCompensation order payment reason t =>
    [toJson order, toJson payment, toJson reason, toJson t]

/-- Reads the members of a signal of a kind. -/
def reader : String → FieldReader Signal
  | "InventoryReserved" => return .inventoryReserved (← required) (← required) (← required)
  | "InventoryReservationFailed" =>
    return .inventoryReservationFailed (← required) (← required) (← required) (← required)
  | "PaymentCompleted" =>
    return .paymentCompleted (← required) (← required) (← required) (← required)
  | "PaymentFailed" => return .paymentFailed (← required) (← required) (← required) (← required)
  | "PaymentCancelled" =>
    return .paymentCancelled (← required) (← required) (← required) (← required)
  | "PaymentCompensation" =>
    return .paymentCompensation (← required) (← required) (← required) (← required)
  | _ => failure

end Signal

instance : Wire Signal where
  toJson s := tagged s.kind (record (Signal.fieldNames s.kind) s.fieldValues)
  ofJson? j := do
    let t ← tagged? j
    readRecord (Signal.fieldNames t.kind) (Signal.reader t.kind) t.data

end Fulfilment
