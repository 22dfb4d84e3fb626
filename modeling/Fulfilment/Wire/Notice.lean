import Fulfilment.Notice
import Fulfilment.Wire.Order
import Fulfilment.Wire.Stock

/-!
# Notices on the wire

What other services are told about an order, tagged with its kind. The data is always an object.
-/
namespace Fulfilment

open Wire

/-- Reads a category, also from data that was set aside. -/
def Category.read (setAside : Bool) (j : Json) : Option Category :=
  (if setAside then setAsideName? j else name? j).bind Category.ofText?

instance : Wire Category := ⟨fun c => .text c.toText, Category.read false⟩

namespace Notice

/-- The names of the members of each kind of notice. -/
def fieldNames : String → List String
  | "OrderCreated" =>
    ["order_id", "order_number", "user_id", "store_id", "items", "total_amount", "created_at"]
  | "StockReserved" => ["order_id", "reservation_id", "store_id", "items", "expires_at"]
  | "OrderConfirmed" =>
    ["order_id", "user_id", "total_amount", "payment_deadline", "confirmed_at"]
  | "OrderCancelled" =>
    ["order_id", "reservation_id", "category", "reason", "restore_stock", "items", "cancelled_at"]
  | "OrderRefunded" => ["order_id", "refund_id", "amount", "reason", "refunded_at"]
  | _ => []

def fieldValues : Notice → List Json
  | orderCreated order number user store lines totalAmount createdAt =>
    [toJson order, toJson number, toJson user, toJson store, toJson lines, toJson totalAmount,
      toJson createdAt]
  | stockReserved order reservation store lines expiresAt =>
    [toJson order, toJson reservation, toJson store, toJson lines, toJson expiresAt]
  | orderConfirmed order user totalAmount paymentDeadline confirmedAt =>
    [toJson order, toJson user, toJson totalAmount, ofOption paymentDeadline, toJson confirmedAt]
  | orderCancelled order reservation category reason restoreStock lines cancelledAt =>
    [toJson order, ofOption reservation, toJson category, toJson reason, toJson restoreStock,
      toJson lines, toJson cancelledAt]
  | orderRefunded order refund amount reason refundedAt =>
    [toJson order, toJson refund, toJson amount, toJson reason, toJson refundedAt]

/-- Reads the members of a notice of a kind, also from data that was set aside. -/
def reader (setAside : Bool) : String → FieldReader Notice
  | "OrderCreated" =>
    return .orderCreated (← required) (← required) (← required) (← required) (← required)
      (← required) (← required)
  | "StockReserved" =>
    return .stockReserved (← required) (← required) (← required) (← required) (← required)
  | "OrderConfirmed" =>
    return .orderConfirmed (← required) (← required) (← required) (← optional) (← required)
  | "OrderCancelled" =>
    return .orderCancelled (← required) (← optional) (← requiredBy (Category.read setAside))
      (← required) (← required) (← required) (← required)
  | "OrderRefunded" =>
    return .orderRefunded (← required) (← required) (← required) (← required) (← required)
  | _ => failure

end Notice

instance : Wire Notice where
  toJson n := tagged n.kind (record (Notice.fieldNames n.kind) n.fieldValues)
  ofJson? j := do
    let t ← tagged? j
    readObject (Notice.fieldNames t.kind) (Notice.reader t.setAside t.kind) t.data

end Fulfilment
