import Fulfilment.Order.Basic
import Fulfilment.Wire.Ident

/-!
# Orders on the wire

Order lines, statuses, orders and what happens to them. An order without a version has version 0.
-/
namespace Fulfilment

open Wire

instance : Wire OrderNumber := ⟨fun n => toJson n.text, fun j => (ofJson? j).map OrderNumber.mk⟩

instance : Wire Status := ⟨fun s => .text s.toText, fun j => (name? j).bind Status.ofText?⟩

def Line.fieldNames : List String := ["product_id", "product_name", "quantity", "unit_price"]

instance : Wire Line where
  toJson l :=
    record Line.fieldNames [toJson l.product, toJson l.name, toJson l.quantity, toJson l.unitPrice]
  ofJson? := readRecord Line.fieldNames do
    return { product := ← required, name := ← required, quantity := ← required,
             unitPrice := ← required }

def Order.fieldNames : List String :=
  ["id", "order_number", "version", "user_id", "store_id", "status", "items", "reservation_id",
    "payment_id", "expires_at", "created_at", "updated_at", "confirmed_at", "cancelled_at",
    "shipped_at", "delivered_at", "refunded_at", "failure_reason", "refund_id", "refund_reason"]

instance : Wire Order where
  toJson o :=
    record Order.fieldNames
      [toJson o.id, toJson o.number, toJson o.version, toJson o.user, toJson o.store,
        toJson o.status, toJson o.lines, ofOption o.reservation, ofOption o.payment,
        ofOption o.expiresAt, toJson o.createdAt, toJson o.updatedAt, ofOption o.confirmedAt,
        ofOption o.cancelledAt, ofOption o.shippedAt, ofOption o.deliveredAt,
        ofOption o.refundedAt, ofOption o.failureReason, ofOption o.refund,
        ofOption o.refundReason]
  ofJson? := readRecord Order.fieldNames do
    return { id := ← required, number := ← required, version := ← requiredOr 0,
             user := ← required, store := ← required, status := ← required, lines := ← required,
             reservation := ← optional, payment := ← optional, expiresAt := ← optional,
             createdAt := ← required, updatedAt := ← required, confirmedAt := ← optional,
             cancelledAt := ← optional, shippedAt := ← optional, deliveredAt := ← optional,
             refundedAt := ← optional, failureReason := ← optional, refund := ← optional,
             refundReason := ← optional }

namespace Event

/-- The names of the members of each kind of event. -/
def fieldNames : String → List String
  | "OrderPlaced" => ["order_id", "order_number", "user_id", "store_id", "items", "placed_at"]
  | "StockReserved" => ["reservation_id", "expires_at", "reserved_at"]
  | "OrderConfirmed" => ["confirmed_at"]
  | "PaymentLinked" => ["payment_id", "linked_at"]
  | "PaymentCompleted" => ["payment_id", "completed_at"]
  | "OrderPrepared" => ["confirmed_at"]
  | "OrderShipped" => ["shipped_at"]
  | "OrderDelivered" => ["delivered_at"]
  | "OrderCancelled" => ["reason", "cancelled_at"]
  | "PaymentTimedOut" => ["deadline", "reason", "timed_out_at"]
  | "RefundRequested" => ["refund_id", "reason", "requested_at"]
  | "RefundCompleted" => ["refund_id", "completed_at"]
  | _ => []

/-- The values of an event's members. -/
def fieldValues : Event → List Json
  | placed r t =>
    [toJson r.id, toJson r.number, toJson r.user, toJson r.store, toJson r.lines, toJson t]
  | stockReserved reservation expiresAt t => [toJson reservation, toJson expiresAt, toJson t]
  | confirmed t => [toJson t]
  | paymentLinked payment t => [toJson payment, toJson t]
  | paymentCompleted payment t => [toJson payment, toJson t]
  | prepared t => [toJson t]
  | shipped t => [toJson t]
  | delivered t => [toJson t]
  | cancelled reason t => [toJson reason, toJson t]
  | paymentTimedOut deadline reason t => [ofOption deadline, toJson reason, toJson t]
  | refundRequested refund reason t => [toJson refund, toJson reason, toJson t]
  | refundCompleted refund t => [toJson refund, toJson t]

/-- Reads the members of an event of a kind. -/
def reader : String → FieldReader Event
  | "OrderPlaced" =>
    return .placed ⟨← required, ← required, ← required, ← required, ← required⟩ (← required)
  | "StockReserved" => return .stockReserved (← required) (← required) (← required)
  | "OrderConfirmed" => return .confirmed (← required)
  | "PaymentLinked" => return .paymentLinked (← required) (← required)
  | "PaymentCompleted" => return .paymentCompleted (← required) (← required)
  | "OrderPrepared" => return .prepared (← required)
  | "OrderShipped" => return .shipped (← required)
  | "OrderDelivered" => return .delivered (← required)
  | "OrderCancelled" => return .cancelled (← required) (← required)
  | "PaymentTimedOut" => return .paymentTimedOut (← optional) (← required) (← required)
  | "RefundRequested" => return .refundRequested (← required) (← required) (← required)
  | "RefundCompleted" => return .refundCompleted (← required) (← required)
  | _ => failure

end Event

instance : Wire Event where
  toJson e := tagged e.kind (record (Event.fieldNames e.kind) e.fieldValues)
  ofJson? j := do
    let t ← tagged? j
    readRecord (Event.fieldNames t.kind) (Event.reader t.kind) t.data

end Fulfilment
