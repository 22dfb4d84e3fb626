import Fulfilment.Text.Keyword

/-!
# Order statuses

```text
ORDER_CREATED --> ORDER_CONFIRMED --> PAYMENT_PENDING --> PAYMENT_COMPLETED --> PREPARING
      |                 |               |  (PAYMENT_PROCESSING)                    |
      |                 |               +--> PAYMENT_TIMEOUT                       v
      +-----------------+------------------> ORDER_CANCELLED <---------------- SHIPPED
                                                                                   |
                        REFUND_COMPLETED <-- REFUND_PROCESSING <-- DELIVERED <-----+
```

The return, failure and manual statuses are known on the wire, and no transition leads to them.
-/
namespace Fulfilment

/-- Where an order stands. -/
inductive Status where
  | created
  | confirmed
  | paymentPending
  | paymentProcessing
  | paymentCompleted
  | preparing
  | shipped
  | delivered
  | refundProcessing
  | refundCompleted
  | paymentTimeout
  | cancelled
  | returnRequested
  | returnApproved
  | returnInTransit
  | returnCompleted
  | failed
  | manualIntervention
deriving DecidableEq, Repr

namespace Status

def all : List Status :=
  [.created, .confirmed, .paymentPending, .paymentProcessing, .paymentCompleted, .preparing,
    .shipped, .delivered, .refundProcessing, .refundCompleted, .paymentTimeout, .cancelled,
    .returnRequested, .returnApproved, .returnInTransit, .returnCompleted, .failed,
    .manualIntervention]

/-- No status is missing from the list of all. -/
theorem mem_all (s : Status) : s ∈ all := by cases s <;> decide

/-- The name of the status on the wire. -/
def toText : Status → String
  | created => "ORDER_CREATED"
  | confirmed => "ORDER_CONFIRMED"
  | paymentPending => "PAYMENT_PENDING"
  | paymentProcessing => "PAYMENT_PROCESSING"
  | paymentCompleted => "PAYMENT_COMPLETED"
  | preparing => "PREPARING"
  | shipped => "SHIPPED"
  | delivered => "DELIVERED"
  | refundProcessing => "REFUND_PROCESSING"
  | refundCompleted => "REFUND_COMPLETED"
  | paymentTimeout => "PAYMENT_TIMEOUT"
  | cancelled => "ORDER_CANCELLED"
  | returnRequested => "RETURN_REQUESTED"
  | returnApproved => "RETURN_APPROVED"
  | returnInTransit => "RETURN_IN_TRANSIT"
  | returnCompleted => "RETURN_COMPLETED"
  | failed => "FAILED"
  | manualIntervention => "REQUIRES_MANUAL_INTERVENTION"

def ofText? (s : String) : Option Status := all.find? fun t => t.toText == s

@[simp] theorem ofText?_toText (s : Status) : ofText? s.toText = some s := by
  cases s <;> rfl

/-- The status with this name in any case. -/
def parse? (s : String) : Option Status := all.find? fun t => Text.sameName t.toText s

/-- The refusal of a name that no status has. -/
def unknownMessage (s : String) : String := "Unknown order status: " ++ s

/-- Several statuses as they appear in messages. -/
def joinTexts (ss : List Status) : String := String.intercalate "|" (ss.map toText)

/-- The goods have been handed to the carrier. -/
def hasLeftWarehouse : Status → Bool
  | shipped | delivered | refundProcessing | refundCompleted | returnRequested | returnApproved
  | returnInTransit | returnCompleted => true
  | _ => false

/-- The payment has been captured. -/
def isPaid (s : Status) : Bool :=
  s = paymentCompleted || s = preparing || s.hasLeftWarehouse

/-- No transition leads away from the status. -/
def isTerminal : Status → Bool
  | refundCompleted | paymentTimeout | cancelled | returnCompleted | failed
  | manualIntervention => true
  | _ => false

/-- The payment deadline applies. -/
def awaitsPayment : Status → Bool
  | paymentPending | paymentProcessing => true
  | _ => false

/-- Stock has been confirmed for the order, which has not ended otherwise since. -/
def isConfirmedOrLater (s : Status) : Bool :=
  s = confirmed || s.awaitsPayment || s.isPaid

/-- The order ended before it was paid for good. -/
def isCalledOff : Status → Bool
  | cancelled | paymentTimeout => true
  | _ => false

end Status
end Fulfilment
