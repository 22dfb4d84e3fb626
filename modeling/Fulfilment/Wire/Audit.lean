import Fulfilment.Audit
import Fulfilment.Wire.Order

/-!
# Audit entries on the wire

What was recorded about an order is written as one object: the order, the action by its name, the
statuses that it led from and to, who acted, and when. The first status and the detail may be
missing, and are `null` then.
-/
namespace Fulfilment

open Wire

def AuditEntry.fieldNames : List String :=
  ["order_id", "action", "from", "to", "actor", "detail", "recorded_at"]

instance : Wire AuditEntry where
  toJson e :=
    record AuditEntry.fieldNames
      [toJson e.order, toJson e.action, ofOption e.source, toJson e.target, toJson e.actor,
        ofOption e.detail, toJson e.recordedAt]
  ofJson? := readRecord AuditEntry.fieldNames do
    return { order := ← required, action := ← required, source := ← optional,
             target := ← required, actor := ← required, detail := ← optional,
             recordedAt := ← required }

end Fulfilment
