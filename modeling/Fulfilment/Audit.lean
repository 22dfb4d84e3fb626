import Fulfilment.Order.Transition

/-!
# The audit trail

Each change of an order's status is recorded with the one who caused it. A lost entry never blocks
the change that it records.
-/
namespace Fulfilment

/-- One recorded change of status. `actor` is a user, or the name of a process. -/
structure AuditEntry where
  order : OrderId
  action : String
  source : Option Status
  target : Status
  actor : String
  detail : Option String := none
  recordedAt : Instant
deriving DecidableEq, Repr

namespace AuditEntry

/-- The entry of an accepted action. -/
def ofTransition (order : OrderId) (action : String) (t : Transition) (actor : String)
    (now : Instant) (detail : Option String := none) : AuditEntry where
  order := order
  action := action
  source := some t.source
  target := t.target
  actor := actor
  detail := detail
  recordedAt := now

end AuditEntry

/-- The entries recorded so far, oldest first. While it fails, it takes none. -/
structure AuditTrail where
  entries : List AuditEntry := []
  failing : Bool := false
deriving Repr

namespace AuditTrail

/-- Adds an entry. A failure loses the entry and nothing else. -/
def record (a : AuditTrail) (e : AuditEntry) : AuditTrail :=
  if a.failing then a else { a with entries := a.entries ++ [e] }

def about (a : AuditTrail) (id : OrderId) : List AuditEntry :=
  a.entries.filter fun e => e.order = id

end AuditTrail
end Fulfilment
