import Fulfilment.Order.Eligibility
import Fulfilment.Service.Error
import Fulfilment.Shop.Calls
import Fulfilment.Stock.Reservation

/-!
# Operations

A service operation is a script on the shop that may fail. It gives up with the first error; what it
has changed by then stays changed, so every operation saves last what can still be refused.
-/
namespace Fulfilment

/-- A script on the shop that may fail. -/
abbrev Operation := ExceptT ServiceError (Script Shop.calls)

namespace Operation

variable {α ε : Type}

/-- Goes on with a value, or fails for the given cause. -/
def require (cause : ε → ServiceError) : Except ε α → Operation α
  | .ok a => pure a
  | .error e => throw (cause e)

/-- Makes a call that may fail. -/
def call (cause : ε → ServiceError) (p : Script Shop.calls (Except ε α)) : Operation α := do
  require cause (← p)

/-- The cause of a failure to load an order. -/
def loadFailure : BookError → ServiceError
  | .notFound id => .orderNotFound id
  | e => .book e

/-- Loads an order that must exist. -/
def loadOrder (id : OrderId) : Operation Order := do
  match ← call loadFailure (Shop.load id) with
  | some o => pure o
  | none => throw (.orderNotFound id)

/-- Loads an order for its owner. -/
def loadOwned (id : OrderId) (user : UserId) : Operation Order := do
  let o ← loadOrder id
  if o.isOwnedBy user then pure o else throw (.accessDenied id user)

/-- Asks an order to do something. -/
def accept (o : Order) (a : Action) (now : Instant) : Operation (Order × Transition) :=
  require .order (o.transition a now)

/-- Saves an order and answers it at its new version. -/
def saveOrder (o : Order) : Operation Order := do
  let version ← call .book (Shop.save o)
  return { o with version }

/-- Gives the stock of a reservation back and says whether that worked. -/
def releaseHold (id : ReservationId) : Script Shop.calls Bool := do
  match ← Shop.onStock (Reservation.release id) with
  | .ok _ => return true
  | .error _ => return false

end Operation
end Fulfilment
