import Fulfilment.Notice
import Fulfilment.Order.Transition
import Fulfilment.Saga.Signal

/-!
# Reactions

How an order reacts to a signal: what it is asked to do, what other services are told, and what
becomes of its stock. A signal whose effect the order already shows is a duplicate. Nothing is saved
here.
-/
namespace Fulfilment

/-- What becomes of the order's stock once the reaction is saved. -/
inductive FollowUp where
  | leave
  | settle (id : ReservationId)
  | release (id : ReservationId)
deriving DecidableEq, Repr

/-- A reaction that changes the order: the changed order at its loaded version, what it was asked to
do, and what follows. -/
structure Applied where
  order : Order
  transitions : List Transition
  notice : Option Notice := none
  followUp : FollowUp := .leave
deriving DecidableEq, Repr

/-- The status in which the order was loaded. -/
def Applied.source? (a : Applied) : Option Status := a.transitions.head?.map Transition.source

/-- The effect of a signal that an order already shows. -/
inductive Shown where
  | confirmed
  | cancelled
  | paid
deriving DecidableEq, Repr

def Shown.reason : Shown → String
  | confirmed => "order already confirmed"
  | cancelled => "order already cancelled"
  | paid => "payment already completed"

/-- How an order reacts to a signal. -/
inductive Reaction where
  | apply (applied : Applied)
  | duplicate (shown : Shown)
deriving DecidableEq, Repr

namespace Reaction

/-- Stock for the order is held elsewhere: the order is confirmed. -/
def confirm (o : Order) (now : Instant) : Except Rejection Reaction :=
  if o.status.isConfirmedOrLater then .ok (.duplicate .confirmed)
  else
    match o.transition .confirm now with
    | .error rejection => .error rejection
    | .ok (next, t) =>
      .ok (.apply { order := next, transitions := [t], notice := some (.confirmed next now) })

/-- The order is cancelled for `reason`, which others are told as `told`. -/
def cancel (o : Order) (reason told : String) (restoreStock : Bool) (followUp : FollowUp)
    (now : Instant) : Except Rejection Reaction :=
  if o.status.isCalledOff then .ok (.duplicate .cancelled)
  else
    match o.transition (.cancel reason) now with
    | .error rejection => .error rejection
    | .ok (next, t) =>
      .ok (.apply
        { order := next
          transitions := [t]
          notice := some (.cancelled next told restoreStock now)
          followUp })

/-- The reason of a cancellation for want of stock, which always tells of stock. -/
def shortageReason (reason : String) : String :=
  if Category.tellsOfStock reason then reason else "inventory reservation failed: " ++ reason

/-- The order's stock is given back, if it has any. -/
def releasing (o : Order) : FollowUp :=
  match o.reservation with
  | some id => .release id
  | none => .leave

/-- The order's stock stays taken, if it has any. -/
def settling (o : Order) : FollowUp :=
  match o.reservation with
  | some id => .settle id
  | none => .leave

/-- What a completed payment asks of the order. A payment that was never linked is linked first,
since its completion can overtake the link. -/
def paymentActions (o : Order) (payment : PaymentId) : List Action :=
  if o.status = .confirmed ∧ o.payment = none then
    [.linkPayment payment, .completePayment payment, .prepare]
  else [.completePayment payment, .prepare]

/-- The order is paid for and prepared. -/
def pay (o : Order) (payment : PaymentId) (now : Instant) : Except Rejection Reaction :=
  if o.status.isPaid ∧ o.payment = some payment then .ok (.duplicate .paid)
  else
    match o.transitionAll ((paymentActions o payment).map (·, now)) with
    | .error rejection => .error rejection
    | .ok (next, ts) =>
      .ok (.apply { order := next, transitions := ts, followUp := settling next })

/-- The order is cancelled because its payment came to nothing. -/
def cancelUnpaid (o : Order) (reason told : String) (now : Instant) : Except Rejection Reaction :=
  cancel o reason told true (releasing o) now

end Reaction

/-- How an order reacts to a signal. -/
def Order.react (o : Order) (s : Signal) (now : Instant) : Except Rejection Reaction :=
  match s with
  | .inventoryReserved .. => Reaction.confirm o now
  | .inventoryReservationFailed _ _ reason _ =>
    Reaction.cancel o (Reaction.shortageReason reason) (Reaction.shortageReason reason) false .leave
      now
  | .paymentCompleted _ payment _ _ => Reaction.pay o payment now
  | .paymentFailed _ _ reason _ =>
    Reaction.cancelUnpaid o ("payment failed: " ++ reason) ("PAYMENT_FAILED: " ++ reason) now
  | .paymentCancelled _ _ reason _ =>
    Reaction.cancelUnpaid o ("payment cancelled: " ++ reason) ("PAYMENT_CANCELLED: " ++ reason) now
  | .paymentCompensation _ _ reason _ =>
    Reaction.cancelUnpaid o ("payment compensated: " ++ reason) ("payment compensated: " ++ reason)
      now

end Fulfilment
