import Fulfilment.Order.Basic
import Fulfilment.Time.Rfc3339

/-!
# Transitions

An `Action` asks an order to move on. `decide` checks that the order allows it and says which event
happens; `transition` applies that event. A refused action changes nothing, and `transitionAll` runs
several actions or none.
-/
namespace Fulfilment

/-- What an order can be asked to do. -/
inductive Action where
  | markStockReserved (reservation : ReservationId) (expiresAt : Instant)
  | confirm
  | linkPayment (payment : PaymentId)
  | completePayment (payment : PaymentId)
  | prepare
  | ship
  | deliver
  | cancel (reason : String)
  | timeOut
  | refund (refund : RefundId) (reason : String)
  | completeRefund
deriving DecidableEq, Repr

namespace Action

/-- The statuses in which the state machine allows the action. -/
def requires : Action → List Status
  | markStockReserved .. => [.created]
  | confirm => [.created]
  | linkPayment _ => [.confirmed]
  | completePayment _ => [.paymentPending]
  | prepare => [.paymentCompleted]
  | ship => [.preparing]
  | deliver => [.shipped]
  | cancel _ =>
    [.created, .confirmed, .paymentPending, .paymentProcessing, .paymentCompleted, .preparing]
  | timeOut => [.paymentPending, .paymentProcessing]
  | refund .. => [.delivered]
  | completeRefund => [.refundProcessing]

/-- The action as messages name it. -/
def verb : Action → String
  | markStockReserved .. => "mark stock reserved"
  | confirm => "confirm"
  | linkPayment _ => "mark payment pending"
  | completePayment _ => "complete payment"
  | prepare => "confirm order"
  | ship => "mark shipped"
  | deliver => "mark delivered"
  | cancel _ => "cancel"
  | timeOut => "time out"
  | refund .. => "refund"
  | completeRefund => "complete refund"

/-- The state machine allows the action in this status. -/
def allowedIn (a : Action) (s : Status) : Bool := a.requires.contains s

/-- An order can be cancelled until its goods leave the warehouse or it ends. -/
theorem cancel_allowedIn (reason : String) (s : Status) :
    (cancel reason).allowedIn s = (!s.hasLeftWarehouse && !s.isTerminal) := by
  cases s <;> rfl

end Action

/-- An accepted action: the statuses before and after it, and what happened. -/
structure Transition where
  source : Status
  target : Status
  event : Event
deriving DecidableEq, Repr

namespace Order

/-- The reason recorded when the payment deadline passes. -/
def timeoutReason (o : Order) : String :=
  match o.expiresAt with
  | some deadline => "payment timeout: deadline " ++ deadline.toOffsetText ++ " passed"
  | none => "payment timeout"

/-- The outcome, if the order's status is one that the action requires. -/
def guarded (o : Order) (a : Action) (outcome : Except Rejection Event) : Except Rejection Event :=
  if a.allowedIn o.status then outcome
  else .error (.invalidState o.status a.requires a.verb)

/-- What happens when the order is asked to do something. A linked payment is never replaced, so
linking another fails in every status. -/
def decide (o : Order) (a : Action) (now : Instant) : Except Rejection Event :=
  match a with
  | .markStockReserved reservation expiresAt =>
    o.guarded a (.ok (.stockReserved reservation expiresAt now))
  | .confirm => o.guarded a (.ok (.confirmed now))
  | .linkPayment payment =>
    match o.payment with
    | some existing => .error (.paymentAlreadyLinked existing)
    | none => o.guarded a (.ok (.paymentLinked payment now))
  | .completePayment payment =>
    o.guarded a <|
      match o.payment with
      | some expected =>
        if expected = payment then .ok (.paymentCompleted payment now)
        else .error (.paymentMismatch expected payment)
      | none => .ok (.paymentCompleted payment now)
  | .prepare => o.guarded a (.ok (.prepared now))
  | .ship => o.guarded a (.ok (.shipped now))
  | .deliver => o.guarded a (.ok (.delivered now))
  | .cancel reason => o.guarded a (.ok (.cancelled reason now))
  | .timeOut => o.guarded a (.ok (.paymentTimedOut o.expiresAt o.timeoutReason now))
  | .refund refund reason => o.guarded a (.ok (.refundRequested refund reason now))
  | .completeRefund =>
    o.guarded a <|
      match o.refund with
      | some refund => .ok (.refundCompleted refund now)
      | none => .error .refundNotRequested

/-- Asks the order to do something and applies what happens. -/
def transition (o : Order) (a : Action) (now : Instant) : Except Rejection (Order × Transition) :=
  match o.decide a now with
  | .error rejection => .error rejection
  | .ok e => .ok (o.apply e, ⟨o.status, (o.apply e).status, e⟩)

/-- Asks the order to do several things in turn, each at its own instant, and gives up with the
first that it refuses. -/
def transitionAll (o : Order) : List (Action × Instant) → Except Rejection (Order × List Transition)
  | [] => .ok (o, [])
  | (a, now) :: rest =>
    match o.transition a now with
    | .error rejection => .error rejection
    | .ok (next, t) =>
      match next.transitionAll rest with
      | .error rejection => .error rejection
      | .ok (last, ts) => .ok (last, t :: ts)

theorem guarded_eq_ok_iff {o : Order} {a : Action} {outcome : Except Rejection Event} {e : Event} :
    o.guarded a outcome = .ok e ↔ a.allowedIn o.status = true ∧ outcome = .ok e := by
  simp only [guarded]
  split <;> simp_all

/-- An accepted action is allowed in the order's status. -/
theorem allowedIn_of_decide {o : Order} {a : Action} {now : Instant} {e : Event}
    (h : o.decide a now = .ok e) : a.allowedIn o.status = true := by
  cases a with
  | linkPayment payment =>
    simp only [decide] at h
    split at h
    · cases h
    · exact (guarded_eq_ok_iff.1 h).1
  | _ => exact (guarded_eq_ok_iff.1 h).1

end Order
end Fulfilment
