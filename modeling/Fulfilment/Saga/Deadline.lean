import Fulfilment.Limits
import Fulfilment.Saga.Error
import Fulfilment.Saga.Holds
import Fulfilment.Shop.Calls

/-!
# Payment deadlines

A scan times out the orders whose payment is overdue. Each is loaded again and left alone if it has
moved on meanwhile, and a failure with one order does not keep the scan from the others.
-/
namespace Fulfilment
namespace Saga

/-- Who causes the time-outs. -/
def scanner : String := "payment-timeout-scanner"

/-- What follows a saved time-out. -/
def afterTimeOut (desk : HoldDesk) (o : Order) (t : Transition) (now : Instant) :
    Script Shop.calls Unit := do
  let reason := o.failureReason.getD "payment timeout"
  Shop.record (.ofTransition o.id "PaymentTimeout" t scanner now (some reason))
  Shop.publish (.cancelled o reason true now)
  match o.reservation with
  | some id =>
    let _ ← Shop.onStock (desk.release id)
  | none => pure ()

/-- Saves a timed-out order, unless someone else saved the order first. -/
def commitTimeOut (desk : HoldDesk) (o : Order) (t : Transition) (now : Instant) :
    Script Shop.calls (Except SagaError Bool) := do
  match ← Shop.save o with
  | .ok _ =>
    afterTimeOut desk o t now
    return .ok true
  | .error e => return if e.isConflict then .ok false else .error (.book e)

/-- Times out one order, if its payment is still overdue. Says whether it did. -/
def timeOut (desk : HoldDesk) (id : OrderId) : Script Shop.calls (Except SagaError Bool) := do
  match ← Shop.load id with
  | .error e => return .error (.book e)
  | .ok none => return .ok false
  | .ok (some o) =>
    let now ← Shop.now
    if o.isOverdue now then
      match o.transition .timeOut now with
      | .error rejection => return .error (.order rejection)
      | .ok (next, t) => commitTimeOut desk next t now
    else return .ok false

/-- Times out several orders and counts those it did, after `count`. -/
def timeOutAll (desk : HoldDesk) (count : Nat) : List OrderId → Script Shop.calls Nat
  | [] => return count
  | id :: ids => do
    match ← timeOut desk id with
    | .ok true => timeOutAll desk (count + 1) ids
    | _ => timeOutAll desk count ids

/-- Times out one batch of overdue orders and counts them. -/
def scan (desk : HoldDesk) (batch : BatchSize) : Script Shop.calls (Except SagaError Nat) := do
  let now ← Shop.now
  match ← Shop.overdue now batch.count with
  | .error e => return .error (.book e)
  | .ok ids => return .ok (← timeOutAll desk 0 ids)

end Saga
end Fulfilment
