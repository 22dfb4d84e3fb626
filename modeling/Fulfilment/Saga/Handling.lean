import Fulfilment.Saga.Error
import Fulfilment.Saga.Holds
import Fulfilment.Saga.Reaction
import Fulfilment.Shop.Calls

/-!
# Handling signals

A signal is handled by loading its order, letting the order react, and saving the outcome against
the loaded version. Audit, notice and hold follow the save and cannot fail the handling. If someone
else saved the order first, it is loaded again and reacts as it is then, until the retries are
spent.
-/
namespace Fulfilment
namespace Saga

/-- Who causes the changes that signals ask for. -/
def actor : String := "saga"

/-- What handling a signal did. -/
inductive Handled where
  | transitioned (source target : Status)
  | duplicate
deriving DecidableEq, Repr

/-- The audit entry of one transition. A cancellation tells its reason. -/
def auditEntry (s : Signal) (o : Order) (t : Transition) (now : Instant) : AuditEntry :=
  .ofTransition o.id s.kind t actor now (if t.target = .cancelled then o.failureReason else none)

/-- The audit entry of a paid order whose stock had already been given back. -/
def missingHoldEntry (o : Order) (id : ReservationId) (now : Instant) : AuditEntry where
  order := o.id
  action := "ConfirmStockHold"
  source := some o.status
  target := o.status
  actor := actor
  detail := some ("stock hold " ++ id.text ++ " already released; manual reconciliation required")
  recordedAt := now

def recordAll : List AuditEntry → Script Shop.calls Unit
  | [] => pure ()
  | e :: es => do
    Shop.record e
    recordAll es

/-- Does what becomes of the order's stock. -/
def settleStock (desk : HoldDesk) (o : Order) (now : Instant) : FollowUp → Script Shop.calls Unit
  | .leave => pure ()
  | .settle id => do
    match ← Shop.onStock (desk.settle id) with
    | .ok false => Shop.record (missingHoldEntry o id now)
    | _ => pure ()
  | .release id => do
    let _ ← Shop.onStock (desk.release id)

/-- What follows a saved reaction. -/
def afterSave (desk : HoldDesk) (s : Signal) (a : Applied) : Script Shop.calls Unit := do
  let now ← Shop.now
  recordAll (a.transitions.map fun t => auditEntry s a.order t now)
  Shop.publish? a.notice
  settleStock desk a.order now a.followUp

/-- Saves a reaction of the order that was loaded in status `loaded`. `none` means that someone else
saved the order first. -/
def commit (desk : HoldDesk) (s : Signal) (loaded : Status) (a : Applied) :
    Script Shop.calls (Option (Except SagaError Handled)) := do
  match ← Shop.save a.order with
  | .ok _ =>
    afterSave desk s a
    return some (.ok (.transitioned (a.source?.getD loaded) a.order.status))
  | .error e => return if e.isConflict then none else some (.error (.book e))

/-- Handles a signal once. `none` means that someone else saved the order first. -/
def attempt (desk : HoldDesk) (s : Signal) :
    Script Shop.calls (Option (Except SagaError Handled)) := do
  match ← Shop.load s.order with
  | .error e => return some (.error (.book e))
  | .ok none => return some (.error (.orderNotFound s.order))
  | .ok (some o) =>
    let now ← Shop.now
    match o.react s now with
    | .error rejection => return some (.error (.order rejection))
    | .ok (.duplicate _) => return some (.ok .duplicate)
    | .ok (.apply a) => commit desk s o.status a

/-- Handles a signal in at most `left` of `attempts` attempts. -/
def handleWithin (desk : HoldDesk) (s : Signal) (attempts : Nat) :
    Nat → Script Shop.calls (Except SagaError Handled)
  | 0 => return .error (.conflictRetriesExhausted s.order attempts)
  | left + 1 => do
    match ← attempt desk s with
    | some outcome => return outcome
    | none => handleWithin desk s attempts left

/-- The retries of a signal whose order someone else saved first, unless told otherwise. -/
def defaultRetries : ConflictRetries := .ofNat 3

def handle (desk : HoldDesk) (retries : ConflictRetries) (s : Signal) :
    Script Shop.calls (Except SagaError Handled) :=
  handleWithin desk s (retries.count + 1) (retries.count + 1)

end Saga
end Fulfilment
