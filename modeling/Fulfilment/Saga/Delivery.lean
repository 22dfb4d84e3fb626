import Fulfilment.Saga.Handling
import Fulfilment.Wire.Signal
import Fulfilment.Wire.Text

/-!
# Deliveries

Signals are delivered as bytes, and each delivery is answered with what should become of it. Bytes
that hold no signal are parked, and so is a signal that its order rejects; any other failure asks
for the delivery again.
-/
namespace Fulfilment
namespace Saga

/-- What should become of a delivery. -/
inductive Acknowledgement where
  | ack
  | retry
  | deadLetter
deriving DecidableEq, Repr

/-- What should become of a delivery that was handled with this outcome. -/
def Acknowledgement.ofOutcome : Except SagaError Handled → Acknowledgement
  | .ok _ => ack
  | .error e => if e.isRetryable then retry else deadLetter

def signalOf? (payload : ByteArray) : Option Signal := Wire.ofBytes? payload

/-- Handles the signal that bytes hold. -/
def process (desk : HoldDesk) (retries : ConflictRetries) (payload : ByteArray) :
    Script Shop.calls Acknowledgement := do
  match signalOf? payload with
  | some s => return .ofOutcome (← handle desk retries s)
  | none => return .ofOutcome (.error .malformed)

/-- The consumer of deliveries. One that has stopped takes none. -/
structure Consumer where
  running : Bool := true
deriving DecidableEq, Repr

namespace Consumer

/-- The consumer after it has been told to stop. -/
def stop (_ : Consumer) : Consumer := ⟨false⟩

/-- Delivers bytes and answers their acknowledgement. -/
def deliver (c : Consumer) (desk : HoldDesk) (retries : ConflictRetries) (payload : ByteArray) :
    Script Shop.calls (Except SagaError Acknowledgement) := do
  if c.running then return .ok (← process desk retries payload)
  else return .error .consumerClosed

end Consumer
end Saga
end Fulfilment
