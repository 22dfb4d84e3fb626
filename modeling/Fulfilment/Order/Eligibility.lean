import Fulfilment.Order.Basic

/-!
# What owners may do

The owner of an order may do less than the state machine allows: an order that is paid but not yet
being prepared can be cancelled by the services, but not by its owner.
-/
namespace Fulfilment
namespace Order

/-- The statuses in which the owner may cancel. -/
def ownerCancellable : List Status :=
  [.created, .confirmed, .paymentPending, .paymentProcessing, .preparing]

/-- The statuses in which the owner may ask for a refund. -/
def ownerRefundable : List Status := [.delivered]

/-- Refuses unless the order's status is one of those listed. -/
def permit (o : Order) (statuses : List Status) (action : String) : Except Rejection Unit :=
  if statuses.contains o.status then .ok ()
  else .error (.invalidState o.status statuses action)

/-- Refuses unless the owner may cancel. -/
def permitOwnerCancel (o : Order) : Except Rejection Unit := o.permit ownerCancellable "cancel"

/-- Refuses unless the owner may ask for a refund. -/
def permitOwnerRefund (o : Order) : Except Rejection Unit := o.permit ownerRefundable "refund"

end Order
end Fulfilment
