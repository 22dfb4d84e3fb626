import Fulfilment.Service.Operation

/-!
# Commands

What customers ask for: create an order, cancel it, have it refunded. Each command loads, checks,
asks the order, and saves against the version it has loaded. Audit entries and notices follow the
save and cannot fail the command.
-/
namespace Fulfilment
namespace Service

open Operation

/-! ## Creating -/

/-- A request for a new order. -/
structure CreateRequest where
  key : String
  user : UserId
  store : StoreId
  lines : List Line
deriving DecidableEq, Repr

/-- The key under which the request is known. -/
def CreateRequest.requestKey (r : CreateRequest) : RequestKey := ⟨r.user, r.key⟩

/-- What is drawn at random for a new order. -/
structure Draw where
  order : OrderId
  reservation : ReservationId
  entropy : Nat
deriving DecidableEq, Repr

/-- Fails with the first line whose product the store does not sell. -/
def requireSold (store : StoreId) : List Line → Operation Unit
  | [] => pure ()
  | l :: ls => do
    if ← call .catalog (Shop.sells store l.product) then requireSold store ls
    else throw (.productNotInStore store l.product)

/-- Fails unless the store exists and sells what is asked for. -/
def requireListed (r : CreateRequest) : Operation Unit := do
  if ← call .catalog (Shop.hasStore r.store) then requireSold r.store r.lines
  else throw (.storeNotFound r.store)

/-- The order that a request asks for, numbered at its instant. -/
def CreateRequest.newOrder (r : CreateRequest) (draw : Draw) (now : Instant) : NewOrder where
  id := draw.order
  number := .draw now draw.entropy
  user := r.user
  store := r.store
  lines := r.lines

/-- Saves a new order with its reservation. -/
def saveReserved (o : Order) (held : Hold) (now : Instant) : Operation (Order × Transition) := do
  let (o, t) ← accept o (.markStockReserved held.id held.expiresAt) now
  return (← saveOrder o, t)

/-- Saves a new order with its reservation, or gives the stock back. -/
def saveOrRelease (o : Order) (held : Hold) (now : Instant) : Operation (Order × Transition) :=
  ExceptT.mk do
    match ← (saveReserved o held now).run with
    | .ok saved => return .ok saved
    | .error e =>
      let _ ← releaseHold held.id
      return .error e

/-- Records and tells that an order has been created. -/
def announceCreation (o : Order) (held : Hold) (t : Transition) (now : Instant) :
    Script Shop.calls Unit := do
  Shop.record
    { order := o.id, action := "CreateOrder", source := none, target := .created,
      actor := o.user.toText, recordedAt := now }
  Shop.record (.ofTransition o.id "MarkStockReserved" t o.user.toText now (some held.id.text))
  Shop.publish (.created o)
  Shop.publish? (Notice.reserved? o)

/-- Stores a placed order with the hold that it was granted, and tells of it. -/
def storeReserved (o : Order) (now : Instant) (reserved : Except StockError Hold) :
    Operation Order := do
  let held ← require .stock reserved
  let (o, t) ← saveOrRelease o held now
  announceCreation o held t now
  return o

/-- Places an order and holds its stock. Breaks off if its reservation does. -/
def placeAndReserve (budget : RetryBudget) (ttl : Span) (r : CreateRequest) (draw : Draw) :
    Operation (Ending Order) := do
  requireListed r
  let now ← Shop.now
  let (o, _) ← require .order (Order.place (r.newOrder draw now) now)
  match ← liftM <| Shop.onStock
    (Reservation.reserve budget o.store (Notice.stockLines o) draw.reservation ttl) with
  | .answered reserved => return .answered (← storeReserved o now reserved)
  | .brokeOff => return .brokeOff

/-- Creates an order with a claimed key, which is bound to the order or given back. If the creation
breaks off the key stays claimed. -/
def createClaimed (budget : RetryBudget) (ttl : Span) (r : CreateRequest) (draw : Draw) :
    Operation (Ending Order) :=
  ExceptT.mk do
    match ← (placeAndReserve budget ttl r draw).run with
    | .ok (.answered o) =>
      let _ ← Shop.complete r.requestKey o.id
      return .ok (.answered o)
    | .ok .brokeOff => return .ok .brokeOff
    | .error e =>
      Shop.release r.requestKey
      return .error e

/-- Creates an order, or answers the one that its key has created. -/
def createOrder (budget : RetryBudget) (ttl : Span) (r : CreateRequest) (draw : Draw) :
    Operation (Ending Order) := do
  match ← call .keys (Shop.claim r.requestKey) with
  | .completed id => return .answered (← loadOrder id)
  | .inFlight => throw (.duplicateRequest r.key)
  | .acquired => createClaimed budget ttl r draw

/-! ## Cancelling -/

/-- A reason that says something, without surrounding blanks. -/
def statedReason? (reason : Option String) : Option String :=
  match reason.map Text.trim with
  | some stated => if stated.isEmpty then none else some stated
  | none => none

/-- The reason recorded for a cancellation by the owner. -/
def cancellationReason (reason : Option String) : String :=
  match statedReason? reason with
  | some stated => "cancelled by user: " ++ stated
  | none => "cancelled by user"

def cancellationDetail (reason : String) (released : Bool) : String :=
  if released then reason
  else reason ++ "; stock release failed, manual reconciliation required"

/-- Gives an order's stock back, if it has a reservation, and says whether that worked. -/
def releaseStock (o : Order) : Script Shop.calls Bool :=
  match o.reservation with
  | some id => releaseHold id
  | none => return true

/-- Cancels an order for its owner. Stock that cannot be given back is left to be reconciled. -/
def cancelOrder (id : OrderId) (user : UserId) (reason : Option String) : Operation Order := do
  let o ← loadOwned id user
  require .order o.permitOwnerCancel
  let reason := cancellationReason reason
  let now ← Shop.now
  let (o, t) ← accept o (.cancel reason) now
  let o ← saveOrder o
  let released ← releaseStock o
  Shop.record <| .ofTransition o.id "CancelOrder" t user.toText now
    (some (cancellationDetail reason released))
  Shop.publish (.cancelled o reason true now)
  return o

/-! ## Refunding -/

def refundReason (reason : Option String) : String :=
  (statedReason? reason).getD "refund requested by user"

/-- Asks for the refund of a delivered order. -/
def refundOrder (id : OrderId) (user : UserId) (reason : Option String) (refund : RefundId) :
    Operation Order := do
  let o ← loadOwned id user
  require .order o.permitOwnerRefund
  let reason := refundReason reason
  let now ← Shop.now
  let (o, t) ← accept o (.refund refund reason) now
  let o ← saveOrder o
  Shop.record (.ofTransition o.id "RefundOrder" t user.toText now (some reason))
  Shop.publish? (Notice.refunded? o now)
  return o

end Service
end Fulfilment
