import Fulfilment.Order.Event
import Fulfilment.Order.Rejection

/-!
# Orders

An order, how it is placed, and how events change it. Placing checks the lines: there is one at
least, every quantity and every price is positive, and the exact total is an amount of money.
Applying an event cannot fail, since events are facts; it sets what the event says and leaves the
rest, and only a placing event replaces the order, all but its version.
-/
namespace Fulfilment

/-- An order. `version` counts its saves, and `expiresAt` is the deadline of its reservation and of
its payment. -/
structure Order where
  id : OrderId
  number : OrderNumber
  version : Int := 0
  user : UserId
  store : StoreId
  status : Status := .created
  lines : List Line
  reservation : Option ReservationId := none
  payment : Option PaymentId := none
  expiresAt : Option Instant := none
  createdAt : Instant
  updatedAt : Instant
  confirmedAt : Option Instant := none
  cancelledAt : Option Instant := none
  shippedAt : Option Instant := none
  deliveredAt : Option Instant := none
  refundedAt : Option Instant := none
  failureReason : Option String := none
  refund : Option RefundId := none
  refundReason : Option String := none
deriving DecidableEq, Repr

namespace Order

/-! ## Views -/

/-- The saturating sum of the lines' totals. -/
def totalAmount (o : Order) : Money := Line.totalOf o.lines

/-- The sum of the lines' quantities, modulo the word size. -/
def totalQuantity (o : Order) : UInt32 := o.lines.foldl (fun n l => n + l.quantity) 0

def isTerminal (o : Order) : Bool := o.status.isTerminal

def isOwnedBy (o : Order) (user : UserId) : Bool := o.user = user

/-- The order has a deadline, and it is not after `now`. -/
def deadlinePassed (o : Order) (now : Instant) : Bool :=
  match o.expiresAt with
  | some deadline => deadline ≤ now
  | none => false

/-- Payment is awaited and its deadline has passed. -/
def isOverdue (o : Order) (now : Instant) : Bool :=
  o.status.awaitsPayment && o.deadlinePassed now

/-! ## Placing -/

/-- The first objection to a line on its own. -/
def lineObjection (l : Line) : Option Rejection :=
  if l.quantity = 0 then some (.invalidQuantity l.product l.quantity)
  else if !l.unitPrice.isPositive then some (.invalidPrice l.product l.unitPrice.minor)
  else none

/-- The first line at which the running total stops being an amount, as an objection. -/
def totalObjection (sofar : Money) : List Line → Option Rejection
  | [] => none
  | l :: ls =>
    match l.total?.bind sofar.add? with
    | some next => totalObjection next ls
    | none => some (.amountOverflow l.product)

/-- The first objection to the lines of a new order. -/
def placementObjection (ls : List Line) : Option Rejection :=
  if ls.isEmpty then some .noItems
  else (ls.findSome? lineObjection).or (totalObjection .zero ls)

/-- The order that a placing event describes. -/
def ofRequest (request : NewOrder) (placedAt : Instant) : Order where
  id := request.id
  number := request.number
  user := request.user
  store := request.store
  lines := request.lines
  createdAt := placedAt
  updatedAt := placedAt

/-- Places a new order. -/
def place (request : NewOrder) (now : Instant) : Except Rejection (Order × Event) :=
  match placementObjection request.lines with
  | some objection => .error objection
  | none => .ok (ofRequest request now, .placed request now)

/-! ## Events -/

/-- The order after an event. -/
def apply (o : Order) (e : Event) : Order :=
  match e with
  | .placed request t => { ofRequest request t with version := o.version }
  | .stockReserved reservation expiresAt t =>
    { o with updatedAt := t, status := .confirmed, reservation, expiresAt }
  | .confirmed t => { o with updatedAt := t, status := .confirmed }
  | .paymentLinked payment t => { o with updatedAt := t, status := .paymentPending, payment }
  | .paymentCompleted payment t =>
    { o with updatedAt := t, status := .paymentCompleted, payment := o.payment.or payment }
  | .prepared t => { o with updatedAt := t, status := .preparing, confirmedAt := t }
  | .shipped t => { o with updatedAt := t, status := .shipped, shippedAt := t }
  | .delivered t => { o with updatedAt := t, status := .delivered, deliveredAt := t }
  | .cancelled reason t =>
    { o with updatedAt := t, status := .cancelled, cancelledAt := t, failureReason := reason }
  | .paymentTimedOut _ reason t =>
    { o with updatedAt := t, status := .paymentTimeout, cancelledAt := t, failureReason := reason }
  | .refundRequested refund reason t =>
    { o with updatedAt := t, status := .refundProcessing, refund, refundReason := reason }
  | .refundCompleted _ t =>
    { o with updatedAt := t, status := .refundCompleted, refundedAt := t }

/-- The order after some events in turn. -/
def applyAll (o : Order) (es : List Event) : Order := es.foldl apply o

@[simp] theorem applyAll_nil (o : Order) : o.applyAll [] = o := rfl

@[simp] theorem applyAll_cons (o : Order) (e : Event) (es : List Event) :
    o.applyAll (e :: es) = (o.apply e).applyAll es := rfl

/-- Every event leaves its instant on the order. -/
theorem updatedAt_apply (o : Order) (e : Event) : (o.apply e).updatedAt = e.occurredAt := by
  cases e <;> rfl

/-- No event changes the version. -/
theorem version_apply (o : Order) (e : Event) : (o.apply e).version = o.version := by
  cases e <;> rfl

end Order
end Fulfilment
