import Fulfilment.Order.Basic
import Fulfilment.Table

/-!
# The order book

Orders are stored under their ids with a version that counts their saves. A save is a
compare-and-set: a new order has version 0 and a number that no other order has, and any other order
is written only if the stored version is still the one it was loaded with. So of several writers who
loaded the same version one wins, and the others are told of the conflict.
-/
namespace Fulfilment

/-- Why an order could not be loaded or saved. -/
inductive BookError where
  | conflict (order : OrderId) (expected actual : Int)
  | duplicateOrder (order : OrderId)
  | duplicateNumber (number : OrderNumber)
  | notFound (order : OrderId)
  | storage (detail : String)
deriving DecidableEq, Repr

namespace BookError

def message : BookError → String
  | conflict order expected actual =>
    "Concurrency conflict for order " ++ order.toText ++ ": expected version " ++
      toString expected ++ ", found " ++ toString actual
  | duplicateOrder order => "Order already exists: " ++ order.toText
  | duplicateNumber number => "Order number already exists: " ++ number.text
  | notFound order => "Order not found: " ++ order.toText
  | storage detail => "Storage error: " ++ detail

/-- The name of the cause, for programs. -/
def code : BookError → String
  | conflict .. => "ConcurrencyConflict"
  | duplicateOrder _ => "DuplicateOrder"
  | duplicateNumber _ => "DuplicateOrderNumber"
  | notFound _ => "NotFound"
  | storage _ => "Storage"

/-- Another writer saved the order first. -/
def isConflict : BookError → Bool
  | conflict .. => true
  | _ => false

end BookError

/-- The stored orders, and the order that each number belongs to. While saving fails, nothing is
stored. -/
structure OrderBook where
  orders : Table OrderId Order := ∅
  numbers : Table OrderNumber OrderId := ∅
  failing : Bool := false

namespace OrderBook

def get? (b : OrderBook) (id : OrderId) : Option Order := b.orders.get? id

/-- The reason not to save an order. -/
def objection (b : OrderBook) (o : Order) : Option BookError :=
  if b.failing then some (.storage "save rejected")
  else
    match b.get? o.id with
    | none =>
      if o.version ≠ 0 then some (.conflict o.id o.version 0)
      else if b.numbers.contains o.number then some (.duplicateNumber o.number)
      else none
    | some stored =>
      if o.version = 0 then some (.duplicateOrder o.id)
      else if stored.version ≠ o.version then some (.conflict o.id o.version stored.version)
      else none

/-- An order that was never saved is not stored if nothing is to be said against saving it. -/
theorem get?_eq_none_of_new {b : OrderBook} {o : Order} (h : b.objection o = none)
    (hnew : o.version = 0) : b.get? o.id = none := by
  unfold objection at h
  split at h
  · cases h
  · split at h
    · assumption
    · cases h

/-- An order that was saved before is stored at its version if nothing is to be said against saving
it. -/
theorem get?_of_known {b : OrderBook} {o : Order} (h : b.objection o = none)
    (hknown : o.version ≠ 0) :
    ∃ stored, b.get? o.id = some stored ∧ stored.version = o.version := by
  unfold objection at h
  split at h
  · cases h
  · split at h
    · cases h
    · split at h
      · cases h
      · exact ⟨_, ‹_›, Decidable.not_not.1 ‹_›⟩

/-- The book with an order stored at its next version. -/
def store (b : OrderBook) (o : Order) : OrderBook :=
  { b with
    orders := b.orders.insert o.id { o with version := o.version + 1 }
    numbers := b.numbers.insert o.number o.id }

theorem get?_store (b : OrderBook) (o : Order) (id : OrderId) :
    (b.store o).get? id =
      if id = o.id then some { o with version := o.version + 1 } else b.get? id := by
  simp only [get?, store, Table.get?_insert, Std.compare_eq_iff_eq]

/-- Saves an order and answers its new version. -/
def save (b : OrderBook) (o : Order) : Except BookError Int × OrderBook :=
  match b.objection o with
  | some e => (.error e, b)
  | none => (.ok (o.version + 1), b.store o)

/-- Newer orders come first, and of orders of one instant the one with the lower id. -/
def newestFirst (a b : Order) : Bool :=
  (compareLex (fun x y => compare y.createdAt x.createdAt) (compareOn Order.id) a b).isLE

/-- A user's orders, newest first, all of them or those with one status. -/
def ofUser (b : OrderBook) (user : UserId) (status : Option Status) : List Order :=
  (b.orders.values.filter fun o =>
    o.user = user && (match status with | some s => o.status = s | none => true)).mergeSort
    newestFirst

/-- An order that awaits payment, with its deadline. -/
structure Due where
  deadline : Instant
  order : OrderId
deriving DecidableEq, Repr

/-- Earlier deadlines come first, and of orders with one deadline the one with the lower id. -/
def Due.before (a b : Due) : Bool :=
  (compareLex (compareOn Due.deadline) (compareOn Due.order) a b).isLE

/-- The order and its deadline, if its payment is overdue. -/
def due? (now : Instant) (o : Order) : Option Due :=
  if o.isOverdue now then o.expiresAt.map fun deadline => ⟨deadline, o.id⟩ else none

/-- The orders whose payment is overdue, at most `limit`, earliest deadline first. -/
def overdue (b : OrderBook) (now : Instant) (limit : Nat) : List OrderId :=
  (((b.orders.values.filterMap (due? now)).mergeSort Due.before).take limit).map Due.order

def size (b : OrderBook) : Nat := b.orders.size

end OrderBook
end Fulfilment
