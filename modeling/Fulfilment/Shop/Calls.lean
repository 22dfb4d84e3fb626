import Fulfilment.Audit
import Fulfilment.Notice
import Fulfilment.Order.Book
import Fulfilment.Shop.Catalog
import Fulfilment.Shop.RequestKeys
import Fulfilment.Stock.Calls

/-!
# Calls on the shop

What an operation can ask of the stores that all order services share. Recording and publishing are
answered with nothing, since what they tell of has already happened. A script on the ledger is a
script on the shop (`onStock`).
-/
namespace Fulfilment
namespace Shop

/-- A call on one of the stores. -/
inductive Call where
  | stock (request : Stock.Call)
  | load (id : OrderId)
  | save (order : Order)
  | ordersOf (user : UserId) (status : Option Status)
  | overdue (now : Instant) (limit : Nat)
  | record (entry : AuditEntry)
  | publish (notice : Notice)
  | claim (key : RequestKey)
  | complete (key : RequestKey) (order : OrderId)
  | release (key : RequestKey)
  | hasStore (store : StoreId)
  | sells (store : StoreId) (product : ProductId)

/-- What each call is answered with. -/
abbrev Call.Reply : Call → Type
  | stock request => request.Reply
  | load _ => Except BookError (Option Order)
  | save _ => Except BookError Int
  | ordersOf .. => Except BookError (List Order)
  | overdue .. => Except BookError (List OrderId)
  | record _ => Unit
  | publish _ => Unit
  | claim _ => Except KeyError Claim
  | complete .. => Except KeyError Unit
  | release _ => Unit
  | hasStore _ => Except CatalogError Bool
  | sells .. => Except CatalogError Bool

/-- The calls on the stores. -/
abbrev calls : Interface := ⟨Call, Call.Reply⟩

/-- A script on the ledger, as a script on the shop. -/
def onStock {α : Type} : Script Stock.calls α → Script calls α
  | .done a => .done a
  | .call request next => .call (Call.stock request) fun reply => onStock (next reply)

def now : Script calls Instant := onStock Stock.now

def load (id : OrderId) : Script calls (Except BookError (Option Order)) :=
  .ask calls (Call.load id)

/-- Saves an order against the version it was loaded with. -/
def save (o : Order) : Script calls (Except BookError Int) := .ask calls (Call.save o)

/-- The orders of a user, newest first. -/
def ordersOf (user : UserId) (status : Option Status) :
    Script calls (Except BookError (List Order)) :=
  .ask calls (Call.ordersOf user status)

/-- The orders whose payment is overdue, earliest deadline first. -/
def overdue (now : Instant) (limit : Nat) : Script calls (Except BookError (List OrderId)) :=
  .ask calls (Call.overdue now limit)

/-- Adds an entry to the audit trail. -/
def record (e : AuditEntry) : Script calls Unit := .ask calls (Call.record e)

def publish (n : Notice) : Script calls Unit := .ask calls (Call.publish n)

/-- Tells other services, if there is something to tell. -/
def publish? : Option Notice → Script calls Unit
  | some n => publish n
  | none => pure ()

/-- Claims a key that is not known yet. -/
def claim (k : RequestKey) : Script calls (Except KeyError Claim) := .ask calls (Call.claim k)

/-- Binds a claimed key to the order made with it. -/
def complete (k : RequestKey) (id : OrderId) : Script calls (Except KeyError Unit) :=
  .ask calls (Call.complete k id)

def release (k : RequestKey) : Script calls Unit := .ask calls (Call.release k)

def hasStore (s : StoreId) : Script calls (Except CatalogError Bool) :=
  .ask calls (Call.hasStore s)

def sells (s : StoreId) (p : ProductId) : Script calls (Except CatalogError Bool) :=
  .ask calls (Call.sells s p)

end Shop
end Fulfilment
