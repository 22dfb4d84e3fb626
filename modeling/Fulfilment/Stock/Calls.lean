import Fulfilment.Script
import Fulfilment.Stock.Ledger

/-!
# Calls on the ledger

What an operation can ask of the clock and the ledger. Each call is atomic on its own; a longer
operation is a `Script` of them.
-/
namespace Fulfilment
namespace Stock

/-- A call on the clock or the ledger. -/
inductive Call where
  | now
  | level (product : ProductId)
  | compareAndSet (product : ProductId) (revision : Nat) (available : Int)
  | increment (product : ProductId) (quantity : UInt32)
  | isOpen (store : StoreId)
  | insertHold (hold : Hold)
  | getHold (id : ReservationId)
  | takeHold (id : ReservationId)
  | expired (now : Instant) (limit : Nat)

/-- What each call is answered with. Only increments can fail. -/
abbrev Call.Reply : Call → Type
  | now => Instant
  | level _ => Option StockLevel
  | compareAndSet .. => Bool
  | increment .. => Except StockError Int
  | isOpen _ => Bool
  | insertHold _ => Bool
  | getHold _ => Option Hold
  | takeHold _ => Option Hold
  | expired .. => List ReservationId

/-- The calls on the clock and the ledger. -/
abbrev calls : Interface := ⟨Call, Call.Reply⟩

def now : Script calls Instant := .ask calls Call.now

def level (p : ProductId) : Script calls (Option StockLevel) := .ask calls (Call.level p)

/-- Writes a counter if it still has the revision that was read. -/
def compareAndSet (p : ProductId) (revision : Nat) (available : Int) : Script calls Bool :=
  .ask calls (Call.compareAndSet p revision available)

def increment (p : ProductId) (quantity : UInt32) : Script calls (Except StockError Int) :=
  .ask calls (Call.increment p quantity)

def isOpen (s : StoreId) : Script calls Bool := .ask calls (Call.isOpen s)

/-- Adds a hold, unless its reservation is known. -/
def insertHold (h : Hold) : Script calls Bool := .ask calls (Call.insertHold h)

def getHold (id : ReservationId) : Script calls (Option Hold) := .ask calls (Call.getHold id)

def takeHold (id : ReservationId) : Script calls (Option Hold) := .ask calls (Call.takeHold id)

def expired (now : Instant) (limit : Nat) : Script calls (List ReservationId) :=
  .ask calls (Call.expired now limit)

/-- The ledger answers a call, made at the clock's instant `now`. -/
def answer (now : Instant) : calls.Handler Ledger
  | .now, l => (now, l)
  | .level p, l => (l.level? p, l)
  | .compareAndSet p revision available, l => l.compareAndSet p revision available
  | .increment p quantity, l => l.increment p quantity
  | .isOpen s, l => (l.isOpen s, l)
  | .insertHold h, l => l.insertHold h
  | .getHold id, l => l.getHold now id
  | .takeHold id, l => l.takeHold id
  | .expired t limit, l => (l.expired t limit, l)

end Stock
end Fulfilment
