import Fulfilment.Stock.Error
import Fulfilment.Stock.Hold

/-!
# The stock ledger

The ledger counts the stock of each product and keeps the holds on it. A hold is kept twice: as a
primary record, which disappears on its own once its deadline has passed, and as an entry of the
index by deadline, which stays until the hold is taken. So a hold whose record is gone can still be
found by a sweep, and whoever takes a hold removes it from both.

Each write of a counter raises its revision, and a conditional write succeeds only at the revision
that its writer has read. Two switches make conditional writes and increments fail. Counters are
integers without bounds. A 64-bit counter does the same as long as it has room for all that is held
besides its stock.
-/
namespace Fulfilment

/-- The stock of a product and the number of times it was written. -/
structure StockLevel where
  available : Int := 0
  revision : Nat := 0
deriving DecidableEq, Repr

def StockLevel.write (l : StockLevel) (available : Int) : StockLevel := ⟨available, l.revision + 1⟩

/-- Stock counters, open stores and holds. `deadlines` says where in `index` a reservation stands.
The next `forcedConflicts` conditional writes fail, and increments fail while `incrementsFail`. -/
structure Ledger where
  stock : Table ProductId StockLevel := ∅
  openStores : Table StoreId Unit := ∅
  holds : Table ReservationId Hold := ∅
  index : Table Expiry Hold := ∅
  deadlines : Table ReservationId Instant := ∅
  forcedConflicts : Nat := 0
  incrementsFail : Bool := false

namespace Ledger

/-! ## Counters -/

/-- A product's counter. Unknown products have none. -/
def level? (l : Ledger) (p : ProductId) : Option StockLevel := l.stock.get? p

def available? (l : Ledger) (p : ProductId) : Option Int := (l.level? p).map StockLevel.available

/-- Writes a counter, which an unknown product gets first. -/
def write (l : Ledger) (p : ProductId) (available : Int) : Ledger :=
  { l with stock := l.stock.insert p (((l.level? p).getD {}).write available) }

theorem available?_write (l : Ledger) (p q : ProductId) (available : Int) :
    (l.write p available).available? q = if q = p then some available else l.available? q := by
  simp only [available?, level?, write, Table.get?_insert, Std.compare_eq_iff_eq]
  split <;> rfl

/-- Writes a counter if it still has the revision that was read, and says whether it did. -/
def compareAndSet (l : Ledger) (p : ProductId) (revision : Nat) (available : Int) :
    Bool × Ledger :=
  match l.forcedConflicts with
  | n + 1 => (false, { l with forcedConflicts := n })
  | 0 =>
    match l.level? p with
    | some level => if level.revision = revision then (true, l.write p available) else (false, l)
    | none => (false, l)

/-- Adds to a counter and answers its new value. -/
def increment (l : Ledger) (p : ProductId) (quantity : UInt32) : Except StockError Int × Ledger :=
  if l.incrementsFail then (.error (.ledger ("increment rejected for " ++ p.text)), l)
  else
    let available := (l.available? p).getD 0 + quantity.toNat
    (.ok available, l.write p available)

/-! ## Stores -/

def isOpen (l : Ledger) (s : StoreId) : Bool := l.openStores.contains s

/-- The store accepts reservations from now on. -/
def openStore (l : Ledger) (s : StoreId) : Ledger :=
  { l with openStores := l.openStores.insert s () }

def closeStore (l : Ledger) (s : StoreId) : Ledger := { l with openStores := l.openStores.erase s }

/-! ## Holds -/

/-- Adds a hold, unless its reservation is known in either place. -/
def insertHold (l : Ledger) (h : Hold) : Bool × Ledger :=
  if l.holds.contains h.id || l.deadlines.contains h.id then (false, l)
  else
    (true,
      { l with
        holds := l.holds.insert h.id h
        index := l.index.insert h.expiry h
        deadlines := l.deadlines.insert h.id h.expiresAt })

/-- Looks up a live hold. A record found past its deadline disappears. -/
def getHold (l : Ledger) (now : Instant) (id : ReservationId) : Option Hold × Ledger :=
  match l.holds.get? id with
  | some h => if h.isLive now then (some h, l) else (none, { l with holds := l.holds.erase id })
  | none => (none, l)

/-- Removes a hold from both places, and answers it if there was one. -/
def takeHold (l : Ledger) (id : ReservationId) : Option Hold × Ledger :=
  let indexed := (l.deadlines.get? id).bind fun deadline => l.index.get? ⟨deadline, id⟩
  let index :=
    match l.deadlines.get? id with
    | some deadline => l.index.erase ⟨deadline, id⟩
    | none => l.index
  (indexed.or (l.holds.get? id),
    { l with holds := l.holds.erase id, index := index, deadlines := l.deadlines.erase id })

/-- The reservations whose deadline has passed, at most `limit`, oldest first. -/
def expired (l : Ledger) (now : Instant) (limit : Nat) : List ReservationId :=
  ((l.index.keys.takeWhile fun e => e.deadline ≤ now).take limit).map Expiry.id

/-- Drops the primary records whose deadline has passed, and answers how many there were. -/
def evict (l : Ledger) (now : Instant) : Nat × Ledger :=
  let kept := l.holds.filter fun _ h => h.isLive now
  (l.holds.size - kept.size, { l with holds := kept })

end Ledger
end Fulfilment
