import Fulfilment.Stock.Line
import Fulfilment.Time.Instant

/-!
# Holds

A hold keeps stock for a reservation until its deadline. Holds are listed by deadline, and of one
deadline by reservation, so that a scan meets the oldest first.
-/
namespace Fulfilment

/-- Stock of a store, held for a reservation until `expiresAt`. -/
structure Hold where
  id : ReservationId
  store : StoreId
  lines : List StockLine
  createdAt : Instant
  expiresAt : Instant
deriving DecidableEq, Repr

namespace Hold

/-- The hold keeps stock of this store in the quantities of these lines, however either is split
into lines. -/
def holdsSame (h : Hold) (store : StoreId) (lines : List StockLine) : Bool :=
  h.store = store && StockLine.merge h.lines = StockLine.merge lines

/-- The deadline is still to come. -/
def isLive (h : Hold) (now : Instant) : Bool := now < h.expiresAt

end Hold

/-- Where a hold stands in the list by deadline. -/
structure Expiry where
  deadline : Instant
  id : ReservationId
deriving DecidableEq, Repr

namespace Expiry

instance : Ord Expiry := ⟨compareLex (compareOn deadline) (compareOn id)⟩

instance : Std.TransOrd Expiry :=
  inferInstanceAs (Std.TransCmp (compareLex (compareOn deadline) (compareOn id)))

instance : Std.LawfulEqOrd Expiry where
  eq_of_compare {a b} h := by
    have h : compareLex (compareOn deadline) (compareOn id) a b = .eq := h
    simp only [compareLex_eq_eq, compareOn] at h
    obtain ⟨hd, hi⟩ := h
    have hd := Std.LawfulEqOrd.eq_of_compare hd
    have hi := Std.LawfulEqOrd.eq_of_compare hi
    cases a
    cases b
    simp_all

end Expiry

/-- Where the hold stands in the list by deadline. -/
def Hold.expiry (h : Hold) : Expiry := ⟨h.expiresAt, h.id⟩

end Fulfilment
