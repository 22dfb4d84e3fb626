import Fulfilment.Proofs.Stock.Alone
import Fulfilment.Proofs.Stock.Standing

/-!
# Reserving again

What it comes to when a reservation is made again under a name that has been used. The name has
three stages, and each is met by another part of `Reservation.reserve`. While the hold lives its
primary record is found, and the request is compared with it. From the deadline on no record is
found, so stock is drawn as for a new reservation; but the list by deadline still has the hold, so
nothing is added and the stock is given back. When the hold has been taken nothing is left of it,
and the name is as good as one that was never used.
-/
namespace Fulfilment

open Script

namespace Reservation

/-! ## Objections and replays -/

/-- There is no objection to lines if there are any and none is empty. -/
theorem objection_eq_none_iff {ls : List StockLine} :
    objection ls = none ↔ ls ≠ [] ∧ ∀ l ∈ ls, 0 < l.quantity := by
  have hpos : ∀ q : UInt32, ¬q = 0 ↔ 0 < q := fun q => UInt32.pos_iff_ne_zero.symm
  cases ls with
  | nil => simp [objection]
  | cons l ls => simp [objection, hpos]

variable {l : Ledger} {now : Instant}

end Reservation

/-! ## From the deadline on -/

namespace Ledger

/-- The ledgers are the same but for the primary record of one reservation, revisions, and the
writes that are still made to fail. -/
structure AlikeBut (id : ReservationId) (l m : Ledger) : Prop where
  available : ∀ p, m.available? p = l.available? p
  openStores : m.openStores = l.openStores
  holds : ∀ a, a ≠ id → m.holds.get? a = l.holds.get? a
  index : m.index = l.index
  deadlines : m.deadlines = l.deadlines
  increments : m.incrementsFail = l.incrementsFail

variable {l m : Ledger} {id : ReservationId} {now : Instant}

theorem AlikeBut.refl (id : ReservationId) (l : Ledger) : l.AlikeBut id l :=
  ⟨fun _ => rfl, rfl, fun _ _ => rfl, rfl, rfl, rfl⟩

end Ledger

namespace Reservation

variable {l : Ledger} {now : Instant}

open Stock

section Listed

variable {id : ReservationId} {h : Hold} (c : l.Consistent) (hinc : l.incrementsFail = false)
  (hl : l.listed? id = some h) (hrecord : l.holds.get? id = none) (store : StoreId) (ttl : Span)

include c hinc hl hrecord

end Listed

/-- Draws the lines of a reservation, whatever its name. -/
def draw (budget : RetryBudget) (store : StoreId) (ls : List StockLine) :
    Script calls (Except StockError Unit) :=
  match objection ls with
  | some e => pure (.error e)
  | none => do
    if ← isOpen store then takeAll budget [] (StockLine.merge ls)
    else pure (.error (.storeClosed store))

/-- The hold that a reservation makes now, if the calendar has its deadline. -/
def made? (store : StoreId) (ls : List StockLine) (id : ReservationId) (ttl : Span)
    (now : Instant) : Option Hold :=
  (now.add? ttl).map fun deadline => ⟨id, store, ls, now, deadline⟩

/-- Books what was drawn: the hold is added, or the refusal passed on. Without a hold that could be
added the lines stay drawn. -/
def book : Option Hold → Except StockError Unit × Ledger →
    Ending (Except StockError Hold) × Ledger
  | some h, (.ok (), l) => (.answered (.ok h), l.withHold h)
  | none, (.ok (), l) => (.brokeOff, l)
  | _, (.error e, l) => (.answered (.error e), l)

@[simp] theorem book_error (h : Option Hold) (e : StockError) (l : Ledger) :
    book h (.error e, l) = (.answered (.error e), l) := by
  cases h <;> rfl

/-- Under the name of no hold, lines that were drawn are held. -/
theorem run_hold_of_unknown {id : ReservationId} (hid : l.Unknown id) (store : StoreId)
    (ls : List StockLine) (ttl : Span) :
    (hold store ls id ttl).run (answer now) l = book (made? store ls id ttl now) (.ok (), l) := by
  have hnow : Stock.now.run (answer now) l = (now, l) := rfl
  rw [hold, run_bind, hnow, made?]
  cases now.add? ttl with
  | none => rfl
  | some deadline =>
    have hadd : (insertHold ⟨id, store, ls, now, deadline⟩).run (answer now) l =
        (true, l.withHold ⟨id, store, ls, now, deadline⟩) := Ledger.insertHold_of_unknown hid
    dsimp only
    rw [run_bind, hadd]
    rfl

/-- Under the name of no hold, reserving draws the lines and books them. -/
theorem run_reserve_of_unknown {id : ReservationId} (hid : l.Unknown id)
    (hinc : l.incrementsFail = false) (budget : RetryBudget) (store : StoreId)
    (ls : List StockLine) (ttl : Span) :
    (reserve budget store ls id ttl).run (answer now) l =
      book (made? store (StockLine.merge ls) id ttl now)
        ((draw budget store ls).run (answer now) l) := by
  unfold reserve draw
  cases objection ls with
  | some e => exact (book_error ..).symm
  | none =>
    have hget : (getHold id).run (answer now) l = (none, l) :=
      Ledger.getHold_of_unknown hid now
    have hopen : (isOpen store).run (answer now) l = (l.isOpen store, l) := rfl
    simp only [run_bind, hget, hopen, reserveNew]
    cases l.isOpen store with
    | false => exact (book_error ..).symm
    | true =>
      have htake : (takeAll budget [] (StockLine.merge ls)).Yields (answer now) _ l :=
        yields_takeAll budget _ hinc (.refl l)
      simp only [if_true, run_bind]
      unfold Yields at htake
      generalize (takeAll budget [] (StockLine.merge ls)).run (answer now) l = drawn at htake ⊢
      obtain ⟨result, k⟩ := drawn
      cases result with
      | error e => exact (book_error ..).symm
      | ok _ =>
        have hk : l.Drawn k (StockLine.merge ls) := htake
        exact run_hold_of_unknown (hid.of_eq hk.holds hk.index hk.deadlines) store _ ttl

end Reservation

/-! ## The stages of a name -/

namespace Stock

namespace Site

variable (s : Site)

/-- What a reservation is answered at the site as it is, and the ledger after it. -/
def reserve (budget : RetryBudget) (store : StoreId) (lines : List StockLine) (id : ReservationId)
    (ttl : Span) : Ending (Except StockError Hold) × Ledger :=
  (Reservation.reserve budget store lines id ttl).run (Stock.answer s.clock) s.ledger

/-- The lines that a reservation gets at the site as it is, or not, and the ledger after it. -/
def draw (budget : RetryBudget) (store : StoreId) (lines : List StockLine) :
    Except StockError Unit × Ledger :=
  (Reservation.draw budget store lines).run (Stock.answer s.clock) s.ledger

/-- A hold that was made for some lines at a store answers for its name, and the ledger stays as it
is. A request for the same quantities at that store gets the hold, and one for other quantities or
at another store conflicts with it. Quantities are counted as the words that they are held in. Lines
that are objected to are not compared. -/
structure Replays (store : StoreId) (lines : List StockLine) (h : Hold) : Prop where
  same : ∀ budget again ttl, (∀ line ∈ again, 0 < line.quantity) →
    (∀ p, StockLine.quantityOf p again = StockLine.quantityOf p lines) →
    s.reserve budget store again h.id ttl = (.answered (.ok h), s.ledger)
  other : ∀ budget elsewhere again ttl, again ≠ [] → (∀ line ∈ again, 0 < line.quantity) →
    (elsewhere ≠ store ∨
      ∃ p, StockLine.quantityOf p again % 2 ^ 32 ≠ StockLine.quantityOf p lines % 2 ^ 32) →
    s.reserve budget elsewhere again h.id ttl =
      (.answered (.error (.reservationConflict h.id)), s.ledger)
  objected : ∀ budget elsewhere again ttl e, Reservation.objection again = some e →
    s.reserve budget elsewhere again h.id ttl = (.answered (.error e), s.ledger)

/-- The name is fresh: it has no hold in either place, and a reservation under it books what any
reservation would draw. -/
structure IsFresh (id : ReservationId) : Prop where
  unknown : s.ledger.Unknown id
  books : ∀ budget store lines ttl, s.reserve budget store lines id ttl =
    Reservation.book (Reservation.made? store (StockLine.merge lines) id ttl s.clock)
      (s.draw budget store lines)

variable {s}

end Site

end Stock
end Fulfilment
