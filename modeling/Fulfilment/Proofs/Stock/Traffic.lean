import Fulfilment.Proofs.Protocol
import Fulfilment.Proofs.Stock.Quantity
import Fulfilment.Stock.Reservation

/-!
# Reservations at the same time

The system in which any number of reservations are made, settled, released and swept at the same
time on one ledger, while the clock moves, records expire, stores open and close, and conditional
writes are made to fail. An account of each job says which stock it has in hand: stock that it has
taken out of a counter or a hold and not put back into either.
-/
namespace Fulfilment
namespace Stock

/-- The clock and the ledger that all jobs share. -/
structure Site where
  clock : Instant
  ledger : Ledger

/-- What may happen at a site besides the calls of jobs. The clock may go back. -/
inductive Site.Change where
  | setClock (now : Instant)
  | evict
  | openStore (store : StoreId)
  | closeStore (store : StoreId)
  | forceConflicts (count : Nat)
deriving DecidableEq, Repr

namespace Site

/-- The site answers a call at its own clock. -/
def answer : calls.Handler Site := fun request s =>
  ((Stock.answer s.clock request s.ledger).1,
    { s with ledger := (Stock.answer s.clock request s.ledger).2 })

def change : Change → Site → Site
  | .setClock now, s => { s with clock := now }
  | .evict, s => { s with ledger := (s.ledger.evict s.clock).2 }
  | .openStore store, s => { s with ledger := s.ledger.openStore store }
  | .closeStore store, s => { s with ledger := s.ledger.closeStore store }
  | .forceConflicts count, s => { s with ledger := { s.ledger with forcedConflicts := count } }

end Site

/-- An operation on reservations. A sweep looks for expired holds as often as `rounds` says. -/
inductive Job where
  | reserve (budget : RetryBudget) (store : StoreId) (lines : List StockLine)
      (id : ReservationId) (ttl : Span)
  | settle (id : ReservationId)
  | release (id : ReservationId)
  | sweep (rounds : Nat) (batch : BatchSize)

/-- What an operation on reservations ends with. -/
inductive Outcome where
  | reserved (r : Ending (Except StockError Hold))
  | settled (found : Bool)
  | released (r : Except StockError Bool)
  | swept (r : Except StockError Reservation.SweepReport)

def Outcome.brokeOff : Outcome → Bool
  | .reserved .brokeOff => true
  | _ => false

namespace Job

def script : Job → Script calls Outcome
  | reserve budget store lines id ttl =>
    .reserved <$> Reservation.reserve budget store lines id ttl
  | settle id => .settled <$> Reservation.settle id
  | release id => .released <$> Reservation.release id
  | sweep rounds batch => .swept <$> Reservation.sweep rounds batch

/-- The quantities that the operation asks for fit their words. -/
def Fits : Job → Prop
  | reserve _ _ lines _ _ => StockLine.Fits lines
  | _ => True

def reserves : Job → Bool
  | reserve .. => true
  | _ => false

/-- The operation gives the stock of holds back. -/
def restores : Job → Bool
  | release _ | sweep .. => true
  | _ => false

/-- The operation ends a hold and keeps its stock taken. -/
def settles : Job → Bool
  | settle _ => true
  | _ => false

/-- The quantity of a product that the operation asks for. -/
def requested (p : ProductId) : Job → Nat
  | reserve _ _ lines _ _ => StockLine.quantityOf p lines
  | _ => 0

/-- The operation asked for the time when the calendar did not have the deadline of its
reservation. -/
def LacksDeadline : Job → List (Exchange calls) → Prop
  | reserve _ _ _ _ ttl, log =>
    ∃ now, (⟨.now, now⟩ : Exchange calls) ∈ log ∧ now.add? ttl = none
  | _, _ => False

/-- What an exchange of the operation adds to the stock of a product that it has in hand. Lowering a
counter gives it what it has requested of the product, and taking a hold what the hold keeps; adding
to a counter and adding a hold give stock away. -/
def moved (j : Job) (p : ProductId) : Exchange calls → Int
  | ⟨.compareAndSet q _ _, true⟩ => if q = p then j.requested p else 0
  | ⟨.increment q n, .ok _⟩ => if q = p then -n.toNat else 0
  | ⟨.insertHold h, true⟩ => -StockLine.quantityOf p h.lines
  | ⟨.takeHold _, some h⟩ => StockLine.quantityOf p h.lines
  | _ => 0

/-- The quantity of a product that the operation has in hand after some exchanges. -/
def inHand (j : Job) (p : ProductId) (log : List (Exchange calls)) : Int :=
  (log.map (j.moved p)).sum

@[simp] theorem inHand_nil (j : Job) (p : ProductId) : j.inHand p [] = 0 := rfl

@[simp] theorem inHand_append (j : Job) (p : ProductId) (log : List (Exchange calls))
    (e : Exchange calls) : j.inHand p (log ++ [e]) = j.inHand p log + j.moved p e := by
  simp [inHand]

end Job

/-- The system of operations on reservations. -/
def system : System calls Site Job Site.Change Outcome := ⟨Site.answer, Job.script, Site.change⟩

/-- The operations on reservations that were started on a site. -/
abbrev Traffic := Pool calls Site Job Outcome

namespace Traffic

variable (s : Traffic) (p : ProductId)

/-- The stock of a product that some of the operations have in hand. -/
def inHandOf (choose : Task calls Job Outcome → Bool) : Int :=
  ((s.tasks.filter choose).map fun t => t.job.inHand p t.log).sum

/-- The stock of a product that running reservations have taken from its counter and neither held
nor given back. -/
def reserving : Int := inHandOf s p fun t => t.isRunning && t.job.reserves

/-- The stock of a product in holds that running releases and sweeps have taken, as far as it is not
given back. -/
def restoring : Int := inHandOf s p fun t => t.isRunning && t.job.restores

/-- The stock of a product in holds that were settled. -/
def settled : Int := inHandOf s p fun t => t.job.settles

/-- The stock of a product that was requested by reservations that broke off. -/
def abandoned : Nat :=
  ((s.tasks.filter fun t => t.result?.any Outcome.brokeOff).map fun t => t.job.requested p).sum

end Traffic
end Stock

end Fulfilment
