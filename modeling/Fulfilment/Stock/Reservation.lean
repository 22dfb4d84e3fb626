import Fulfilment.Stock.Counter

/-!
# Reservations

A reservation takes all its lines from the counters or none, and then holds them until its deadline.
If the calendar does not have that deadline, the reservation breaks off with its lines taken. Every
hold ends once: `settle` keeps its stock taken, `release` and `sweep` give it back. Asking for a
reservation again while its hold lives answers that hold, if the request is the same.
-/
namespace Fulfilment
namespace Reservation

/-- The first objection to the lines of a reservation. -/
def objection (ls : List StockLine) : Option StockError :=
  if ls.isEmpty then some .emptyReservation
  else (ls.find? fun l => l.quantity = 0).map fun l => .invalidQuantity l.product l.quantity

/-- What asking again for a held reservation is answered with. -/
def replay (held : Hold) (store : StoreId) (ls : List StockLine) : Except StockError Hold :=
  if held.holdsSame store ls then .ok held else .error (.reservationConflict held.id)

/-- Takes one line from its counter. -/
def take (budget : RetryBudget) (l : StockLine) : Script Stock.calls (Except StockError Unit) := do
  match ← Counter.update l.product (Counter.remainder? · l.quantity) budget with
  | .applied .. => pure (.ok ())
  | .rejected observed => pure (.error (.insufficientStock l.product l.quantity observed))
  | .exhausted _ seen => pure (.error (.insufficientStock l.product l.quantity seen))

/-- Gives lines back as far as increments succeed. -/
def giveBack : List StockLine → Script Stock.calls Unit
  | [] => pure ()
  | l :: ls => do
    let _ ← Stock.increment l.product l.quantity
    giveBack ls

/-- Takes all of some lines after `taken`, or gives all of them back. -/
def takeAll (budget : RetryBudget) (taken : List StockLine) :
    List StockLine → Script Stock.calls (Except StockError Unit)
  | [] => pure (.ok ())
  | l :: ls => do
    match ← take budget l with
    | .ok () => takeAll budget (taken ++ [l]) ls
    | .error e =>
      giveBack taken
      pure (.error e)

/-- Holds lines that have been taken. If the reservation has been made meanwhile, gives them back
and answers as for one that is held. If the calendar does not have the deadline, breaks off with the
lines still taken. -/
def hold (store : StoreId) (ls : List StockLine) (id : ReservationId) (ttl : Span) :
    Script Stock.calls (Ending (Except StockError Hold)) := do
  let now ← Stock.now
  match now.add? ttl with
  | none => pure .brokeOff
  | some deadline =>
    let made : Hold := ⟨id, store, ls, now, deadline⟩
    if ← Stock.insertHold made then pure (.answered (.ok made))
    else
      giveBack ls
      match ← Stock.getHold id with
      | some held => pure (.answered (replay held store ls))
      | none => pure (.answered (.error (.reservationConflict id)))

/-- Reserves merged lines that nothing is held for yet. -/
def reserveNew (budget : RetryBudget) (store : StoreId) (ls : List StockLine) (id : ReservationId)
    (ttl : Span) : Script Stock.calls (Ending (Except StockError Hold)) := do
  if ← Stock.isOpen store then
    match ← takeAll budget [] ls with
    | .ok () => hold store ls id ttl
    | .error e => pure (.answered (.error e))
  else pure (.answered (.error (.storeClosed store)))

/-- Reserves all lines or none, unless it breaks off. -/
def reserve (budget : RetryBudget) (store : StoreId) (ls : List StockLine) (id : ReservationId)
    (ttl : Span) : Script Stock.calls (Ending (Except StockError Hold)) :=
  match objection ls with
  | some e => pure (.answered (.error e))
  | none => do
    let merged := StockLine.merge ls
    match ← Stock.getHold id with
    | some held => pure (.answered (replay held store merged))
    | none => reserveNew budget store merged id ttl

/-- Ends a hold and keeps its stock taken. Says whether there was one. -/
def settle (id : ReservationId) : Script Stock.calls Bool :=
  return (← Stock.takeHold id).isSome

/-- Gives lines back until an increment fails. -/
def restore : List StockLine → Script Stock.calls (Except StockError Unit)
  | [] => pure (.ok ())
  | l :: ls => do
    match ← Stock.increment l.product l.quantity with
    | .ok _ => restore ls
    | .error e => pure (.error e)

/-- Ends a hold and gives its stock back. Says whether there was one. -/
def release (id : ReservationId) : Script Stock.calls (Except StockError Bool) := do
  match ← Stock.takeHold id with
  | some held => return (← restore held.lines).map fun () => true
  | none => pure (.ok false)

/-! ## Sweeping -/

/-- What a sweep has met: expired entries, and those of them that it gave back itself. -/
structure SweepReport where
  scanned : Nat := 0
  restored : Nat := 0
deriving DecidableEq, Repr

/-- Releases the reservations of one batch. -/
def sweepBatch (report : SweepReport) :
    List ReservationId → Script Stock.calls (Except StockError SweepReport)
  | [] => pure (.ok report)
  | id :: ids => do
    match ← release id with
    | .ok given =>
      sweepBatch ⟨report.scanned + 1, report.restored + (if given then 1 else 0)⟩ ids
    | .error e => pure (.error e)

/-- Releases batch after batch of the holds that had expired at `now`. A batch that is not full is
the last one, and there are at most as many as the first argument says. -/
def sweepRounds (batch : BatchSize) (now : Instant) (report : SweepReport) :
    Nat → Script Stock.calls (Except StockError SweepReport)
  | 0 => pure (.ok report)
  | rounds + 1 => do
    let ids ← Stock.expired now batch.count
    match ← sweepBatch report ids with
    | .error e => pure (.error e)
    | .ok report =>
      if ids.length < batch.count then pure (.ok report) else sweepRounds batch now report rounds

/-- Releases the holds that have expired, in at most `rounds` batches. -/
def sweep (rounds : Nat) (batch : BatchSize) :
    Script Stock.calls (Except StockError SweepReport) := do
  let now ← Stock.now
  sweepRounds batch now {} rounds

end Reservation

namespace Ledger

/-- Releases all holds that have expired at `now`, while nobody else uses the ledger. Every full
batch takes entries out of the index, so its size bounds their number. -/
def sweep (l : Ledger) (now : Instant) (batch : BatchSize) :
    Except StockError Reservation.SweepReport × Ledger :=
  (Reservation.sweep (l.index.size + 1) batch).run (Stock.answer now) l

end Ledger
end Fulfilment
