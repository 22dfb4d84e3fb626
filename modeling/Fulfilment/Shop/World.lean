import Fulfilment.Shop.Calls

/-!
# The world

The clock and the stores in memory. A call is answered by the store that it is meant for and leaves
the others alone, so a script on the ledger runs in the world as it does on the ledger
(`run_onStock`).
-/
namespace Fulfilment

/-- The clock and all stores. -/
structure World where
  clock : Instant
  ledger : Ledger := {}
  book : OrderBook := {}
  outbox : Outbox := {}
  trail : AuditTrail := {}
  keys : RequestKeys := {}
  catalog : Catalog := {}

namespace World

/-- The world answers a call. -/
def answer : Shop.calls.Handler World
  | .stock request, w =>
    let (reply, ledger) := Stock.answer w.clock request w.ledger
    (reply, { w with ledger })
  | .load id, w => (.ok (w.book.get? id), w)
  | .save o, w =>
    let (reply, book) := w.book.save o
    (reply, { w with book })
  | .ordersOf user status, w => (.ok (w.book.ofUser user status), w)
  | .overdue now limit, w => (.ok (w.book.overdue now limit), w)
  | .record e, w => ((), { w with trail := w.trail.record e })
  | .publish n, w => ((), { w with outbox := w.outbox.publish n })
  | .claim k, w =>
    let (reply, keys) := w.keys.claim k
    (reply, { w with keys })
  | .complete k id, w =>
    let (reply, keys) := w.keys.complete k id
    (reply, { w with keys })
  | .release k, w => ((), { w with keys := w.keys.release k })
  | .hasStore s, w => (.ok (w.catalog.hasStore s), w)
  | .sells s p, w => (.ok (w.catalog.sells s p), w)

@[simp] theorem clock_answer (request : Shop.Call) (w : World) :
    (answer request w).2.clock = w.clock := by
  cases request <;> rfl

@[simp] theorem clock_run {α : Type} (p : Script Shop.calls α) (w : World) :
    (p.run answer w).2.clock = w.clock := by
  induction p generalizing w with
  | done a => rfl
  | call request next ih => simp only [Script.run_call, ih, clock_answer]

/-- A script on the ledger changes the ledger and nothing else. -/
theorem run_onStock {α : Type} (p : Script Stock.calls α) (w : World) :
    (Shop.onStock p).run answer w =
      ((p.run (Stock.answer w.clock) w.ledger).1,
        { w with ledger := (p.run (Stock.answer w.clock) w.ledger).2 }) := by
  induction p generalizing w with
  | done a => rfl
  | call request next ih =>
    simp only [Shop.onStock, Script.run_call]
    rw [ih]
    rfl

end World
end Fulfilment
