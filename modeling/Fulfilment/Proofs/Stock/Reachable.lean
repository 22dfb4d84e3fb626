import Fulfilment.Proofs.Alone
import Fulfilment.Proofs.Stock.Index

/-!
# Ledgers that can be reached

A ledger starts without counters and holds. Whatever calls are made on it then, at whatever instants
and by however many callers, and whatever is done to it besides, it stays `Consistent`. So what is
proved of consistent ledgers holds of every ledger that there can be.
-/
namespace Fulfilment
namespace Ledger

/-- The ledger has come about from an empty one. Calls are made on it at any instants, so the clock
may even go back. Counters are set to any integers, whether or not words have room for them, stores
open and close, records are evicted, and both switches are thrown. -/
inductive Reachable : Ledger → Prop where
  | empty : Reachable {}
  | answer {l : Ledger} (before : Reachable l) (now : Instant) (request : Stock.Call) :
      Reachable (Stock.answer now request l).2
  | setStock {l : Ledger} (before : Reachable l) (p : ProductId) (available : Int) :
      Reachable (l.write p available)
  | openStore {l : Ledger} (before : Reachable l) (store : StoreId) : Reachable (l.openStore store)
  | closeStore {l : Ledger} (before : Reachable l) (store : StoreId) :
      Reachable (l.closeStore store)
  | evict {l : Ledger} (before : Reachable l) (now : Instant) : Reachable (l.evict now).2
  | forceConflicts {l : Ledger} (before : Reachable l) (count : Nat) :
      Reachable { l with forcedConflicts := count }
  | failIncrements {l : Ledger} (before : Reachable l) (fails : Bool) :
      Reachable { l with incrementsFail := fails }

namespace Reachable

variable {l : Ledger}

/-- In a ledger that can be reached, the two places of a hold agree. -/
theorem consistent (h : l.Reachable) : l.Consistent := by
  induction h with
  | empty => exact consistent_of_empty rfl rfl rfl
  | answer _ now request ih => exact ih.answer now request
  | evict _ now ih => exact ih.evict now
  | setStock _ _ _ ih | openStore _ _ ih | closeStore _ _ ih | forceConflicts _ _ ih
  | failIncrements _ _ ih => exact ih.of_eq rfl rfl rfl

theorem run {α : Type} (h : l.Reachable) (p : Script Stock.calls α) (now : Instant) :
    (p.run (Stock.answer now) l).2.Reachable :=
  Script.run_keeps (fun request hl => hl.answer now request) p h

end Reachable
end Ledger
end Fulfilment
