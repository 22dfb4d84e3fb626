import Fulfilment.Proofs.Protocol
import Fulfilment.Stock.Reservation

/-!
# Lines and counters

Lines are taken, given back and restored by calls on counters alone: none of this looks at holds or
stores, and none of it asks the clock. What no call on a counter does, these scripts do not do
(`Script.Only.mono`).
-/
namespace Fulfilment

/-- The call reads or writes a counter. -/
def Stock.Call.IsOnCounter : Stock.Call → Prop
  | .level _ | .compareAndSet .. | .increment .. => True
  | _ => False

namespace Reservation

open Script

theorem only_counter_updateAfter (p : ProductId) (decide : Int → Option Int) (made : Nat)
    (seen : Int) (left : Nat) :
    (Counter.updateAfter p decide made seen left).Only Stock.Call.IsOnCounter := by
  induction left generalizing made seen with
  | zero => trivial
  | succ left ih =>
    refine only_bind (only_ask trivial) fun level => ?_
    split
    · trivial
    · split
      · trivial
      · refine only_bind (only_ask trivial) fun written => ?_
        split
        · trivial
        · exact ih _ _

theorem only_counter_take (budget : RetryBudget) (l : StockLine) :
    (take budget l).Only Stock.Call.IsOnCounter := by
  refine only_bind (only_counter_updateAfter ..) fun outcome => ?_
  cases outcome <;> trivial

theorem only_counter_giveBack (ls : List StockLine) :
    (giveBack ls).Only Stock.Call.IsOnCounter := by
  induction ls with
  | nil => trivial
  | cons l ls ih => exact only_bind (only_ask trivial) fun _ => ih

theorem only_counter_takeAll (budget : RetryBudget) (taken ls : List StockLine) :
    (takeAll budget taken ls).Only Stock.Call.IsOnCounter := by
  induction ls generalizing taken with
  | nil => trivial
  | cons l ls ih =>
    refine only_bind (only_counter_take budget l) fun r => ?_
    split
    · exact ih _
    · exact only_bind (only_counter_giveBack taken) fun _ => trivial

theorem only_counter_restore (ls : List StockLine) :
    (restore ls).Only Stock.Call.IsOnCounter := by
  induction ls with
  | nil => trivial
  | cons l ls ih =>
    refine only_bind (only_ask trivial) fun r => ?_
    split
    · exact ih
    · trivial

end Reservation
end Fulfilment
