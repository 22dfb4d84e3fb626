import Fulfilment.Limits
import Fulfilment.Stock.Calls

/-!
# Contended counters

A counter is changed by reading it, deciding what to write, and writing it if nobody else has
written it meanwhile. A lost race is tried again until the retry budget is spent.
-/
namespace Fulfilment
namespace Counter

/-- What is left of a stock after taking a quantity, unless that is below zero. -/
def remainder? (available : Int) (quantity : UInt32) : Option Int :=
  if 0 ≤ available - quantity.toNat then some (available - quantity.toNat) else none

/-- What is left is the difference, and not below zero. -/
theorem eq_of_remainder? {available next : Int} {quantity : UInt32}
    (h : remainder? available quantity = some next) :
    next = available - quantity.toNat ∧ 0 ≤ next := by
  simp only [remainder?] at h
  split at h
  · cases h
    exact ⟨rfl, ‹_›⟩
  · cases h

/-- How an attempt to change a counter ended. -/
inductive Outcome where
  | applied (previous current : Int) (attempts : Nat)
  | rejected (observed : Int)
  | exhausted (attempts : Nat) (lastObserved : Int)
deriving DecidableEq, Repr

/-- Goes on changing a counter after `made` attempts, of which the last has seen `seen`. -/
def updateAfter (p : ProductId) (decide : Int → Option Int) (made : Nat) (seen : Int) :
    Nat → Script Stock.calls Outcome
  | 0 => pure (.exhausted made seen)
  | left + 1 => do
    match ← Stock.level p with
    | none => pure (.rejected 0)
    | some level =>
      match decide level.available with
      | none => pure (.rejected level.available)
      | some next =>
        if ← Stock.compareAndSet p level.revision next then
          pure (.applied level.available next (made + 1))
        else updateAfter p decide (made + 1) level.available left

/-- Changes a counter to what `decide` makes of its value. An unknown product is rejected as if it
had no stock. -/
def update (p : ProductId) (decide : Int → Option Int) (budget : RetryBudget) :
    Script Stock.calls Outcome :=
  updateAfter p decide 0 0 budget.attempts

end Counter
end Fulfilment
