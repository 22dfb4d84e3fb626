import Fulfilment.Shop.World
import Fulfilment.Text.Blank
import Fulfilment.Text.Numeral
import Fulfilment.Text.Split

/-!
# Seed stock

A store to open at the start, with its stock. The stock is written as `product:quantity` entries
separated by commas; an entry that is not well formed is passed over.
-/
namespace Fulfilment

/-- A store and its first stock. -/
structure Seed where
  store : StoreId
  stock : List (ProductId × Int)
deriving DecidableEq, Repr

namespace Seed

/-- A quantity is an integer from zero to the greatest count. -/
def readQuantity (cs : List Char) : Option Int := do
  let n ← Numeral.integer? (Text.trimChars cs)
  if 0 ≤ n ∧ n ≤ 9223372036854775807 then some n else none

/-- A product's name is not blank. -/
def readProduct (cs : List Char) : Option ProductId :=
  let name := Text.trimChars cs
  if name.isEmpty then none else some ⟨String.ofList name⟩

/-- The product and the quantity of an entry. -/
def readEntry (cs : List Char) : Option (ProductId × Int) := do
  let (product, quantity) ← Text.cut? ':' cs
  return (← readProduct product, ← readQuantity quantity)

/-- The well-formed entries of a text. -/
def readStock (s : String) : List (ProductId × Int) :=
  (Text.pieces ',' s.toList).filterMap readEntry

/-- The ledger with the store open and its stock set. -/
def stockLedger (seed : Seed) (l : Ledger) : Ledger :=
  seed.stock.foldl (fun l (p, n) => l.write p n) (l.openStore seed.store)

/-- The world with the store open, stocked and listed. -/
def apply (seed : Seed) (w : World) : World :=
  { w with
    ledger := seed.stockLedger w.ledger
    catalog := w.catalog.add seed.store (seed.stock.map Prod.fst) }

end Seed
end Fulfilment
