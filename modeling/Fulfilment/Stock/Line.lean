import Fulfilment.Ident
import Fulfilment.Table

/-!
# Stock lines

A quantity of one product, as requested, held or released. `merge` brings a list of lines into
canonical form: one line for each product, in ascending order of products, with the sum of its
quantities modulo the word size.
-/
namespace Fulfilment

/-- A quantity of one product. -/
structure StockLine where
  product : ProductId
  quantity : UInt32
deriving DecidableEq, Repr

namespace StockLine

/-- The quantities of a list of lines by product. -/
def tally (ls : List StockLine) : Table ProductId UInt32 :=
  ls.foldl (fun t l => t.insert l.product ((t.get? l.product).getD 0 + l.quantity)) ∅

/-- One line for each product, in ascending order of products. -/
def merge (ls : List StockLine) : List StockLine :=
  (tally ls).toList.map fun e => ⟨e.1, e.2⟩

/-- The exact quantity of a product in a list of lines. -/
def quantityOf (p : ProductId) : List StockLine → Nat
  | [] => 0
  | l :: ls => (if l.product = p then l.quantity.toNat else 0) + quantityOf p ls

end StockLine
end Fulfilment
