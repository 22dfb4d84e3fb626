import Fulfilment.Ident
import Fulfilment.Money

/-!
# Order lines

A line keeps the name and the price that its product had when the order was placed, so later changes
of the catalog do not reach placed orders.
-/
namespace Fulfilment

/-- A line of an order. -/
structure Line where
  product : ProductId
  name : String
  quantity : UInt32
  unitPrice : Money
deriving DecidableEq, Repr

namespace Line

/-- The unit price times the quantity, at most the greatest amount. -/
def total (l : Line) : Money := l.unitPrice.times l.quantity

/-- The unit price times the quantity, if it is an amount. -/
def total? (l : Line) : Option Money := l.unitPrice.times? l.quantity

/-- The unit price times the quantity as an integer. -/
def exactTotal (l : Line) : Int := l.unitPrice.minor * l.quantity.toNat

/-- The saturating sum of the lines' totals. -/
def totalOf (ls : List Line) : Money := Money.sum (ls.map total)

/-- The sum of the lines' totals as an integer. -/
def exactTotalOf : List Line → Int
  | [] => 0
  | l :: ls => l.exactTotal + exactTotalOf ls

end Line
end Fulfilment
