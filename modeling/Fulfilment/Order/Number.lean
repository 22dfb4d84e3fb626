import Fulfilment.Time.Instant

/-!
# Order numbers

The human-readable number of an order: `ORD-`, the day in universal time, a hyphen, and a suffix of
six characters in base 36 drawn at random.
-/
namespace Fulfilment

/-- The number that people use to name an order. -/
structure OrderNumber where
  text : String
deriving DecidableEq, Repr

namespace OrderNumber

instance : Ord OrderNumber := ⟨compareOn OrderNumber.text⟩
instance : Std.TransOrd OrderNumber := inferInstanceAs (Std.TransCmp (compareOn OrderNumber.text))

instance : Std.LawfulEqOrd OrderNumber where
  eq_of_compare {a b} h := by
    have h : a.text = b.text := Std.LawfulEqOrd.eq_of_compare h
    cases a; cases b; simp_all

/-- The suffix drawn with a random number: its six lowest digits, the lowest first. -/
def suffix (entropy : Nat) : List Char := (Numeral.lowDigits 36 6 entropy).map Numeral.upperChar

/-- The order number for an instant and a random number. -/
def draw (now : Instant) (entropy : Nat) : OrderNumber :=
  ⟨String.ofList ("ORD-".toList ++ now.date.compactText ++ '-' :: suffix entropy)⟩

end OrderNumber
end Fulfilment
