/-!
# Money

An amount is a signed 64-bit count of minor units, so no rounding is involved. Sums and products
come in two kinds: the saturating ones stop at the ends of the range (`minor_ofInt`), the checked
ones have no value outside it (`ofInt?_eq_some_iff`).
-/
namespace Fulfilment

/-- An amount in the currency's minor unit. -/
structure Money where
  word : Int64
deriving DecidableEq, Repr

namespace Money

/-- The amount as an integer. -/
def minor (m : Money) : Int := m.word.toInt

def zero : Money := ⟨0⟩

/-- The amount nearest to an integer. -/
def ofInt (n : Int) : Money :=
  ⟨Int64.ofInt (max (-9223372036854775808) (min n 9223372036854775807))⟩

/-- The amount of an integer, if it is in range. -/
def ofInt? (n : Int) : Option Money :=
  if -9223372036854775808 ≤ n ∧ n ≤ 9223372036854775807 then some (ofInt n) else none

theorem minor_bounds (m : Money) :
    -9223372036854775808 ≤ m.minor ∧ m.minor ≤ 9223372036854775807 := by
  have h1 := Int64.le_toInt m.word
  have h2 := Int64.toInt_lt m.word
  simp only [minor]
  omega

theorem minor_inj {a b : Money} (h : a.minor = b.minor) : a = b := by
  cases a
  cases b
  simp_all [minor, Int64.toInt_inj]

/-- Outside the range the nearest end is taken. -/
theorem minor_ofInt (n : Int) :
    (ofInt n).minor = max (-9223372036854775808) (min n 9223372036854775807) := by
  simp only [minor, ofInt]
  exact Int64.toInt_ofInt_of_le (by omega) (by omega)

@[simp] theorem ofInt_minor (m : Money) : ofInt m.minor = m := by
  have h := minor_bounds m
  apply minor_inj
  rw [minor_ofInt]
  omega

/-- An integer is an amount exactly if it is in range. -/
theorem ofInt?_eq_some_iff {n : Int} {m : Money} : ofInt? n = some m ↔ m.minor = n := by
  simp only [ofInt?]
  constructor
  · intro h
    split at h
    · cases h
      rw [minor_ofInt]
      omega
    · simp at h
  · rintro rfl
    simp [minor_bounds m]

@[simp] theorem ofInt?_minor (m : Money) : ofInt? m.minor = some m := ofInt?_eq_some_iff.2 rfl

def isPositive (m : Money) : Bool := 0 < m.minor

/-- The saturating sum. -/
def add (a b : Money) : Money := ofInt (a.minor + b.minor)

/-- The sum, if it is in range. -/
def add? (a b : Money) : Option Money := ofInt? (a.minor + b.minor)

/-- The saturating product with a quantity. -/
def times (m : Money) (quantity : UInt32) : Money := ofInt (m.minor * quantity.toNat)

/-- The product with a quantity, if it is in range. -/
def times? (m : Money) (quantity : UInt32) : Option Money := ofInt? (m.minor * quantity.toNat)

/-- The saturating sum of amounts from left to right. -/
def sum (ms : List Money) : Money := ms.foldl add zero

instance : Ord Money := ⟨compareOn minor⟩

/-- The amount in decimal digits. -/
def toText (m : Money) : String := toString m.minor

end Money
end Fulfilment
