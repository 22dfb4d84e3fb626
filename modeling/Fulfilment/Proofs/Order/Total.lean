import Fulfilment.Order.Basic

/-!
# Totals

The total of an order is a saturating sum of saturating products. An order is placed only if every
product and every partial sum is an amount of money, and what is in range does not saturate. So the
total of a placed order is the exact one (`minor_totalOf`).
-/
namespace Fulfilment

theorem Money.ofInt_of_ofInt? {n : Int} {m : Money} (h : ofInt? n = some m) : ofInt n = m := by
  rw [← ofInt?_eq_some_iff.1 h, ofInt_minor]

theorem Line.total_of_total? {l : Line} {t : Money} (h : l.total? = some t) :
    l.total = t ∧ t.minor = l.exactTotal :=
  ⟨Money.ofInt_of_ofInt? h, Money.ofInt?_eq_some_iff.1 h⟩

namespace Order

/-- A running total without objection is exact. -/
theorem minor_foldl_total {sofar : Money} {ls : List Line} (h : totalObjection sofar ls = none) :
    ((ls.map Line.total).foldl Money.add sofar).minor = sofar.minor + Line.exactTotalOf ls := by
  induction ls generalizing sofar with
  | nil => simp [Line.exactTotalOf]
  | cons l ls ih =>
    simp only [totalObjection] at h
    split at h
    · next next hnext =>
      obtain ⟨t, ht, hadd⟩ := Option.bind_eq_some_iff.1 hnext
      obtain ⟨rfl, htotal⟩ := Line.total_of_total? ht
      have hsum : sofar.add l.total = next := Money.ofInt_of_ofInt? hadd
      have hminor : next.minor = sofar.minor + l.total.minor := Money.ofInt?_eq_some_iff.1 hadd
      have hrest := ih h
      simp only [List.map_cons, List.foldl_cons, hsum, Line.exactTotalOf]
      omega
    · cases h

/-- Lines without objection have an exact total. -/
theorem minor_totalOf {ls : List Line} (h : placementObjection ls = none) :
    (Line.totalOf ls).minor = Line.exactTotalOf ls := by
  unfold placementObjection at h
  split at h
  · cases h
  · have hzero : Money.zero.minor = 0 := rfl
    have hsum := minor_foldl_total (Option.or_eq_none_iff.1 h).2
    rw [hzero, Int.zero_add] at hsum
    exact hsum

end Order
end Fulfilment
