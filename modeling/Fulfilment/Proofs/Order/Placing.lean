import Fulfilment.Proofs.Order.Total
import Mathlib.Algebra.Group.Int.Defs

/-!
# Placing

An order is placed exactly if there is a line, every line is valid, and the exact total is an amount
(`placementObjection_eq_none_iff`). The running total is checked twice at each line, when the line
is multiplied out and when it is added. Totals of valid lines are positive, so the first check fails
only where the second one would, and both together find the first line at which the exact total is
too much. Of all that can be wrong with lines, `Objects` says what is reported.
-/
namespace Fulfilment

namespace Money

variable {n : Int}

theorem ofInt?_of_lt (hn : 0 ≤ n) (hlt : n < 2 ^ 63) : ofInt? n = some (ofInt n) := by
  rw [ofInt?, if_pos (by omega)]

theorem ofInt?_of_le (hle : 2 ^ 63 ≤ n) : ofInt? n = none := by
  rw [ofInt?, if_neg (by omega)]

end Money

namespace Line

variable {l : Line} {ls : List Line}

/-- The line asks for some of its product, at a price above zero. -/
structure IsValid (l : Line) : Prop where
  quantity : 0 < l.quantity
  price : 0 < l.unitPrice.minor

theorem IsValid.quantity_le_exactTotal (h : l.IsValid) :
    (l.quantity.toNat : Int) ≤ l.exactTotal := by
  have hmul := Int.mul_le_mul_of_nonneg_right (show 1 ≤ l.unitPrice.minor from h.price)
    (Int.natCast_nonneg l.quantity.toNat)
  rwa [Int.one_mul] at hmul

theorem IsValid.exactTotal_pos (h : l.IsValid) : 0 < l.exactTotal := by
  have hquantity : 0 < l.quantity.toNat := h.quantity
  have hle := h.quantity_le_exactTotal
  omega

theorem exactTotalOf_nonneg (h : ∀ l ∈ ls, l.IsValid) : 0 ≤ exactTotalOf ls := by
  induction ls with
  | nil => exact Int.le_refl 0
  | cons l ls ih =>
    obtain ⟨hl, hls⟩ := List.forall_mem_cons.1 h
    exact Int.add_nonneg (Int.le_of_lt hl.exactTotal_pos) (ih hls)

end Line

namespace Order

variable {l : Line} {ls : List Line} {r : Rejection} {sofar : Money}

/-! ## Lines on their own -/

theorem lineObjection_eq_some_iff :
    lineObjection l = some r ↔
      l.quantity = 0 ∧ r = .invalidQuantity l.product 0 ∨
        0 < l.quantity ∧ l.unitPrice.minor ≤ 0 ∧ r = .invalidPrice l.product l.unitPrice.minor := by
  rw [UInt32.pos_iff_ne_zero, lineObjection, Money.isPositive]
  by_cases hzero : l.quantity = 0
  · rw [if_pos hzero, hzero]
    simp [@eq_comm _ r]
  · rw [if_neg hzero]
    by_cases hfree : l.unitPrice.minor ≤ 0 <;> simp [hzero, hfree, @eq_comm _ r]

/-- There is nothing to be said against valid lines, and against all others there is. -/
theorem lineObjection_eq_none_iff : lineObjection l = none ↔ l.IsValid := by
  rw [Option.eq_none_iff_forall_ne_some]
  simp only [ne_eq, lineObjection_eq_some_iff, not_or, not_and]
  constructor
  · intro h
    have hquantity : 0 < l.quantity :=
      UInt32.pos_iff_ne_zero.2 fun hzero => (h _).1 hzero rfl
    exact ⟨hquantity, Int.not_le.1 fun hfree => (h _).2 hquantity hfree rfl⟩
  · intro h r
    exact ⟨fun hzero => absurd hzero (UInt32.pos_iff_ne_zero.1 h.quantity),
      fun _ hfree => absurd hfree (Int.not_le.2 h.price)⟩

/-! ## The running total -/

/-- At a valid line, both checks of the running total are one check of the exact sum. -/
theorem bind_add?_total? (hl : l.IsValid) (hsofar : 0 ≤ sofar.minor) :
    l.total?.bind sofar.add? = Money.ofInt? (sofar.minor + l.exactTotal) := by
  have hpos := hl.exactTotal_pos
  by_cases hfits : l.exactTotal < 2 ^ 63
  · have htotal : l.total? = some (.ofInt l.exactTotal) :=
      Money.ofInt?_of_lt (Int.le_of_lt hpos) hfits
    have hminor : (Money.ofInt l.exactTotal).minor = l.exactTotal :=
      Money.ofInt?_eq_some_iff.1 htotal
    rw [htotal, Option.bind_some, Money.add?, hminor]
  · have htotal : l.total? = none := Money.ofInt?_of_le (Int.not_lt.1 hfits)
    rw [htotal, Option.bind_none, Money.ofInt?_of_le (by omega)]

/-- A line with which the total is still an amount is added to the running total. -/
theorem totalObjection_cons_of_lt (ls : List Line) (hl : l.IsValid) (hsofar : 0 ≤ sofar.minor)
    (hfits : sofar.minor + l.exactTotal < 2 ^ 63) :
    ∃ next : Money, next.minor = sofar.minor + l.exactTotal ∧
      totalObjection sofar (l :: ls) = totalObjection next ls := by
  have hnonneg := Int.add_nonneg hsofar (Int.le_of_lt hl.exactTotal_pos)
  have hnext := Money.ofInt?_of_lt hnonneg hfits
  refine ⟨_, Money.ofInt?_eq_some_iff.1 hnext, ?_⟩
  rw [totalObjection, bind_add?_total? hl hsofar, hnext]

theorem totalObjection_cons_of_le (hl : l.IsValid) (hsofar : 0 ≤ sofar.minor)
    (hexceeds : 2 ^ 63 ≤ sofar.minor + l.exactTotal) :
    totalObjection sofar (l :: ls) = some (.amountOverflow l.product) := by
  rw [totalObjection, bind_add?_total? hl hsofar, Money.ofInt?_of_le hexceeds]

/-- The running total of valid lines is objected to at the first line that makes the exact total too
much. -/
theorem totalObjection_eq_some_iff (hvalid : ∀ l ∈ ls, l.IsValid) (hsofar : 0 ≤ sofar.minor) :
    totalObjection sofar ls = some r ↔
      ∃ before line after, ls = before ++ line :: after ∧
        sofar.minor + Line.exactTotalOf before < 2 ^ 63 ∧
        2 ^ 63 ≤ sofar.minor + Line.exactTotalOf (before ++ [line]) ∧
        r = .amountOverflow line.product := by
  induction ls generalizing sofar with
  | nil => simp [totalObjection]
  | cons l ls ih =>
    obtain ⟨hl, hls⟩ := List.forall_mem_cons.1 hvalid
    have hpos := hl.exactTotal_pos
    have hbound := sofar.minor_bounds
    by_cases hfits : sofar.minor + l.exactTotal < 2 ^ 63
    · -- This line is added, so the line that is too much is one of those that follow.
      obtain ⟨next, hminor, hrest⟩ := totalObjection_cons_of_lt ls hl hsofar hfits
      rw [hrest, ih hls (by omega), hminor]
      constructor
      · rintro ⟨before, line, after, rfl, hbefore, hexceeds, hr⟩
        refine ⟨l :: before, line, after, rfl, ?_, ?_, hr⟩ <;>
          simp only [List.cons_append, Line.exactTotalOf] <;> omega
      · rintro ⟨before, line, after, hsplit, hbefore, hexceeds, hr⟩
        cases before with
        | nil =>
          cases hsplit
          simp only [List.nil_append, Line.exactTotalOf] at hexceeds
          omega
        | cons first before =>
          cases hsplit
          simp only [List.cons_append, Line.exactTotalOf] at hbefore hexceeds
          exact ⟨before, line, after, rfl, by omega, by omega, hr⟩
    · rw [totalObjection_cons_of_le hl hsofar (Int.not_lt.1 hfits), Option.some.injEq]
      constructor
      · rintro rfl
        refine ⟨[], l, ls, rfl, ?_, ?_, rfl⟩ <;>
          simp only [List.nil_append, Line.exactTotalOf] <;> omega
      · rintro ⟨before, line, after, hsplit, hbefore, hexceeds, rfl⟩
        cases before with
        | nil =>
          cases hsplit
          rfl
        | cons first before =>
          cases hsplit
          have hrest : 0 ≤ Line.exactTotalOf before := Line.exactTotalOf_nonneg fun x hx =>
            hls x (List.mem_append_left _ hx)
          simp only [Line.exactTotalOf] at hbefore
          omega

/-- There is no objection to the running total of valid lines if the exact total is an amount. -/
theorem totalObjection_eq_none_iff (hvalid : ∀ l ∈ ls, l.IsValid) (hsofar : 0 ≤ sofar.minor) :
    totalObjection sofar ls = none ↔ sofar.minor + Line.exactTotalOf ls < 2 ^ 63 := by
  induction ls generalizing sofar with
  | nil =>
    have hbound := sofar.minor_bounds
    simp only [totalObjection, Line.exactTotalOf, true_iff]
    omega
  | cons l ls ih =>
    obtain ⟨hl, hls⟩ := List.forall_mem_cons.1 hvalid
    have hpos := hl.exactTotal_pos
    have hnonneg := Line.exactTotalOf_nonneg hls
    rw [Line.exactTotalOf]
    by_cases hfits : sofar.minor + l.exactTotal < 2 ^ 63
    · obtain ⟨next, hminor, hrest⟩ := totalObjection_cons_of_lt ls hl hsofar hfits
      rw [hrest, ih hls (by omega), hminor, Int.add_assoc]
    · rw [totalObjection_cons_of_le hl hsofar (Int.not_lt.1 hfits)]
      simp only [reduceCtorEq, false_iff]
      omega

/-! ## All lines -/

/-- The lines of an order that can be placed: there are some, all valid, and the exact total is an
amount. -/
structure Placeable (ls : List Line) : Prop where
  asked : ls ≠ []
  valid : ∀ l ∈ ls, l.IsValid
  total_lt : Line.exactTotalOf ls < 2 ^ 63

/-- What is reported of lines that no order can be placed with: that there is none, or else the
first line that is not valid, its quantity before its price, or else the first line at which the
exact total is too much. -/
inductive Objects (ls : List Line) : Rejection → Prop where
  | noItems (h : ls = []) : Objects ls .noItems
  | quantity {before after : List Line} {line : Line} (split : ls = before ++ line :: after)
      (valid : ∀ l ∈ before, l.IsValid) (zero : line.quantity = 0) :
      Objects ls (.invalidQuantity line.product 0)
  | price {before after : List Line} {line : Line} (split : ls = before ++ line :: after)
      (valid : ∀ l ∈ before, l.IsValid) (asked : 0 < line.quantity)
      (free : line.unitPrice.minor ≤ 0) :
      Objects ls (.invalidPrice line.product line.unitPrice.minor)
  | overflow {before after : List Line} {line : Line} (split : ls = before ++ line :: after)
      (valid : ∀ l ∈ ls, l.IsValid) (fits : Line.exactTotalOf before < 2 ^ 63)
      (exceeds : 2 ^ 63 ≤ Line.exactTotalOf (before ++ [line])) :
      Objects ls (.amountOverflow line.product)

/-- The objection to some lines is that of the first line to object to, or else that of the running
total, which begins with nothing. -/
theorem placementObjection_of_ne_nil (h : ls ≠ []) :
    placementObjection ls = (ls.findSome? lineObjection).or (totalObjection .zero ls) := by
  rw [placementObjection, if_neg (by simpa using h)]

/-- Lines without objection are those that an order can be placed with. -/
theorem placementObjection_eq_none_iff : placementObjection ls = none ↔ Placeable ls := by
  have hzero : Money.zero.minor = 0 := rfl
  by_cases hnil : ls = []
  · subst hnil
    exact ⟨nofun, fun h => absurd rfl h.asked⟩
  · rw [placementObjection_of_ne_nil hnil, Option.or_eq_none_iff, List.findSome?_eq_none_iff]
    simp only [lineObjection_eq_none_iff]
    constructor
    · rintro ⟨hvalid, htotal⟩
      rw [totalObjection_eq_none_iff hvalid (Int.le_of_eq hzero.symm), hzero] at htotal
      exact ⟨hnil, hvalid, by omega⟩
    · rintro ⟨-, hvalid, hlt⟩
      rw [totalObjection_eq_none_iff hvalid (Int.le_of_eq hzero.symm), hzero]
      exact ⟨hvalid, by omega⟩

/-- The objection to lines is what is to be reported of them. -/
theorem placementObjection_eq_some_iff : placementObjection ls = some r ↔ Objects ls r := by
  have hzero : Money.zero.minor = 0 := rfl
  by_cases hnil : ls = []
  · subst hnil
    constructor
    · intro h
      cases h
      exact .noItems rfl
    · intro h
      cases h with
      | noItems => rfl
      | quantity split | price split | overflow split => simp at split
  · rw [placementObjection_of_ne_nil hnil, Option.or_eq_some_iff, List.findSome?_eq_some_iff,
      List.findSome?_eq_none_iff]
    simp only [lineObjection_eq_some_iff, lineObjection_eq_none_iff]
    constructor
    · rintro (⟨before, line, after, hsplit, hline, hbefore⟩ | ⟨hvalid, htotal⟩)
      · rcases hline with ⟨hquantity, rfl⟩ | ⟨hasked, hfree, rfl⟩
        · exact .quantity hsplit hbefore hquantity
        · exact .price hsplit hbefore hasked hfree
      · rw [totalObjection_eq_some_iff hvalid (Int.le_of_eq hzero.symm), hzero] at htotal
        obtain ⟨before, line, after, hsplit, hfits, hexceeds, rfl⟩ := htotal
        exact .overflow hsplit hvalid (by omega) (by omega)
    · intro h
      cases h with
      | noItems h => exact absurd h hnil
      | quantity split valid zero => exact .inl ⟨_, _, _, split, .inl ⟨zero, rfl⟩, valid⟩
      | price split valid asked free => exact .inl ⟨_, _, _, split, .inr ⟨asked, free, rfl⟩, valid⟩
      | overflow split valid fits exceeds =>
        rw [totalObjection_eq_some_iff valid (Int.le_of_eq hzero.symm), hzero]
        exact .inr ⟨valid, _, _, _, split, by omega, by omega, rfl⟩

/-- An order is placed exactly with lines that it can be placed with, and is as asked for. -/
theorem place_eq_ok_iff {request : NewOrder} {now : Instant} {o : Order} {e : Event} :
    place request now = .ok (o, e) ↔
      Placeable request.lines ∧ o = ofRequest request now ∧ e = .placed request now := by
  rw [place, ← placementObjection_eq_none_iff]
  cases placementObjection request.lines <;> simp [eq_comm]

/-- It is refused exactly for what is to be reported of its lines. -/
theorem place_eq_error_iff {request : NewOrder} {now : Instant} :
    place request now = .error r ↔ Objects request.lines r := by
  rw [place, ← placementObjection_eq_some_iff]
  cases placementObjection request.lines <;> simp

end Order
end Fulfilment
