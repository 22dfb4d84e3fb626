import Fulfilment.Proofs.Order.Placing
import Fulfilment.Proofs.Service.Change

/-!
# Quantities of placed orders

Placing bounds what an order costs, and so how much it asks for, since no price is below one. But
the bound is the greatest amount of money and not the greatest number that a quantity can be: up to
that bound every quantity can be ordered, of one product as well as in all. Quantities are summed up
in words nevertheless, when they are told and when stock is taken out. So what creating an order
takes from a counter is what was asked for modulo the word size (`Creates.deducts`).
-/
namespace Fulfilment

open Script Service

namespace Line

/-- Valid lines cost no less than there is asked for. -/
theorem sum_quantity_le_exactTotalOf {ls : List Line} (h : ∀ l ∈ ls, l.IsValid) :
    ((ls.map fun l => l.quantity.toNat).sum : Nat) ≤ exactTotalOf ls := by
  induction ls with
  | nil => exact Int.le_refl 0
  | cons l ls ih =>
    obtain ⟨hl, hls⟩ := List.forall_mem_cons.1 h
    have hhead := hl.quantity_le_exactTotal
    have hrest := ih hls
    rw [List.map_cons, List.sum_cons, exactTotalOf]
    omega

theorem exactTotalOf_replicate (n : Nat) (l : Line) :
    exactTotalOf (List.replicate n l) = n * l.exactTotal := by
  induction n with
  | zero => simp [exactTotalOf]
  | succ n ih =>
    rw [List.replicate_succ, exactTotalOf, ih, Int.natCast_succ, Int.add_mul, Int.one_mul,
      Int.add_comm]

end Line

namespace Order

/-- The exact quantity of all lines. -/
def exactQuantity (o : Order) : Nat := (o.lines.map fun l => l.quantity.toNat).sum

variable {o : Order}

/-- The quantity of an order is the exact one modulo the word size. -/
theorem toNat_totalQuantity (o : Order) : o.totalQuantity.toNat = o.exactQuantity % 2 ^ 32 := by
  have hfold : ∀ (n : UInt32) (ls : List Line), (ls.foldl (fun n l => n + l.quantity) n).toNat =
      (n.toNat + (ls.map fun l => l.quantity.toNat).sum) % 2 ^ 32 := by
    intro n ls
    induction ls generalizing n with
    | nil => simp [Nat.mod_eq_of_lt n.toNat_lt]
    | cons l ls ih =>
      rw [List.foldl_cons, ih, List.map_cons, List.sum_cons, UInt32.toNat_add]
      omega
  rw [totalQuantity, hfold, exactQuantity]
  simp

theorem quantityOf_le_exactQuantity (o : Order) (p : ProductId) :
    StockLine.quantityOf p (Notice.stockLines o) ≤ o.exactQuantity := by
  rw [Notice.stockLines, exactQuantity]
  induction o.lines with
  | nil => exact Nat.le_refl 0
  | cons l ls ih =>
    rw [List.map_cons, StockLine.quantityOf_cons, List.map_cons, List.sum_cons]
    dsimp only
    split <;> omega

/-- The quantity of a placed order is bounded by the greatest amount. -/
theorem Placeable.exactQuantity_lt (h : Placeable o.lines) : o.exactQuantity < 2 ^ 63 := by
  have hle := Line.sum_quantity_le_exactTotalOf h.valid
  have hlt := h.total_lt
  rw [exactQuantity]
  omega

/-- One piece of a product, for the least price. -/
def onePiece (p : ProductId) : Line := ⟨p, p.text, 1, ⟨1⟩⟩

/-- Within that bound any quantity of a product can be ordered. -/
theorem exists_place (request : NewOrder) (now : Instant) (p : ProductId) {n : Nat} (hn : 0 < n)
    (hlt : n < 2 ^ 63) :
    ∃ o e, place { request with lines := List.replicate n (onePiece p) } now = .ok (o, e) ∧
      o.exactQuantity = n ∧ StockLine.quantityOf p (Notice.stockLines o) = n := by
  have hvalid : (onePiece p).IsValid := ⟨(by decide : (0 : UInt32) < 1), Int.one_pos⟩
  have htotal : (onePiece p).exactTotal = 1 := rfl
  have hplaceable : Placeable (List.replicate n (onePiece p)) := by
    refine ⟨?_, fun l hl => ?_, ?_⟩
    · simpa using Nat.ne_of_gt hn
    · rw [List.eq_of_mem_replicate hl]
      exact hvalid
    · rw [Line.exactTotalOf_replicate, htotal]
      omega
  refine ⟨_, _, place_eq_ok_iff.2 ⟨hplaceable, rfl, rfl⟩, ?_, ?_⟩
  · simp [exactQuantity, ofRequest, onePiece]
  · simp [StockLine.quantityOf_eq_sum, Notice.stockLines, ofRequest, onePiece]

end Order

namespace Service

variable {w w' : World} {budget : RetryBudget} {ttl : Span} {r : CreateRequest} {draw : Draw}
  {o : Order}

/-- Creating an order takes from each counter what is asked for, modulo the word size. -/
theorem Creates.deducts (h : Creates budget ttl r draw w w')
    (hinc : w.ledger.incrementsFail = false) (hid : w.ledger.Unknown draw.reservation)
    (hnew : w.book.get? draw.order = none) (ho : w'.book.get? draw.order = some o)
    (p : ProductId) :
    w'.ledger.stockOf p = w.ledger.stockOf p -
      (StockLine.quantityOf p r.stockLines % 2 ^ 32 : Nat) := by
  have hreserve : (Reservation.reserve budget r.store r.stockLines draw.reservation ttl).Yields
      (Stock.answer w.clock) _ w.ledger :=
    Reservation.yields_reserve_of_unknown hid hinc budget r.store r.stockLines ttl
  cases h with
  | refused | unreserved | stopped | unsaved =>
    have ho : w.book.get? draw.order = some o := ho
    rw [hnew] at ho
    cases ho
  | @created held l keys placeable reserves accepted =>
    rw [Yields, ← CreateRequest.reserve, reserves] at hreserve
    obtain ⟨deadline, -, hheld, k, hk, rfl⟩ := hreserve
    have hstock := hk.stock p
    rw [hheld, StockLine.quantityOf_merge] at hstock
    exact (Int.sub_eq_iff_eq_add.2 hstock).symm

end Service

/--
**Quantities of a placed order are counted modulo the word size.**

A placed order asks for less than the range of amounts in all, and for no more than that of each
product. What it says that it asks for in all, and what is left of the lines of a product when they
are merged, is the exact quantity modulo the word size, which is the exact one only if that fits a
word. Whether it does is left to the customer: every quantity within the range of amounts can be
ordered. Creating an order takes exactly the merged quantities out of the stock.
-/
theorem quantities_count_modulo_word {request : NewOrder} {now : Instant} {o : Order} {e : Event}
    (hplace : Order.place request now = .ok (o, e)) :
    (o.exactQuantity < 2 ^ 63 ∧
      ∀ p, StockLine.quantityOf p (Notice.stockLines o) ≤ o.exactQuantity) ∧
    (o.totalQuantity.toNat = o.exactQuantity % 2 ^ 32 ∧
      (o.totalQuantity.toNat = o.exactQuantity ↔ o.exactQuantity < 2 ^ 32)) ∧
    (∀ p, StockLine.quantityOf p (StockLine.merge (Notice.stockLines o)) =
        StockLine.quantityOf p (Notice.stockLines o) % 2 ^ 32 ∧
      (StockLine.quantityOf p (StockLine.merge (Notice.stockLines o)) =
          StockLine.quantityOf p (Notice.stockLines o) ↔
        StockLine.quantityOf p (Notice.stockLines o) < 2 ^ 32)) ∧
    (∀ (p : ProductId) (n : Nat), 0 < n → n < 2 ^ 63 →
      ∃ lines o' e', Order.place { request with lines } now = .ok (o', e') ∧
        o'.exactQuantity = n ∧ StockLine.quantityOf p (Notice.stockLines o') = n) ∧
    ∀ (w : World) (budget : RetryBudget) (ttl : Span) (r : CreateRequest) (draw : Draw)
      (made : Order), r.lines = request.lines →
      w.ledger.incrementsFail = false → w.ledger.Unknown draw.reservation →
      w.book.get? draw.order = none →
      let w' := ((createOrder budget ttl r draw).run.run World.answer w).2
      w'.book.get? draw.order = some made →
      ∀ p, w'.ledger.stockOf p = w.ledger.stockOf p -
        (StockLine.quantityOf p (Notice.stockLines o) % 2 ^ 32 : Nat) := by
  have hexact : ∀ n : Nat, n % 2 ^ 32 = n ↔ n < 2 ^ 32 := fun n => Nat.mod_eq_iff_lt (by decide)
  obtain ⟨hplaceable, rfl, rfl⟩ := Order.place_eq_ok_iff.1 hplace
  refine ⟨⟨Order.Placeable.exactQuantity_lt hplaceable, Order.quantityOf_le_exactQuantity _⟩,
    ?_, fun p => ?_, fun p n hn hlt => ⟨_, Order.exists_place request now p hn hlt⟩,
    fun w budget ttl r draw made hlines hinc hid hnew => ?_⟩
  · rw [Order.toNat_totalQuantity]
    exact ⟨rfl, hexact _⟩
  · rw [StockLine.quantityOf_merge]
    exact ⟨rfl, hexact _⟩
  · intro w' hmade p
    have hstock : Notice.stockLines (.ofRequest request now) = r.stockLines := by
      rw [CreateRequest.stockLines, hlines]
      rfl
    rw [hstock]
    exact (yields_createOrder_creates budget ttl r draw).deducts hinc hid hnew hmade p

/-- A request for two more widgets than a word can count to. -/
def countlessWidgets : CreateRequest :=
  { twoWidgets with
    lines := [⟨⟨"widget"⟩, "Widget", 4294967295, ⟨1⟩⟩, ⟨⟨"widget"⟩, "Widget", 2, ⟨1⟩⟩] }

/-- The order of these widgets, as it is asked for. -/
def countlessRequest : NewOrder :=
  countlessWidgets.newOrder ⟨⟨.ofNat 2⟩, ⟨"first"⟩, 0⟩ widgetShop.clock

def countlessOrder : Order := .ofRequest countlessRequest widgetShop.clock

theorem place_countlessRequest :
    Order.place countlessRequest widgetShop.clock =
      .ok (countlessOrder, .placed countlessRequest widgetShop.clock) := by
  have hlines : Order.Placeable countlessRequest.lines :=
    Order.placementObjection_eq_none_iff.1 (by decide +kernel)
  exact Order.place_eq_ok_iff.2 ⟨hlines, rfl, rfl⟩

/-- The countless widgets are one as far as a word can tell. -/
theorem placed_quantity_exceeds_word :
    Order.place countlessRequest widgetShop.clock =
        .ok (countlessOrder, .placed countlessRequest widgetShop.clock) ∧
      ¬ countlessOrder.exactQuantity < 2 ^ 32 ∧
      ¬ StockLine.quantityOf ⟨"widget"⟩ (Notice.stockLines countlessOrder) < 2 ^ 32 ∧
      countlessOrder.totalQuantity = 1 ∧
      StockLine.merge (Notice.stockLines countlessOrder) = [⟨⟨"widget"⟩, 1⟩] :=
  ⟨place_countlessRequest, by decide +kernel, by decide +kernel, by decide +kernel,
    by decide +kernel⟩

/-- Creating that order takes one of five widgets out of the stock. -/
theorem countless_widgets_take_one :
    let draw : Draw := ⟨⟨.ofNat 2⟩, ⟨"first"⟩, 0⟩
    let w' := ((createOrder (.ofNat 10) (.ofMinutes 15) countlessWidgets draw).run.run
      World.answer widgetShop).2
    Order.place countlessRequest widgetShop.clock =
        .ok (countlessOrder, .placed countlessRequest widgetShop.clock) ∧
      countlessOrder.exactQuantity = 4294967297 ∧ countlessOrder.totalQuantity.toNat = 1 ∧
      (∃ made, w'.book.get? draw.order = some made) ∧
      w'.ledger.stockOf ⟨"widget"⟩ = widgetShop.ledger.stockOf ⟨"widget"⟩ - 1 := by
  intro draw w'
  have hid : widgetShop.ledger.Unknown draw.reservation := ⟨rfl, rfl, fun _ => rfl⟩
  have hquantity : countlessOrder.exactQuantity = 4294967297 := by decide +kernel
  have hwidgets : StockLine.quantityOf ⟨"widget"⟩ (Notice.stockLines countlessOrder) =
      4294967297 := by
    decide +kernel
  have hcreated : (w'.book.get? draw.order).isSome = true := by decide +kernel
  obtain ⟨made, hmade⟩ := Option.isSome_iff_exists.1 hcreated
  obtain ⟨-, ⟨htotal, -⟩, -, -, hdeducts⟩ := quantities_count_modulo_word place_countlessRequest
  refine ⟨place_countlessRequest, hquantity, ?_, ⟨made, hmade⟩, ?_⟩
  · rw [htotal, hquantity]
    decide
  · rw [hdeducts _ _ _ _ _ made rfl rfl hid rfl hmade, hwidgets]
    rfl

end Fulfilment
