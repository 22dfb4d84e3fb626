import Fulfilment.Proofs.Order.Placing
import Fulfilment.Proofs.Saga.Parking
import Fulfilment.Proofs.Service.Change

/-!
# Totals that are told

The total of an order is not stored. It is worked out from the lines whenever it is told, by
products and sums that stop at the greatest amount. They never do: placing has checked that the
exact total of the lines is an amount, and nothing that becomes of an order touches its lines. So
every total that is told, when the order is created, confirmed or refunded, is the exact one of the
order that is stored (`World.TellsTotals`).
-/
namespace Fulfilment

open Script Relation Service

/-- The total that a notice tells. -/
def Notice.total? : Notice → Option Money
  | orderCreated _ _ _ _ _ total _ => some total
  | orderConfirmed _ _ total _ _ => some total
  | orderRefunded _ _ total _ _ => some total
  | stockReserved .. => none
  | orderCancelled .. => none

/-- A notice is published only if it was before or is one of the new ones. -/
theorem Outbox.mem_publishAll {b : Outbox} {ns : List Notice} {n : Notice}
    (h : n ∈ (b.publishAll ns).notices) : n ∈ b.notices ∨ n ∈ ns := by
  induction ns generalizing b with
  | nil => exact .inl h
  | cons first rest ih =>
    rcases ih h with hfirst | hrest
    · unfold Outbox.publish at hfirst
      split at hfirst
      · exact .inl hfirst
      · exact (List.mem_append.1 hfirst).imp_right fun h => by simp_all
    · exact .inr (List.mem_cons_of_mem _ hrest)

namespace Order

variable {o x : Order}

/-- The order was placed once, whatever has become of it since. -/
def WasPlaced (o : Order) : Prop :=
  ∃ request placedAt first e, place request placedAt = .ok (first, e) ∧ first.Later o

theorem WasPlaced.placeable (h : o.WasPlaced) : Placeable o.lines := by
  obtain ⟨request, placedAt, first, e, hplace, hlater⟩ := h
  obtain ⟨hplaceable, rfl, -⟩ := place_eq_ok_iff.1 hplace
  rw [hlater.samePlacement.lines]
  exact hplaceable

theorem WasPlaced.minor_totalAmount (h : o.WasPlaced) :
    o.totalAmount.minor = Line.exactTotalOf o.lines :=
  minor_totalOf (placementObjection_eq_none_iff.2 h.placeable)

theorem WasPlaced.withVersion (h : o.WasPlaced) (version : Int) :
    WasPlaced { o with version } := by
  obtain ⟨request, placedAt, first, e, hplace, hlater⟩ := h
  exact ⟨request, placedAt, first, e, hplace, hlater.saved version⟩

/-- The notices of an order that tell a total. -/
inductive TellsTotal (o : Order) : Notice → Prop where
  | created : TellsTotal o (.created o)
  | confirmed (now : Instant) : TellsTotal o (.confirmed o now)
  | refunded {now : Instant} {n : Notice} (h : Notice.refunded? o now = some n) : TellsTotal o n

theorem TellsTotal.total?_eq {n : Notice} (h : o.TellsTotal n) : n.total? = some o.totalAmount := by
  cases h with
  | created | confirmed => rfl
  | refunded h =>
    obtain ⟨refund, -, rfl⟩ := Option.map_eq_some_iff.1 h
    rfl

end Order

namespace Service

variable {now : Instant} {o : Order} {c : Changed} {n : Notice}

theorem Moves.wasPlaced (h : Moves now o c) (ho : o.WasPlaced) : c.order.WasPlaced := by
  obtain ⟨request, placedAt, first, e, hplace, hlater⟩ := ho
  refine ⟨request, placedAt, first, e, hplace, ?_⟩
  cases h with
  | cancelled _ _ _ _ accepted | refunded _ _ _ _ accepted | requested _ accepted
  | timedOut _ accepted => exact hlater.act accepted
  | reacted reacts => exact hlater.react reacts

/-- What a move tells is about the changed order, and so is a total that it tells. -/
theorem Moves.of_mem_notices (h : Moves now o c) (hn : n ∈ c.notices) :
    n.order = c.order.id ∧ (n.total? = none ∨ c.order.TellsTotal n) := by
  cases h with
  | cancelled | timedOut =>
    rw [List.mem_singleton.1 hn]
    exact ⟨rfl, .inl rfl⟩
  | refunded =>
    have hrefunded := Option.mem_toList.1 hn
    obtain ⟨refund, -, rfl⟩ := Option.map_eq_some_iff.1 hrefunded
    exact ⟨rfl, .inr (.refunded hrefunded)⟩
  | requested => cases hn
  | @reacted s a reacts =>
    have hnotice := Order.notice_of_react reacts
    have hn := Option.mem_toList.1 hn
    dsimp only at hn ⊢
    rw [hn] at hnotice
    cases s with
    | inventoryReserved =>
      cases hnotice
      exact ⟨rfl, .inr (.confirmed now)⟩
    | paymentCompleted => cases hnotice
    | inventoryReservationFailed | paymentFailed | paymentCancelled | paymentCompensation =>
      cases hnotice
      exact ⟨rfl, .inl rfl⟩

end Service

namespace World

variable {w w' : World} {o : Order}

/-- Every stored order was placed, and every total that has been told is the exact one of the lines
that are stored. -/
structure TellsTotals (w : World) : Prop where
  kept : w.book.WellKept
  placed : ∀ {id o}, w.book.get? id = some o → o.WasPlaced
  told : ∀ {n total}, n ∈ w.outbox.notices → n.total? = some total →
    ∃ o, w.book.get? n.order = some o ∧ total.minor = Line.exactTotalOf o.lines

namespace TellsTotals

/-- Storing a placed order keeps this, if what was stored of it had the same lines and what is told
is its own total. -/
theorem store (h : w.TellsTotals) (ns : List Notice) (hversion : 0 ≤ o.version)
    (hbook : w'.book = w.book.store o) (houtbox : w'.outbox = w.outbox.publishAll ns)
    (hplaced : o.WasPlaced) (hlines : ∀ old, w.book.get? o.id = some old → old.lines = o.lines)
    (hown : ∀ n ∈ ns, n.order = o.id ∧ (n.total? = none ∨ o.TellsTotal n)) :
    w'.TellsTotals := by
  have hget := OrderBook.get?_store w.book o
  rw [← hbook] at hget
  refine ⟨hbook ▸ h.kept.store hversion, fun {id x} hx => ?_, fun {n total} hn htotal => ?_⟩
  · rw [hget] at hx
    split at hx
    · cases hx
      exact hplaced.withVersion _
    · exact h.placed hx
  · rw [houtbox] at hn
    rcases Outbox.mem_publishAll hn with hbefore | hnew
    · obtain ⟨old, hold, hexact⟩ := h.told hbefore htotal
      rw [hget]
      split
      · next hid => exact ⟨_, rfl, hexact.trans (by rw [hlines old (hid ▸ hold)])⟩
      · exact ⟨old, hold, hexact⟩
    · obtain ⟨hid, hsilent | htells⟩ := hown n hnew
      · rw [hsilent] at htotal
        cases htotal
      · rw [htells.total?_eq] at htotal
        cases htotal
        rw [hget, if_pos hid]
        exact ⟨_, rfl, hplaced.minor_totalAmount⟩

theorem step (h : w.TellsTotals) (hstep : w.Step w') : w'.TellsTotals := by
  cases hstep with
  | @moved o c stored moves accepted =>
    have hversion : 0 ≤ c.order.version := by
      rw [moves.version]
      exact Int.le_of_lt (h.kept _ _ stored).2
    refine h.store c.notices hversion rfl rfl (moves.wasPlaced (h.placed stored)) ?_
      fun n hn => moves.of_mem_notices hn
    intro old hold
    rw [moves.samePlacement.id, stored, Option.some.injEq] at hold
    rw [← hold, moves.samePlacement.lines]

/-- Totals are told right of an order that is created, since it was placed with its lines. -/
theorem creates {budget : RetryBudget} {ttl : Span} {r : CreateRequest} {draw : Draw}
    (h : w.TellsTotals) (hcreates : Creates budget ttl r draw w w') : w'.TellsTotals := by
  cases hcreates with
  | refused | unreserved | stopped | unsaved => exact ⟨h.kept, h.placed, h.told⟩
  | @created held l keys placeable reserves accepted =>
    have hplaceable := Order.placementObjection_eq_none_iff.1 placeable
    have hnew : w.book.get? (r.creation draw held w.clock).order.id = none :=
      OrderBook.get?_eq_none_of_new accepted rfl
    have hplaced : (r.reserved draw held w.clock).WasPlaced :=
      ⟨r.newOrder draw w.clock, w.clock, _, _, Order.place_eq_ok_iff.2 ⟨hplaceable, rfl, rfl⟩,
        Order.Later.refl.act (transition_markStockReserved rfl held.id held.expiresAt w.clock)⟩
    refine h.store (r.creation draw held w.clock).notices (Int.le_refl 0) rfl rfl hplaced ?_ ?_
    · intro old hold
      rw [hnew] at hold
      cases hold
    · intro n hn
      rcases List.mem_cons.1 hn with rfl | hn
      · exact ⟨rfl, .inr .created⟩
      · rw [List.mem_singleton.1 hn]
        exact ⟨rfl, .inl rfl⟩

theorem perform (h : w.TellsTotals) (d : Deed) : (d.perform w).TellsTotals := by
  cases d with
  | command c => exact c.keeps (motive := TellsTotals) kept step creates h
  | _ => exact ⟨h.kept, h.placed, h.told⟩

theorem after (h : w.TellsTotals) (ds : List Deed) : (w.after ds).TellsTotals := by
  induction ds generalizing w with
  | nil => exact h
  | cons d ds ih => exact ih (h.perform d)

end TellsTotals
end World

/--
**Totals are exact.**

An order is placed exactly if it has lines, each with a quantity and a price above zero, whose exact
total is an amount, and otherwise refused for the first of what is to be reported. Whatever becomes
of a placed order, its total is the exact one of its lines, and the notices of its creation, its
confirmation and its refund tell that total. So, whatever happens to a shop whose orders were placed
and which has told nothing yet, it tells no total but the exact one of a stored order.
-/
theorem totals_are_exact :
    (∀ request now,
      (∀ o e, Order.place request now = .ok (o, e) ↔
        Order.Placeable request.lines ∧ o = .ofRequest request now ∧ e = .placed request now) ∧
      ∀ rejection, Order.place request now = .error rejection ↔
        Order.Objects request.lines rejection) ∧
    (∀ request placedAt first e o, Order.place request placedAt = .ok (first, e) → first.Later o →
      o.lines = request.lines ∧ o.totalAmount.minor = Line.exactTotalOf o.lines ∧
      ∀ n, o.TellsTotal n → n.total? = some o.totalAmount) ∧
    ∀ (w : World) (ds : List Deed), w.book.WellKept →
      (∀ id o, w.book.get? id = some o → o.WasPlaced) → w.outbox.notices = [] →
      ∀ n total, n ∈ (w.after ds).outbox.notices → n.total? = some total →
        ∃ o, (w.after ds).book.get? n.order = some o ∧ o.WasPlaced ∧
          total.minor = Line.exactTotalOf o.lines := by
  refine ⟨fun request now => ⟨fun o e => Order.place_eq_ok_iff, fun r => Order.place_eq_error_iff⟩,
    fun request placedAt first e o hplace hlater => ?_,
    fun w ds hkept hplaced hsilent n total => ?_⟩
  · have hplaced : o.WasPlaced := ⟨request, placedAt, first, e, hplace, hlater⟩
    obtain ⟨-, rfl, -⟩ := Order.place_eq_ok_iff.1 hplace
    exact ⟨hlater.samePlacement.lines, hplaced.minor_totalAmount, fun n hn => hn.total?_eq⟩
  · have hbefore : w.TellsTotals := by
      refine ⟨hkept, fun {id o} ho => hplaced id o ho, fun {n total} hn => ?_⟩
      rw [hsilent] at hn
      cases hn
    intro hn htotal
    obtain ⟨o, ho, hexact⟩ := (hbefore.after ds).told hn htotal
    exact ⟨o, ho, (hbefore.after ds).placed ho, hexact⟩

/-- Of the two placed widgets the shop tells the exact total of 200 when their stock is reserved. -/
theorem total_of_confirmed_widgets :
    let w := (shopWith placedWidgets).after [.command (.handle Saga.defaultRetries widgetsHeld)]
    Order.place widgetRequest widgetShop.clock =
        .ok (placedWidgets, .placed widgetRequest widgetShop.clock) ∧
      placedWidgets.totalAmount.minor = Line.exactTotalOf placedWidgets.lines ∧
      ∃ n total o, n ∈ w.outbox.notices ∧ n.kind = "OrderConfirmed" ∧ n.total? = some total ∧
        w.book.get? n.order = some o ∧ total.minor = Line.exactTotalOf o.lines ∧
        total.minor = 200 := by
  obtain ⟨hplace, hlater, hshop⟩ := totals_are_exact
  have hlines : Order.Placeable widgetRequest.lines :=
    Order.placementObjection_eq_none_iff.1 (by decide +kernel)
  have hplaced := ((hplace widgetRequest widgetShop.clock).1 _ _).2 ⟨hlines, rfl, rfl⟩
  have hstored : ∀ id o, (shopWith placedWidgets).book.get? id = some o → o.WasPlaced := by
    intro id o ho
    rw [shopWith, OrderBook.get?_store] at ho
    split at ho
    · cases ho
      exact ⟨_, _, _, _, hplaced, Order.Later.refl.saved _⟩
    · cases ho
  have hkept : (shopWith placedWidgets).book.WellKept :=
    (OrderBook.wellKept_of_empty rfl).store (Int.le_refl 0)
  have htold : (((shopWith placedWidgets).after
      [.command (.handle Saga.defaultRetries widgetsHeld)]).outbox.notices.map fun n =>
        (n.kind, n.total?)) = [("OrderConfirmed", some ⟨200⟩)] := by
    decide +kernel
  obtain ⟨n, hn, hmade⟩ := List.mem_map.1 (htold ▸ List.mem_singleton_self _)
  obtain ⟨hkind, htotal⟩ := Prod.mk.inj hmade
  obtain ⟨o, ho, -, hexact⟩ := hshop _ _ hkept hstored rfl n _ hn htotal
  exact ⟨hplaced, (hlater _ _ _ _ _ hplaced .refl).2.1, n, _, o, hn, hkind, htotal, ho, hexact, rfl⟩

end Fulfilment
