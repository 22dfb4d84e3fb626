import Fulfilment.Proofs.Order.Lifecycle
import Fulfilment.Proofs.Shop.Alone
import Fulfilment.Proofs.Stock.Alone
import Fulfilment.Shop.World

/-!
# The account of stock by orders

Stock that has left the counters is charged to orders: an order is charged while its reservation has
an entry in the list of holds, and for good when it was paid for, unless the audit trail says that
its stock had been given back by then. `Accounted` says that all missing stock is charged in this
way, with what else is needed of orders, holds and audit trail to keep it so. Whatever changes one
order and the hold of its reservation keeps the account if the charge of that order balances the
counters (`Accounted.step`).
-/
namespace Fulfilment

/-- The list by deadline has an entry for the reservation. -/
def Ledger.isIndexed (l : Ledger) (id : ReservationId) : Bool :=
  l.index.keys.any fun e => e.id = id

/-- The entry recorded for a paid order whose stock had been given back. -/
def AuditEntry.tellsOfMissingHold (e : AuditEntry) : Bool := e.action = "ConfirmStockHold"

namespace World

/-- The audit trail says that the order's stock had been given back when it was paid for. -/
def lacksHold (w : World) (id : OrderId) : Bool :=
  w.trail.entries.any fun e => e.order = id && e.tellsOfMissingHold

/-- The order's stock is out of the counters: it is held for the order, or the order was paid for
with it. -/
def isDeducted (w : World) (o : Order) : Bool :=
  o.reservation.any w.ledger.isIndexed || (o.confirmedAt.isSome && !w.lacksHold o.id)

/-- What an order takes of the stock of a product. -/
def charge (w : World) (p : ProductId) (o : Order) : Int :=
  if w.isDeducted o then StockLine.quantityOf p (Notice.stockLines o) else 0

/-- What all stored orders take of the stock of a product. -/
def deducted (w : World) (p : ProductId) : Int := w.book.orders.total fun _ o => w.charge p o

/-- What is known of each stored order. -/
structure Tracks (w : World) (o : Order) : Prop where
  reserved : ∃ id, o.reservation = some id
  preparedOnce : o.PreparedOnce
  unprepared : ∀ {id h}, o.reservation = some id → w.ledger.listed? id = some h →
    o.confirmedAt = none
  quantities : ∀ {id h}, o.reservation = some id → w.ledger.listed? id = some h →
    ∀ p, StockLine.quantityOf p h.lines = StockLine.quantityOf p (Notice.stockLines o)
  prepared : w.lacksHold o.id = true → o.confirmedAt.isSome = true

end World

/-- All stock that is missing since the counters had their initial values is charged to orders. -/
structure Accounted (initial : ProductId → Int) (w : World) : Prop where
  consistent : w.ledger.Consistent
  increments : w.ledger.incrementsFail = false
  recording : w.trail.failing = false
  id_of_stored : ∀ {id o}, w.book.get? id = some o → o.id = id
  tracks : ∀ {id o}, w.book.get? id = some o → w.Tracks o
  apart : ∀ {a b o o'}, w.book.get? a = some o → w.book.get? b = some o' →
    o.reservation = o'.reservation → a = b
  owned : ∀ {id h}, w.ledger.listed? id = some h →
    ∃ a o, w.book.get? a = some o ∧ o.reservation = some id
  known : ∀ {id}, w.lacksHold id = true → ∃ o, w.book.get? id = some o
  balance : ∀ p, w.ledger.stockOf p + w.deducted p = initial p

/-- Of a consistent ledger, the list has entries for the reservations with a listed hold. -/
theorem Ledger.Consistent.isIndexed_eq {l : Ledger} (c : l.Consistent) (id : ReservationId) :
    l.isIndexed id = (l.listed? id).isSome := by
  rw [Bool.eq_iff_iff, isIndexed, List.any_eq_true, Option.isSome_iff_exists]
  constructor
  · rintro ⟨e, he, heq⟩
    obtain ⟨⟨_, h⟩, hmem, rfl⟩ := List.mem_map.1 he
    obtain rfl := c.expiry_eq (Table.mem_toList_iff.1 hmem)
    exact ⟨h, c.listed?_eq_some_iff.2 ⟨of_decide_eq_true heq, Table.mem_toList_iff.1 hmem⟩⟩
  · rintro ⟨h, hl⟩
    obtain ⟨rfl, hi⟩ := c.listed?_eq_some_iff.1 hl
    exact ⟨h.expiry, List.mem_map.2 ⟨_, Table.mem_toList_iff.2 hi, rfl⟩, by simp [Hold.expiry]⟩

/-! ## What the account reads -/

section Congr

variable {w w' : World} {o : Order}

/-- An order is deducted by its hold, its confirmation and the audit trail, and nothing else. -/
theorem World.isDeducted_congr (c : w.ledger.Consistent) (c' : w'.ledger.Consistent)
    (hlisted : ∀ id, o.reservation = some id → w'.ledger.listed? id = w.ledger.listed? id)
    (hlacks : w'.lacksHold o.id = w.lacksHold o.id) : w'.isDeducted o = w.isDeducted o := by
  rw [isDeducted, isDeducted, hlacks]
  cases hr : o.reservation with
  | none => rfl
  | some id => simp only [Option.any_some, c.isIndexed_eq, c'.isIndexed_eq, hlisted id hr]

/-- What is known of an order reads its hold and the audit trail. -/
theorem World.Tracks.congr (h : w.Tracks o)
    (hlisted : ∀ id, o.reservation = some id → w'.ledger.listed? id = w.ledger.listed? id)
    (hlacks : w'.lacksHold o.id = w.lacksHold o.id) : w'.Tracks o where
  reserved := h.reserved
  preparedOnce := h.preparedOnce
  unprepared hr hl := h.unprepared hr ((hlisted _ hr).symm.trans hl)
  quantities hr hl := h.quantities hr ((hlisted _ hr).symm.trans hl)
  prepared hm := h.prepared (hlacks.symm.trans hm)

end Congr

namespace Accounted

variable {initial : ProductId → Int} {w w' : World}

/-- One order and the hold of its reservation have changed, and the counters as the charge of the
order has: the account is kept. -/
theorem step (a : Accounted initial w) {o : Order} (consistent : w'.ledger.Consistent)
    (increments : w'.ledger.incrementsFail = false) (recording : w'.trail.failing = false)
    (orders : w'.book.orders = w.book.orders.insert o.id o) (tracks : w'.Tracks o)
    (same : ∀ {o'}, w.book.get? o.id = some o' → o'.reservation = o.reservation)
    (apart : ∀ {id o'}, w.book.get? id = some o' → o'.reservation = o.reservation → id = o.id)
    (listed : ∀ id, o.reservation ≠ some id → w'.ledger.listed? id = w.ledger.listed? id)
    (lacks : ∀ id, id ≠ o.id → w'.lacksHold id = w.lacksHold id)
    (balance : ∀ p, w'.ledger.stockOf p + w'.charge p o =
      w.ledger.stockOf p + (w.book.get? o.id).elim 0 (w.charge p)) :
    Accounted initial w' := by
  have get : ∀ id, w'.book.get? id = if id = o.id then some o else w.book.get? id := by
    intro id
    rw [OrderBook.get?, orders, Table.get?_insert]
    simp only [Std.compare_eq_iff_eq]
    rfl
  have hlisted : ∀ {id o'}, w.book.get? id = some o' → id ≠ o.id →
      ∀ r, o'.reservation = some r → w'.ledger.listed? r = w.ledger.listed? r := by
    intro id o' ho' hid r hr
    refine listed r fun hr' => hid (apart ho' (hr.trans hr'.symm))
  have hlacks : ∀ {id o'}, w.book.get? id = some o' → id ≠ o.id →
      w'.lacksHold o'.id = w.lacksHold o'.id := by
    intro id o' ho' hid
    exact lacks _ (a.id_of_stored ho' ▸ hid)
  refine ⟨consistent, increments, recording, ?_, ?_, ?_, ?_, ?_, ?_⟩
  · intro id o' ho'
    rw [get] at ho'
    split at ho'
    · cases ho'
      exact Eq.symm ‹_›
    · exact a.id_of_stored ho'
  · intro id o' ho'
    rw [get] at ho'
    split at ho'
    · cases ho'
      exact tracks
    · exact (a.tracks ho').congr (hlisted ho' ‹_›) (hlacks ho' ‹_›)
  · intro x y o₁ o₂ h₁ h₂ hr
    rw [get] at h₁ h₂
    split at h₁ <;> split at h₂
    · exact Eq.trans ‹_› (Eq.symm ‹_›)
    · cases h₁
      exact absurd (apart h₂ hr.symm) ‹_›
    · cases h₂
      exact absurd (apart h₁ hr) ‹_›
    · exact a.apart h₁ h₂ hr
  · intro id h hl
    by_cases hr : o.reservation = some id
    · exact ⟨o.id, o, by rw [get, if_pos rfl], hr⟩
    · rw [listed id hr] at hl
      obtain ⟨b, o', ho', hr'⟩ := a.owned hl
      refine ⟨b, o', ?_, hr'⟩
      rw [get, if_neg, ho']
      rintro rfl
      exact hr ((same ho').symm.trans hr')
  · intro id hm
    by_cases hid : id = o.id
    · exact ⟨o, by rw [get, if_pos hid]⟩
    · rw [lacks id hid] at hm
      obtain ⟨o', ho'⟩ := a.known hm
      exact ⟨o', by rw [get, if_neg hid, ho']⟩
  · intro p
    have hcharge : ∀ id o', id ≠ o.id → w.book.orders.get? id = some o' →
        w'.charge p o' = w.charge p o' := by
      intro id o' hid ho'
      rw [World.charge, World.charge,
        World.isDeducted_congr a.consistent consistent (hlisted ho' hid) (hlacks ho' hid)]
    have htotal := Table.total_insert_add (f := fun _ x => w.charge p x)
      (g := fun _ x => w'.charge p x) o hcharge
    have hdeducted :
        w'.deducted p = (w.book.orders.insert o.id o).total fun _ x => w'.charge p x := by
      rw [World.deducted, orders]
    have hget : (w.book.get? o.id).elim 0 (w.charge p) =
        (w.book.orders.get? o.id).elim 0 fun x => w.charge p x := rfl
    have hbefore := a.balance p
    have hstep := balance p
    rw [World.deducted] at hbefore
    omega

/-- Nothing that the account reads has changed but the counters, and these have moved as their
initial values have. -/
theorem of_moved {initial' : ProductId → Int} (a : Accounted initial w)
    (consistent : w'.ledger.Consistent) (increments : w'.ledger.incrementsFail = false)
    (recording : w'.trail.failing = false) (orders : w'.book.orders = w.book.orders)
    (listed : ∀ id, w'.ledger.listed? id = w.ledger.listed? id)
    (lacks : ∀ id, w'.lacksHold id = w.lacksHold id)
    (stock : ∀ p, w'.ledger.stockOf p + initial p = w.ledger.stockOf p + initial' p) :
    Accounted initial' w' := by
  have get : ∀ id, w'.book.get? id = w.book.get? id := by
    intro id
    rw [OrderBook.get?, orders, OrderBook.get?]
  refine ⟨consistent, increments, recording, ?_, ?_, ?_, ?_, ?_, ?_⟩
  · intro id o ho
    exact a.id_of_stored ((get id).symm.trans ho)
  · intro id o ho
    exact (a.tracks ((get id).symm.trans ho)).congr (fun r _ => listed r) (lacks _)
  · intro x y o₁ o₂ h₁ h₂
    exact a.apart ((get x).symm.trans h₁) ((get y).symm.trans h₂)
  · intro id h hl
    obtain ⟨b, o, ho, hr⟩ := a.owned ((listed id).symm.trans hl)
    exact ⟨b, o, (get b).trans ho, hr⟩
  · intro id hm
    obtain ⟨o, ho⟩ := a.known ((lacks id).symm.trans hm)
    exact ⟨o, (get id).trans ho⟩
  · intro p
    have hdeducted : w'.deducted p = w.deducted p := by
      rw [World.deducted, World.deducted, orders]
      refine Table.total_congr fun id o ho => ?_
      rw [World.charge, World.charge,
        World.isDeducted_congr a.consistent consistent (fun r _ => listed r) (lacks _)]
    have hmoved := stock p
    have hbalance := a.balance p
    omega

theorem of_eq (a : Accounted initial w) (consistent : w'.ledger.Consistent)
    (increments : w'.ledger.incrementsFail = false) (recording : w'.trail.failing = false)
    (orders : w'.book.orders = w.book.orders)
    (listed : ∀ id, w'.ledger.listed? id = w.ledger.listed? id)
    (lacks : ∀ id, w'.lacksHold id = w.lacksHold id)
    (stock : ∀ p, w'.ledger.stockOf p = w.ledger.stockOf p) : Accounted initial w' :=
  a.of_moved consistent increments recording orders listed lacks fun p => by rw [stock]

/-! ## What calls keep -/

/-- Without orders and holds nothing is charged. -/
theorem of_empty (orders : w.book.orders = ∅) (holds : w.ledger.holds = ∅)
    (index : w.ledger.index = ∅) (deadlines : w.ledger.deadlines = ∅)
    (increments : w.ledger.incrementsFail = false) (recording : w.trail.failing = false)
    (entries : ∀ e ∈ w.trail.entries, e.tellsOfMissingHold = false) :
    Accounted w.ledger.stockOf w := by
  have hget : ∀ id, w.book.get? id = none := by
    intro id
    rw [OrderBook.get?, orders, Table.get?_empty]
  have hlisted : ∀ id, w.ledger.listed? id = none := by
    intro id
    rw [Ledger.listed?, deadlines, Table.get?_empty, Option.bind_none]
  refine ⟨Ledger.consistent_of_empty holds index deadlines, increments, recording,
    ?_, ?_, ?_, ?_, ?_, ?_⟩
  · intro id o ho
    cases (hget id).symm.trans ho
  · intro id o ho
    cases (hget id).symm.trans ho
  · intro x y o₁ o₂ h₁
    cases (hget x).symm.trans h₁
  · intro id h hl
    cases (hlisted id).symm.trans hl
  · intro id hm
    obtain ⟨e, he, htells⟩ := List.any_eq_true.1 hm
    simp [entries e he] at htells
  · intro p
    rw [World.deducted, orders, Table.total_empty, add_zero]

theorem of_same (a : Accounted initial w) (ledger : w'.ledger = w.ledger)
    (orders : w'.book.orders = w.book.orders) (trail : w'.trail = w.trail) :
    Accounted initial w' := by
  refine a.of_eq ?_ ?_ ?_ orders (fun _ => ?_) (fun _ => ?_) (fun _ => ?_)
  · exact ledger ▸ a.consistent
  · exact ledger ▸ a.increments
  · exact trail ▸ a.recording
  · rw [ledger]
  · rw [World.lacksHold, trail, World.lacksHold]
  · rw [ledger]

theorem of_ledger (a : Accounted initial w) {l : Ledger} (c : l.Consistent)
    (increments : l.incrementsFail = false) (listed : ∀ id, l.listed? id = w.ledger.listed? id)
    (stock : ∀ p, l.stockOf p = w.ledger.stockOf p) : Accounted initial { w with ledger := l } :=
  a.of_eq c increments a.recording rfl listed (fun _ => rfl) stock

/-- Lines that have left the counters are missing from the account, unless it starts without
them. -/
theorem of_above (a : Accounted initial w) {l : Ledger} {lines : List StockLine}
    (h : w.ledger.Above l lines) :
    Accounted (fun p => initial p - StockLine.quantityOf p lines) { w with ledger := l } := by
  refine a.of_moved (h.consistent a.consistent) (h.increments.trans a.increments) a.recording rfl
    h.listed?_eq (fun _ => rfl) fun p => ?_
  have hstock := h.stock p
  dsimp only
  omega

/-- An audit entry that does not tell of a missing hold changes no charge. -/
theorem record (a : Accounted initial w) {e : AuditEntry} (he : e.tellsOfMissingHold = false) :
    Accounted initial { w with trail := w.trail.record e } := by
  refine a.of_eq a.consistent a.increments ?_ rfl (fun _ => rfl) (fun id => ?_) (fun _ => rfl)
  · rw [AuditTrail.record, a.recording]
    rfl
  · simp [World.lacksHold, AuditTrail.record, a.recording, he]

end Accounted

/-- The order after a change that leaves its charge. -/
structure Order.SameCharge (o o' : Order) : Prop where
  placement : SamePlacement o o'
  reservation : o'.reservation = o.reservation
  confirmedAt : o'.confirmedAt = o.confirmedAt
  preparedOnce : o'.PreparedOnce

theorem Order.SameCharge.withVersion {o o' : Order} (h : o.SameCharge o') (version : Int) :
    o.SameCharge { o' with version } :=
  ⟨⟨h.placement.id, h.placement.number, h.placement.user, h.placement.store, h.placement.lines,
    h.placement.createdAt⟩, h.reservation, h.confirmedAt, h.preparedOnce⟩

theorem World.charge_eq {w w' : World} {o o' : Order} {p : ProductId}
    (h : w'.isDeducted o' = w.isDeducted o) (hlines : o'.lines = o.lines) :
    w'.charge p o' = w.charge p o := by
  rw [charge, charge, h, Notice.stockLines, Notice.stockLines, hlines]

theorem World.charge_of_reservation {w : World} (c : w.ledger.Consistent) {o : Order}
    {id : ReservationId} (hr : o.reservation = some id) (p : ProductId) :
    w.charge p o =
      if (w.ledger.listed? id).isSome || (o.confirmedAt.isSome && !w.lacksHold o.id) then
        (StockLine.quantityOf p (Notice.stockLines o) : Int)
      else 0 := by
  simp only [charge, isDeducted, hr, Option.any_some, c.isIndexed_eq]

/-- As much is known of an order after a change that leaves its charge. -/
theorem World.Tracks.of_sameCharge {w : World} {o o' : Order} (t : w.Tracks o)
    (h : o.SameCharge o') : w.Tracks o' where
  reserved := h.reservation ▸ t.reserved
  preparedOnce := h.preparedOnce
  unprepared hr hl := h.confirmedAt.trans (t.unprepared (h.reservation.symm.trans hr) hl)
  quantities hr hl p := by
    rw [t.quantities (h.reservation.symm.trans hr) hl p, Notice.stockLines, Notice.stockLines,
      h.placement.lines]
  prepared hm := by
    rw [h.confirmedAt]
    exact t.prepared (h.placement.id ▸ hm)

namespace Accounted

variable {initial : ProductId → Int} {w w' : World}

/-- Storing an order keeps the account if the charge of the order stays. -/
theorem store (a : Accounted initial w) {o o' : Order} (ho : w.book.get? o.id = some o)
    (h : o.SameCharge o') {b : OrderBook} (hb : b.orders = w.book.orders.insert o'.id o') :
    Accounted initial { w with book := b } := by
  have hid : o'.id = o.id := h.placement.id
  have hdeducted : World.isDeducted { w with book := b } o' = w.isDeducted o := by
    simp only [World.isDeducted, World.lacksHold, h.reservation, h.confirmedAt, hid]
  have t : World.Tracks { w with book := b } o' :=
    ((a.tracks ho).of_sameCharge h).congr (fun _ _ => rfl) rfl
  refine a.step a.consistent a.increments a.recording hb t ?_ ?_ (fun _ _ => rfl) (fun _ _ => rfl)
    fun p => ?_
  · intro x hx
    rw [hid, ho] at hx
    cases hx
    exact h.reservation.symm
  · intro id x hx hr
    exact (a.apart hx ho (hr.trans h.reservation)).trans hid.symm
  · rw [hid, ho, Option.elim_some, World.charge_eq hdeducted h.placement.lines]

theorem save (a : Accounted initial w) {o o' : Order} (ho : w.book.get? o.id = some o)
    (h : o.SameCharge o') : Accounted initial { w with book := w.book.store o' } :=
  a.store ho (h.withVersion (o'.version + 1)) rfl

/-- Releasing a reservation keeps the account: stock that goes back is charged no more. -/
theorem release (a : Accounted initial w) (id : ReservationId) :
    (Shop.onStock (Reservation.release id)).Yields World.answer (fun _ w' => Accounted initial w')
      w := by
  refine Shop.yields_onStock.2 ((Reservation.yields_release a.consistent a.increments id).mono ?_)
  intro _ l hreleased
  obtain ⟨-, habove⟩ := hreleased
  have c : l.Consistent :=
    (Ledger.consistent_withoutHold a.consistent id).of_eq habove.holds.symm habove.index.symm
      habove.deadlines.symm
  have increments : l.incrementsFail = false := habove.increments.symm.trans a.increments
  have hlisted : ∀ r, l.listed? r = if r = id then none else w.ledger.listed? r := by
    intro r
    rw [← habove.listed?_eq, Ledger.listed?_withoutHold a.consistent]
  have hstock : ∀ p, l.stockOf p =
      w.ledger.stockOf p + StockLine.quantityOf p (Reservation.heldLines w.ledger id) :=
    habove.stock
  cases hl : w.ledger.listed? id with
  | none =>
    refine a.of_ledger c increments (fun r => ?_) fun p => ?_
    · rw [hlisted]
      split
      · rw [‹r = id›, hl]
      · rfl
    · rw [hstock, Reservation.heldLines, hl, Option.elim_none, StockLine.quantityOf_nil]
      exact add_zero _
  | some h =>
    obtain ⟨b, o, ho, hr⟩ := a.owned hl
    obtain rfl := a.id_of_stored ho
    have t := a.tracks ho
    have hconfirmed := t.unprepared hr hl
    have hnone : l.listed? id = none := by rw [hlisted, if_pos rfl]
    refine a.step c increments a.recording (Table.insert_of_get? ho).symm ?_ ?_ ?_ ?_
      (fun _ _ => rfl) fun p => ?_
    · refine ⟨t.reserved, t.preparedOnce, fun hr' hl' => ?_, fun hr' hl' => ?_, t.prepared⟩
      · exact hconfirmed
      · cases hr.symm.trans hr'
        cases hnone.symm.trans hl'
    · intro x hx
      cases ho.symm.trans hx
      rfl
    · intro x o' hx hr'
      exact a.apart hx ho hr'
    · intro r hne
      rw [hlisted, if_neg]
      rintro rfl
      exact hne hr
    · rw [ho, Option.elim_some, World.charge_of_reservation a.consistent hr,
        World.charge_of_reservation c hr]
      simp only [hnone, hl, hconfirmed, hstock, Reservation.heldLines, Option.isSome_none,
        Option.isSome_some, Option.elim_some, Bool.false_and, Bool.or_false, Bool.false_eq_true,
        if_true, if_false, t.quantities hr hl p]
      omega

end Accounted

/-! ## Settling the stock of a paid order -/

/-- The account with a payment that was saved, but whose stock is still to be settled: it is the
account of the order before it was paid. -/
structure Unsettled (initial : ProductId → Int) (unpaid paid : Order) (w : World) : Prop where
  stored : w.book.get? paid.id = some paid
  placement : unpaid.SamePlacement paid
  reservation : paid.reservation = unpaid.reservation
  unconfirmed : unpaid.confirmedAt = none
  confirmed : paid.confirmedAt.isSome = true
  preparedOnce : paid.PreparedOnce
  before : Accounted initial
    { w with book := { w.book with orders := w.book.orders.insert paid.id unpaid } }

namespace Unsettled

variable {initial : ProductId → Int} {unpaid paid : Order} {w : World}

theorem publish (u : Unsettled initial unpaid paid w) (n : Notice) :
    Unsettled initial unpaid paid { w with outbox := w.outbox.publish n } :=
  { u with before := u.before.of_same rfl rfl rfl }

theorem record (u : Unsettled initial unpaid paid w) {e : AuditEntry}
    (he : e.tellsOfMissingHold = false) :
    Unsettled initial unpaid paid { w with trail := w.trail.record e } :=
  { u with before := u.before.record he }

/-- The hold of a paid order ends, and its stock stays charged. If there was none, the audit trail
says so, and nothing is charged, as before. -/
theorem settle (u : Unsettled initial unpaid paid w) {id : ReservationId}
    (hr : paid.reservation = some id) {e : AuditEntry} (he : e.order = paid.id)
    (htells : e.tellsOfMissingHold = true) :
    Accounted initial
      { w with
        ledger := w.ledger.withoutHold id
        trail := if (w.ledger.listed? id).isSome then w.trail else w.trail.record e } := by
  have a := u.before
  have c : w.ledger.Consistent := a.consistent
  have c' : (w.ledger.withoutHold id).Consistent := Ledger.consistent_withoutHold c id
  have hbefore : (w.book.orders.insert paid.id unpaid).get? paid.id = some unpaid :=
    Table.get?_insert_self ..
  have t := a.tracks hbefore
  have hnone : (w.ledger.withoutHold id).listed? id = none := by
    rw [Ledger.listed?_withoutHold c, if_pos rfl]
  have hrecording : w.trail.failing = false := a.recording
  have hfree : w.lacksHold paid.id = false := by
    rw [u.placement.id]
    refine Bool.eq_false_iff.2 fun hm => ?_
    have hconfirmed := t.prepared hm
    rw [u.unconfirmed] at hconfirmed
    cases hconfirmed
  generalize htrail : (if (w.ledger.listed? id).isSome then w.trail else w.trail.record e) = trail
  have hlacks : ∀ x,
      World.lacksHold { w with ledger := w.ledger.withoutHold id, trail := trail } x =
        (w.lacksHold x || (decide (paid.id = x) && !(w.ledger.listed? id).isSome)) := by
    intro x
    subst htrail
    cases w.ledger.listed? id <;>
      simp [World.lacksHold, AuditTrail.record, hrecording, he, htells]
  refine a.step (o := paid) c' a.increments ?_ ?_ ?_ ?_ ?_ ?_ ?_ ?_
  · subst htrail
    dsimp only
    split
    · exact hrecording
    · rw [AuditTrail.record, hrecording]
      rfl
  · exact ((Table.insert_insert ..).trans (Table.insert_of_get? u.stored)).symm
  · refine ⟨⟨id, hr⟩, u.preparedOnce, fun hr' hl' => ?_, fun hr' hl' => ?_,
      fun _ => u.confirmed⟩ <;>
    · cases hr.symm.trans hr'
      cases hnone.symm.trans hl'
  · intro x hx
    cases hbefore.symm.trans hx
    exact u.reservation.symm
  · intro x o hx hr'
    exact a.apart hx hbefore (hr'.trans u.reservation)
  · intro r hne
    refine (Ledger.listed?_withoutHold c r).trans (if_neg ?_)
    rintro rfl
    exact hne hr
  · intro x hx
    refine (hlacks x).trans ?_
    simp [Ne.symm hx, World.lacksHold]
  · intro p
    refine congrArg (w.ledger.stockOf p + ·) ?_
    rw [OrderBook.get?, hbefore, Option.elim_some, World.charge_of_reservation c' hr,
      World.charge_of_reservation a.consistent (u.reservation.symm.trans hr), hlacks, hfree,
      u.confirmed, u.unconfirmed, hnone, Notice.stockLines, u.placement.lines]
    cases w.ledger.listed? id <;> simp [Notice.stockLines]

end Unsettled

/-! ## Scripts that keep the account -/

/-- Run alone, the script keeps the account. -/
def KeepsAccount {α : Type} (initial : ProductId → Int) (p : Script Shop.calls α) : Prop :=
  ∀ ⦃w⦄, Accounted initial w → p.Yields World.answer (fun _ w' => Accounted initial w') w

namespace KeepsAccount

variable {α β : Type} {initial : ProductId → Int}

theorem done (a : α) : KeepsAccount initial (.done a) := fun _ h => h

theorem bind {p : Script Shop.calls α} {f : α → Script Shop.calls β} (hp : KeepsAccount initial p)
    (hf : ∀ a, KeepsAccount initial (f a)) : KeepsAccount initial (p >>= f) :=
  fun _ h => Script.yields_bind.2 ((hp h).mono fun a _ h => hf a h)

theorem goOn {ε : Type} {f : α → ExceptT ε (Script Shop.calls) β}
    (hf : ∀ a, KeepsAccount initial (f a).run) : (r : Except ε α) →
    KeepsAccount initial (Script.goOn f r)
  | .ok a => hf a
  | .error e => done (Except.error e)

theorem lift_bind {ε : Type} {p : Script Shop.calls α} {f : α → ExceptT ε (Script Shop.calls) β}
    (hp : KeepsAccount initial p) (hf : ∀ a, KeepsAccount initial (f a).run) :
    KeepsAccount initial ((liftM p : ExceptT ε (Script Shop.calls) α) >>= f).run :=
  fun _ h => Script.yields_run_lift.2 ((hp h).mono fun a _ h => hf a h)

theorem map {p : Script Shop.calls α} {f : α → β} (hp : KeepsAccount initial p) :
    KeepsAccount initial (f <$> p) := fun _ h => Script.yields_map.2 (hp h)

theorem now : KeepsAccount initial Shop.now := fun _ h => h

theorem publish (n : Notice) : KeepsAccount initial (Shop.publish n) :=
  fun _ h => h.of_same rfl rfl rfl

theorem publish? : (n : Option Notice) → KeepsAccount initial (Shop.publish? n)
  | none => done ()
  | some n => publish n

theorem record {e : AuditEntry} (he : e.tellsOfMissingHold = false) :
    KeepsAccount initial (Shop.record e) := fun _ h => h.record he

theorem release (id : ReservationId) :
    KeepsAccount initial (Shop.onStock (Reservation.release id)) := fun _ h => h.release id

end KeepsAccount
end Fulfilment
