import Fulfilment.Proofs.Service.Change
import Fulfilment.Proofs.Service.Failing

/-!
# Holds and orders agree

A hold is made for an order before the order is saved, and it is ended after the order was saved as
paid or called off. In between, while nobody else acts, every hold is that of one stored order that
awaits its payment (`World.Backs`). One way of calling an order off leaves its hold alone: when
another service tells that it could not reserve the stock.
-/
namespace Fulfilment

open Script Service Relation

variable {w w' : World} {o : Order} {h : Hold}

namespace World

/-- The order was cancelled for want of stock, as the audit trail tells. -/
def IsShort (w : World) (o : Order) : Prop :=
  o.status = .cancelled ∧ ∃ source t, o.cancelledAt = some t ∧
    { order := o.id, action := "InventoryReservationFailed", source := some source
      target := .cancelled, actor := Saga.actor, detail := o.failureReason
      recordedAt := t : AuditEntry } ∈ w.trail.entries

/-- The order can have a hold. -/
def MayHold (w : World) (o : Order) : Prop :=
  o.status = .confirmed ∨ o.status = .paymentPending ∨ w.IsShort o

/-- The hold is that of a stored order: it keeps what the order is for, as long as the order waits
for its payment. -/
structure Backs (w : World) (o : Order) (h : Hold) : Prop where
  stored : w.book.get? o.id = some o
  reservation : o.reservation = some h.id
  store : h.store = o.store
  lines : h.lines = StockLine.merge (Notice.stockLines o)
  expiresAt : o.expiresAt = some h.expiresAt
  mayHold : w.MayHold o

theorem MayHold.mono (hmay : w.MayHold o) (hsub : w.trail.entries ⊆ w'.trail.entries) :
    w'.MayHold o := by
  rcases hmay with hs | hs | ⟨hs, source, t, ht, hmem⟩
  · exact .inl hs
  · exact .inr (.inl hs)
  · exact .inr (.inr ⟨hs, source, t, ht, hsub hmem⟩)

/-- A hold stays that of its order as long as the order is stored as it is. -/
theorem Backs.mono (hb : w.Backs o h) (hstored : w'.book.get? o.id = some o)
    (hsub : w.trail.entries ⊆ w'.trail.entries) : w'.Backs o h :=
  { hb with stored := hstored, mayHold := hb.mayHold.mono hsub }

/-- Every listed hold is that of a stored order, and no two stored orders share a reservation. -/
structure Agreed (w : World) : Prop where
  consistent : w.ledger.Consistent
  increments : w.ledger.incrementsFail = false
  recording : w.trail.failing = false
  kept : w.book.WellKept
  single : ∀ {id id' x x' r}, w.book.get? id = some x → w.book.get? id' = some x' →
    x.reservation = some r → x'.reservation = some r → id = id'
  backed : ∀ {id h}, w.ledger.listed? id = some h → ∃ o, w.Backs o h

namespace Agreed

/-- Fewer holds do no harm, nor does anything but the orders and what is recorded. -/
theorem of_fewer (a : w.Agreed) (consistent : w'.ledger.Consistent)
    (increments : w'.ledger.incrementsFail = false)
    (listed : ∀ {id h}, w'.ledger.listed? id = some h → w.ledger.listed? id = some h)
    (orders : w'.book.orders = w.book.orders) (trail : w'.trail = w.trail) : w'.Agreed := by
  have hget : ∀ id, w'.book.get? id = w.book.get? id := fun id => by
    rw [OrderBook.get?, orders, OrderBook.get?]
  refine ⟨consistent, increments, trail ▸ a.recording, fun id o ho => ?_, ?_, fun hl => ?_⟩
  · rw [hget] at ho
    exact a.kept id o ho
  · intro id id' x x' r hx hx' hr hr'
    rw [hget] at hx hx'
    exact a.single hx hx' hr hr'
  · obtain ⟨o, ho⟩ := a.backed (listed hl)
    refine ⟨o, ho.mono ((hget _).trans ho.stored) ?_⟩
    rw [trail]
    exact List.Subset.refl _

/-- Storing an order keeps the agreement if no other order has its reservation, and its hold, if it
still has one, is made for it. -/
theorem store (a : w.Agreed) {x : Order} (consistent : w'.ledger.Consistent)
    (increments : w'.ledger.incrementsFail = false) (recording : w'.trail.failing = false)
    (kept : w'.book.WellKept) (entries : w.trail.entries ⊆ w'.trail.entries)
    (book : ∀ id, w'.book.get? id = if id = x.id then some x else w.book.get? id)
    (own : ∀ {id y r}, w.book.get? id = some y → y.reservation = some r →
      (x.reservation = some r ↔ id = x.id))
    (listed : ∀ {id h}, w'.ledger.listed? id = some h →
      w'.Backs x h ∨ w.ledger.listed? id = some h ∧ x.reservation ≠ some h.id) :
    w'.Agreed where
  consistent := consistent
  increments := increments
  recording := recording
  kept := kept
  single {id id' y y' r} hy hy' hr hr' := by
    rw [book] at hy hy'
    by_cases hid : id = x.id <;> by_cases hid' : id' = x.id
    · rw [hid, hid']
    · rw [if_pos hid] at hy
      rw [if_neg hid'] at hy'
      cases hy
      exact absurd ((own hy' hr').1 hr) hid'
    · rw [if_neg hid] at hy
      rw [if_pos hid'] at hy'
      cases hy'
      exact absurd ((own hy hr).1 hr') hid
    · rw [if_neg hid] at hy
      rw [if_neg hid'] at hy'
      exact a.single hy hy' hr hr'
  backed {id h} hl := by
    rcases listed hl with hx | ⟨hl, hother⟩
    · exact ⟨x, hx⟩
    · obtain ⟨y, hy⟩ := a.backed hl
      have hid : y.id ≠ x.id := fun hid => hother ((own hy.stored hy.reservation).2 hid)
      refine ⟨y, hy.mono ?_ entries⟩
      rw [book, if_neg hid]
      exact hy.stored

end Agreed
end World

/-! ## What follows a save -/

/-- The reservation that the follow-up ends. -/
def FollowUp.ended? : FollowUp → Option ReservationId
  | leave => none
  | settle id | release id => some id

/-- A follow-up ends the hold of its reservation and leaves all others. -/
theorem FollowUp.ledger_ends {l : Ledger} (c : l.Consistent) (hinc : l.incrementsFail = false)
    (f : FollowUp) (now : Instant) :
    (f.ledger now l).Consistent ∧ (f.ledger now l).incrementsFail = false ∧
      ∀ id, (f.ledger now l).listed? id = if f.ended? = some id then none else l.listed? id := by
  cases f with
  | leave => exact ⟨c, hinc, fun id => rfl⟩
  | settle r =>
    have hrun : (FollowUp.settle r).ledger now l = l.withoutHold r :=
      (Reservation.yields_settle c r).2
    rw [hrun]
    refine ⟨Ledger.consistent_withoutHold c r, hinc, fun id => ?_⟩
    rw [Ledger.listed?_withoutHold c]
    simp [FollowUp.ended?, eq_comm]
  | release r =>
    have hrun : ((FollowUp.release r).ledger now l).Above (l.withoutHold r) _ :=
      (Reservation.yields_release c hinc r).2
    refine ⟨?_, hrun.increments.symm.trans hinc, fun id => ?_⟩
    · exact (Ledger.consistent_withoutHold c r).of_eq hrun.holds.symm hrun.index.symm
        hrun.deadlines.symm
    · rw [← hrun.listed?_eq, Ledger.listed?_withoutHold c]
      simp [FollowUp.ended?, eq_comm]

/-! ## Orders that move on -/

namespace Service

variable {now : Instant} {c : Changed} {r : ReservationId}

theorem ended?_releasing (hr : o.reservation = some r) :
    (Reaction.releasing o).ended? = some r := by
  rw [Reaction.releasing, hr]
  rfl

theorem ended?_settling (hr : o.reservation = some r) :
    (Reaction.settling o).ended? = some r := by
  rw [Reaction.settling, hr]
  rfl

/-- Where a move can lead an order that keeps its hold: to its payment, or to its cancellation for
want of stock. -/
theorem Moves.mayHold (m : Moves now o c) (hr : o.reservation = some r)
    (hs : o.status = .confirmed ∨ o.status = .paymentPending ∨ o.status = .cancelled)
    (hkeeps : c.followUp.ended? ≠ some r) :
    c.order.status = .paymentPending ∨
      c.order.status = .cancelled ∧ c.order.cancelledAt = some now ∧ ∃ source,
        { order := c.order.id, action := "InventoryReservationFailed", source := some source
          target := .cancelled, actor := Saga.actor, detail := c.order.failureReason
          recordedAt := now : AuditEntry } ∈ c.entries := by
  have hreservation := m.reservation.trans hr
  cases m with
  | cancelled | timedOut => exact absurd (ended?_releasing hreservation) hkeeps
  | refunded _ _ _ _ accepted =>
    obtain ⟨e, he, -, -⟩ := Order.accepts_of_transition accepted
    cases he with
    | refund _ _ hdelivered => simp [hdelivered] at hs
  | requested request accepted =>
    obtain ⟨e, he, rfl, -⟩ := Order.accepts_of_transition accepted
    cases request with
    | linkPayment payment =>
      cases he
      exact .inl rfl
    | ship | deliver | completeRefund =>
      cases he
      simp_all
  | @reacted s a reacts =>
    have hfollowUp := Order.followUp_of_react reacts
    cases s with
    | inventoryReserved =>
      have hcreated : o.status = .created := (Order.of_react reacts).1
      simp [hcreated] at hs
    | inventoryReservationFailed =>
      rcases Order.react_cases reacts with ⟨act, t, hact, ht, hts, -⟩ | ⟨payment, -, hsettles⟩
      · obtain ⟨e, he, hnext, rfl⟩ := Order.accepts_of_transition ht
        rcases hact with rfl | ⟨reason, rfl⟩
        · cases he with
          | confirm hcreated => simp [hcreated] at hs
        · cases he
          refine .inr ⟨congrArg Order.status hnext, congrArg Order.cancelledAt hnext, o.status, ?_⟩
          rw [hts, hnext]
          exact List.mem_singleton_self _
      · rw [hsettles] at hkeeps
        exact absurd (ended?_settling hreservation) hkeeps
    | paymentCompleted =>
      rw [hfollowUp] at hkeeps
      exact absurd (ended?_settling hreservation) hkeeps
    | paymentFailed | paymentCancelled | paymentCompensation =>
      rw [hfollowUp] at hkeeps
      exact absurd (ended?_releasing hr) hkeeps

end Service

/-- A hold that is not ended stays that of its order when the order moves on. -/
theorem World.Backs.moved (hb : w.Backs o h) {c : Changed} (moves : Moves w.clock o c)
    (hkeeps : c.followUp.ended? ≠ some h.id) (hrecording : w.trail.failing = false) :
    (w.store c).Backs { c.order with version := c.order.version + 1 } h := by
  have hplacement := moves.samePlacement
  have hstatus : o.status = .confirmed ∨ o.status = .paymentPending ∨ o.status = .cancelled :=
    hb.mayHold.imp_right (Or.imp_right And.left)
  have hentries : (w.store c).trail.entries =
      w.trail.entries ++ (c.entries ++ c.followUp.findings c.order w.clock w.ledger) :=
    (AuditTrail.recordAll_of_recording hrecording _).2
  have hmay : (w.store c).MayHold { c.order with version := c.order.version + 1 } := by
    rcases moves.mayHold hb.reservation hstatus hkeeps with hs | ⟨hs, ht, source, hmem⟩
    · exact .inr (.inl hs)
    · refine .inr (.inr ⟨hs, source, w.clock, ht, ?_⟩)
      rw [hentries]
      exact List.mem_append_right _ (List.mem_append_left _ hmem)
  exact
    { stored := (OrderBook.get?_store ..).trans (if_pos rfl)
      reservation := moves.reservation.trans hb.reservation
      store := hb.store.trans hplacement.store.symm
      lines := by rw [hb.lines, Notice.stockLines, Notice.stockLines, hplacement.lines]
      expiresAt := moves.expiresAt.trans hb.expiresAt
      mayHold := hmay }

/-- An order that moves on keeps the agreement. -/
theorem World.Agreed.step (a : w.Agreed) (hstep : w.Step w') : w'.Agreed := by
  have hkept := hstep.wellKept a.kept
  cases hstep with
  | @moved o c stored moves accepted =>
    obtain ⟨hconsistent, hincrements, hlisted⟩ :=
      c.followUp.ledger_ends a.consistent a.increments w.clock
    obtain ⟨hrecording, hentries⟩ := AuditTrail.recordAll_of_recording a.recording
      (c.entries ++ c.followUp.findings c.order w.clock w.ledger)
    have hid : c.order.id = o.id := moves.samePlacement.id
    have hsub : w.trail.entries ⊆ (w.store c).trail.entries := by
      rw [World.store, hentries]
      exact List.subset_append_left _ _
    refine a.store (x := { c.order with version := c.order.version + 1 }) hconsistent hincrements
      hrecording hkept hsub (OrderBook.get?_store w.book c.order) ?_ ?_
    · intro id y r hy hr
      show c.order.reservation = some r ↔ id = c.order.id
      rw [moves.reservation, hid]
      refine ⟨fun ho => a.single hy stored hr ho, ?_⟩
      rintro rfl
      rw [stored] at hy
      cases hy
      exact hr
    · intro id h hl
      have hl : (c.followUp.ledger w.clock w.ledger).listed? id = some h := hl
      rw [hlisted] at hl
      split at hl
      · cases hl
      · next hnot =>
        obtain ⟨rfl, -⟩ := (a.consistent.listed?_eq_some_iff).1 hl
        -- A hold that is left is that of the order that moved, or of an order that did not.
        by_cases hown : c.order.reservation = some h.id
        · obtain ⟨y, hy⟩ := a.backed hl
          have hsame := a.single hy.stored stored hy.reservation (moves.reservation.symm.trans hown)
          have hstored := hy.stored
          rw [hsame, stored] at hstored
          cases hstored
          exact .inl (hy.moved moves hnot a.recording)
        · exact .inr ⟨hl, hown⟩

/-! ## New orders -/

/-- The reservation that is drawn for a new order is not that of a stored order. -/
def Service.Draw.IsFresh (draw : Draw) (w : World) : Prop :=
  ∀ o ∈ w.book.orders.values, o.reservation ≠ some draw.reservation

instance (draw : Draw) (w : World) : Decidable (draw.IsFresh w) :=
  inferInstanceAs (Decidable (∀ o ∈ w.book.orders.values, o.reservation ≠ some draw.reservation))

theorem World.Agreed.unknown (a : w.Agreed) {draw : Draw} (hfresh : draw.IsFresh w) :
    w.ledger.Unknown draw.reservation := by
  refine a.consistent.unknown (Option.eq_none_iff_forall_ne_some.2 fun h hl => ?_)
  obtain ⟨o, ho⟩ := a.backed hl
  refine hfresh o (Table.mem_values ho.stored) (ho.reservation.trans ?_)
  rw [(a.consistent.listed?_eq_some_iff.1 hl).1]

/-- Storing a new order with the hold that was made for it keeps the agreement. -/
theorem World.Agreed.created (a : w.Agreed) {deadline : Instant} {r : CreateRequest}
    {draw : Draw} (hfresh : draw.IsFresh w) {k : Ledger}
    (hh : h = ⟨draw.reservation, r.store, StockLine.merge r.stockLines, w.clock, deadline⟩)
    (hk : w.ledger.Drawn k h.lines) (keys : RequestKeys)
    (accepted : w.book.objection (r.reserved draw h w.clock) = none) :
    World.Agreed
      { ({ w with ledger := k.withHold h } : World).store (r.creation draw h w.clock) with
        keys } := by
  subst hh
  have hunlisted : k.listed? draw.reservation = none := by
    rw [hk.listed?_eq, Ledger.listed?, (a.unknown hfresh).deadlines]
    rfl
  have hnew : w.book.get? draw.order = none := OrderBook.get?_eq_none_of_new accepted rfl
  have hrecord := AuditTrail.recordAll_of_recording a.recording
  refine a.store (x := { r.reserved draw _ w.clock with version := 1 })
    (Ledger.consistent_withHold (hk.consistent a.consistent) hunlisted)
    (hk.increments.trans a.increments) (hrecord _).1 (a.kept.store (Int.le_refl 0)) ?_
    (OrderBook.get?_store w.book _) ?_ ?_
  · rw [World.store, (hrecord _).2]
    exact List.subset_append_left _ _
  · intro id y r' hy hr'
    refine ⟨fun hown => ?_, fun hid => ?_⟩
    · exact absurd (hr'.trans hown.symm) (hfresh y (Table.mem_values hy))
    · have hid : id = draw.order := hid
      rw [hid, hnew] at hy
      cases hy
  · intro id x hl
    have hl : (k.withHold _).listed? id = some x := hl
    rw [Ledger.listed?_withHold (hk.consistent a.consistent) hunlisted] at hl
    split at hl
    · cases hl
      exact .inl ⟨(OrderBook.get?_store ..).trans (if_pos rfl), rfl, rfl, rfl, rfl, .inl rfl⟩
    · next hid =>
      rw [hk.listed?_eq] at hl
      obtain ⟨rfl, -⟩ := a.consistent.listed?_eq_some_iff.1 hl
      exact .inr ⟨hl, fun hown => hid (Option.some.inj hown).symm⟩

/-- A request for a new order keeps the agreement. -/
theorem World.Agreed.creates (a : w.Agreed) {budget : RetryBudget} {ttl : Span} {r : CreateRequest}
    {draw : Draw} (hfresh : draw.IsFresh w) (hcreates : Creates budget ttl r draw w w') :
    w'.Agreed := by
  have hid := a.unknown hfresh
  have hreserve : (Reservation.reserve budget r.store r.stockLines draw.reservation ttl).Yields
      (Stock.answer w.clock) _ w.ledger :=
    Reservation.yields_reserve_of_unknown hid a.increments budget r.store r.stockLines ttl
  have same : ∀ {l : Ledger} {ls : List StockLine} (keys : RequestKeys), w.ledger.Drawn l ls →
      ({ w with ledger := l, keys } : World).Agreed := fun keys hl =>
    a.of_fewer (hl.consistent a.consistent) (hl.increments.trans a.increments)
      (fun hlisted => by rwa [← hl.listed?_eq]) rfl rfl
  cases hcreates with
  | refused keys => exact same keys (.refl _)
  | unreserved keys reserves =>
    rw [Yields, ← CreateRequest.reserve, reserves] at hreserve
    exact same keys hreserve
  | stopped keys reserves =>
    rw [Yields, ← CreateRequest.reserve, reserves] at hreserve
    exact same keys hreserve.2
  | unsaved keys reserves =>
    rw [Yields, ← CreateRequest.reserve, reserves] at hreserve
    obtain ⟨deadline, -, rfl, k, hk, rfl⟩ := hreserve
    exact same keys (Reservation.yields_release_of_unknown hid a.increments hk).2
  | created keys placeable reserves accepted =>
    rw [Yields, ← CreateRequest.reserve, reserves] at hreserve
    obtain ⟨deadline, -, hh, k, hk, rfl⟩ := hreserve
    exact a.created hfresh hh hk keys accepted

/-! ## Everything that happens to a shop -/

theorem World.Agreed.command (a : w.Agreed) {c : Command}
    (hfresh : ∀ budget ttl r draw, c = .create budget ttl r draw → draw.IsFresh w) :
    (c.script .direct).Yields World.answer (fun _ w' => w'.Agreed) w := by
  have steps : ∀ {w'}, ReflTransGen World.Step w w' → w'.Agreed := fun hsteps => by
    induction hsteps with
    | refl => exact a
    | tail _ hstep ih => exact ih.step hstep
  refine (Command.yields_effects a.kept c).mono fun _ w' heffects => ?_
  cases c with
  | create budget ttl r draw => exact a.creates (hfresh _ _ _ _ rfl) heffects
  | _ => exact steps heffects

namespace Service.Deed

/-- Reservations are drawn afresh. -/
def IsFresh : Deed → World → Prop
  | command (.create _ _ _ draw), w => draw.IsFresh w
  | _, _ => True

end Service.Deed

namespace World

/-- Every reservation is fresh when it is drawn. -/
def DrawsFresh : World → List Deed → Prop
  | _, [] => True
  | w, d :: ds => d.IsFresh w ∧ (d.perform w).DrawsFresh ds

/-- There are no orders and no holds yet, and giving back and recording work. -/
structure Vacant (w : World) : Prop where
  orders : w.book.orders = ∅
  holds : w.ledger.holds = ∅
  index : w.ledger.index = ∅
  deadlines : w.ledger.deadlines = ∅
  increments : w.ledger.incrementsFail = false
  recording : w.trail.failing = false

theorem Vacant.agreed (h : w.Vacant) : w.Agreed where
  consistent := Ledger.consistent_of_empty h.holds h.index h.deadlines
  increments := h.increments
  recording := h.recording
  kept := OrderBook.wellKept_of_empty h.orders
  single hx := by simp [OrderBook.get?, h.orders] at hx
  backed hl := by simp [Ledger.listed?, h.deadlines] at hl

namespace Agreed

/-- Every deed keeps the agreement. -/
theorem perform (a : w.Agreed) {d : Deed} (hfresh : d.IsFresh w) : (d.perform w).Agreed := by
  cases d with
  | command c =>
    refine a.command ?_
    rintro budget ttl r draw rfl
    exact hfresh
  | sweep batch =>
    refine Ledger.sweep_keeps (motive := fun l => Agreed { w with ledger := l }) ?_ batch a
    intro l id a'
    obtain ⟨hconsistent, hincrements, hlisted⟩ :=
      (FollowUp.release id).ledger_ends a'.consistent a'.increments w.clock
    refine a'.of_fewer hconsistent hincrements (fun {r h} hl => ?_) rfl rfl
    have hl : ((FollowUp.release id).ledger w.clock l).listed? r = some h := hl
    rw [hlisted] at hl
    split at hl
    · cases hl
    · exact hl
  | evict => exact a.of_fewer (a.consistent.evict _) a.increments id rfl rfl
  | openStore | closeStore | forceConflicts =>
    exact a.of_fewer (a.consistent.of_eq rfl rfl rfl) a.increments id rfl rfl
  | setClock | failSaves | failPublishing | failClaims =>
    exact a.of_fewer a.consistent a.increments id rfl rfl

theorem after {ds : List Deed} (a : w.Agreed) (hfresh : w.DrawsFresh ds) :
    (w.after ds).Agreed := by
  induction ds generalizing w with
  | nil => exact a
  | cons d ds ih => exact ih (a.perform hfresh.1) hfresh.2

/-- An entry of the index is the hold of the one order that has its reservation. -/
theorem backs_of_index (a : w.Agreed) {e : Expiry} (hindex : w.ledger.index.get? e = some h) :
    h.expiry = e ∧ ∃ o, w.Backs o h ∧
      ∀ id o', w.book.get? id = some o' → o'.reservation = some h.id → id = o.id ∧ o' = o := by
  have hexpiry := a.consistent.expiry_eq hindex
  subst hexpiry
  obtain ⟨o, ho⟩ := a.backed (a.consistent.listed?_eq_some_iff.2 ⟨rfl, hindex⟩)
  refine ⟨rfl, o, ho, fun id o' ho' hr => ?_⟩
  obtain rfl := a.single ho' ho.stored hr ho.reservation
  exact ⟨rfl, Option.some.inj (ho'.symm.trans ho.stored)⟩

theorem index_of_failed_creation (a : w.Agreed) {draw : Draw} (hfresh : draw.IsFresh w)
    (budget : RetryBudget) (ttl : Span) (r : CreateRequest) :
    ((Command.create budget ttl r draw).script .direct).Yields World.answer
      (fun answer w' => answer.isError = true →
        ∀ t, w'.ledger.index.get? ⟨t, draw.reservation⟩ = none) w := by
  have hid := a.unknown hfresh
  have hfails := yields_command (c := .create budget ttl r draw) a.increments .direct hid
  refine hfails.mono fun answer w' huntouched hfailed t => ?_
  rw [(huntouched hfailed).ledger.index]
  exact hid.index t

end Agreed
end World

/-- **Holds and orders agree.** Whatever happens to a shop that began without orders and holds, and
that draws its reservations afresh, every entry of the index by deadline is the hold of one stored
order, and of no other: it keeps the stock of that order's lines in its store until its deadline,
and the order awaits its payment or was cancelled for want of stock, as the audit trail tells. No
order that went any other way has a hold left, nor does a creation that failed. -/
theorem holds_agree_with_orders {w : World} (h : w.Vacant) {ds : List Deed}
    (hfresh : w.DrawsFresh ds) :
    (∀ e held, (w.after ds).ledger.index.get? e = some held → held.expiry = e ∧
      ∃ o, (w.after ds).Backs o held ∧
        ∀ id o', (w.after ds).book.get? id = some o' → o'.reservation = some held.id →
          id = o.id ∧ o' = o) ∧
      (∀ id o r t, (w.after ds).book.get? id = some o → o.reservation = some r →
        ¬ (w.after ds).MayHold o → (w.after ds).ledger.index.get? ⟨t, r⟩ = none) ∧
      ∀ budget ttl r draw, draw.IsFresh (w.after ds) →
        ((Command.create budget ttl r draw).script .direct).Yields World.answer
          (fun answer w' => answer.isError = true →
            ∀ t, w'.ledger.index.get? ⟨t, draw.reservation⟩ = none) (w.after ds) := by
  have a := h.agreed.after hfresh
  refine ⟨fun e held => a.backs_of_index, fun id o r t ho hr hnot => ?_, fun budget ttl r draw hd =>
    a.index_of_failed_creation hd budget ttl r⟩
  refine Option.eq_none_iff_forall_ne_some.2 fun held hindex => ?_
  obtain ⟨hexpiry, o', ho', hsingle⟩ := a.backs_of_index hindex
  have hid : held.id = r := congrArg Expiry.id hexpiry
  obtain ⟨-, rfl⟩ := hsingle id o ho (hr.trans (congrArg some hid.symm))
  exact hnot ho'.mayHold

/-- Two orders of two widgets each. For the first, another service tells that it could not reserve
the stock; the second is paid. From then on nothing can be saved. -/
def shortSales : List Deed :=
  [.command (.create (.ofNat 10) (.ofMinutes 15) twoWidgets ⟨⟨.ofNat 2⟩, ⟨"first"⟩, 0⟩),
    .command (.create (.ofNat 10) (.ofMinutes 15) { twoWidgets with key := "second" }
      ⟨⟨.ofNat 3⟩, ⟨"second"⟩, 1⟩),
    .command (.handle Saga.defaultRetries
      (.inventoryReservationFailed ⟨.ofNat 2⟩ [] "none left" widgetShop.clock)),
    .command (.handle Saga.defaultRetries
      (.paymentCompleted ⟨.ofNat 3⟩ ⟨"payment"⟩ ⟨200⟩ widgetShop.clock)),
    .failSaves true]

def reorderWidgets : Command :=
  .create (.ofNat 10) (.ofMinutes 15) { twoWidgets with key := "third" }
    ⟨⟨.ofNat 4⟩, ⟨"third"⟩, 2⟩

/-- The first order keeps its hold, the second has none left, and a third that cannot be saved
leaves none. -/
theorem short_widgets_are_held :
    let w := widgetShop.after shortSales
    widgetShop.Vacant ∧ widgetShop.DrawsFresh shortSales ∧
      (∃ held o, w.ledger.index.get? ⟨Instant.ofSecond 900, ⟨"first"⟩⟩ = some held ∧
        w.Backs o held ∧ w.IsShort o) ∧
      (∀ t, w.ledger.index.get? ⟨t, ⟨"second"⟩⟩ = none) ∧
      ∀ t, ((reorderWidgets.script .direct).run World.answer w).2.ledger.index.get?
        ⟨t, ⟨"third"⟩⟩ = none := by
  have hvacant : widgetShop.Vacant := ⟨rfl, rfl, rfl, rfl, rfl, rfl⟩
  have hfirst : Draw.IsFresh ⟨⟨.ofNat 2⟩, ⟨"first"⟩, 0⟩ widgetShop := by decide +kernel
  have hsecond : Draw.IsFresh ⟨⟨.ofNat 3⟩, ⟨"second"⟩, 1⟩
      (widgetShop.after (shortSales.take 1)) := by decide +kernel
  have hfresh : widgetShop.DrawsFresh shortSales :=
    ⟨hfirst, hsecond, trivial, trivial, trivial, trivial⟩
  have hthird : Draw.IsFresh ⟨⟨.ofNat 4⟩, ⟨"third"⟩, 2⟩ (widgetShop.after shortSales) := by
    decide +kernel
  have hfailed : ((reorderWidgets.script .direct).run World.answer
      (widgetShop.after shortSales)).1.isError = true := by decide +kernel
  have hindex : ((widgetShop.after shortSales).ledger.index.get?
      ⟨Instant.ofSecond 900, ⟨"first"⟩⟩).isSome = true := by decide +kernel
  have hcancelled : ((widgetShop.after shortSales).book.get? ⟨.ofNat 2⟩).map
      (fun o => (o.status, o.reservation)) = some (.cancelled, some ⟨"first"⟩) := by
    decide +kernel
  have hpaid : ((widgetShop.after shortSales).book.get? ⟨.ofNat 3⟩).map
      (fun o => (o.status, o.reservation)) = some (.preparing, some ⟨"second"⟩) := by
    decide +kernel
  obtain ⟨hbacks, hnone, hleft⟩ := holds_agree_with_orders hvacant hfresh
  obtain ⟨held, hindex⟩ := Option.isSome_iff_exists.1 hindex
  obtain ⟨first, hfirst, hshort⟩ := Option.map_eq_some_iff.1 hcancelled
  obtain ⟨second, hsecond, hprepared⟩ := Option.map_eq_some_iff.1 hpaid
  obtain ⟨hexpiry, o, ho, hone⟩ := hbacks _ held hindex
  obtain ⟨hstatus, hreservation⟩ := Prod.mk.inj hshort
  have hid : held.id = ⟨"first"⟩ := congrArg Expiry.id hexpiry
  obtain ⟨-, rfl⟩ := hone _ first hfirst (hreservation.trans (congrArg some hid.symm))
  refine ⟨hvacant, hfresh, ⟨held, first, hindex, ho, ?_⟩, fun t => ?_, hleft _ _ _ _ hthird hfailed⟩
  · rcases ho.mayHold with hs | hs | hs
    · rw [hs] at hstatus
      cases hstatus
    · rw [hs] at hstatus
      cases hstatus
    · exact hs
  · obtain ⟨hstatus, hreservation⟩ := Prod.mk.inj hprepared
    refine hnone _ second _ t hsecond hreservation ?_
    simp [World.MayHold, World.IsShort, hstatus]

end Fulfilment
