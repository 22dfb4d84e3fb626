import Fulfilment.Proofs.Order.Total
import Fulfilment.Proofs.Service.Change

/-!
# What is published

Creations, cancellations, refunds, signals and time-outs each publish on their own what they did.
Read for one order, the notices nevertheless mirror what is stored of it (`Order.Announced`): it was
created with its stock, and then nothing, or that it was called off, or that its refund was asked
for, whichever its status says. An order that is created in the shop is confirmed from the start, so
no signal confirms it again, and no status is reached twice, so nothing is told twice.
-/
namespace Fulfilment

open Script Operation Relation Service

/-- The money for the order is to be given back, or has been. -/
def Status.isRefund : Status → Bool
  | refundProcessing | refundCompleted => true
  | _ => false

namespace Outbox

theorem publishAll_of_publishing {b : Outbox} (hb : b.failing = false) (ns : List Notice) :
    (b.publishAll ns).failing = false ∧ (b.publishAll ns).notices = b.notices ++ ns := by
  induction ns generalizing b with
  | nil => exact ⟨hb, (List.append_nil _).symm⟩
  | cons n ns ih =>
    have hpublish : b.publish n = { b with notices := b.notices ++ [n] } := by
      simp [Outbox.publish, hb]
    obtain ⟨hfailing, hnotices⟩ := ih (b := b.publish n) (by rw [hpublish]; exact hb)
    refine ⟨hfailing, hnotices.trans ?_⟩
    rw [hpublish, List.append_assoc, List.singleton_append]

/-- Notices that are all of one order are published about it and about no other. -/
theorem about_publishAll_of {b : Outbox} (hb : b.failing = false) {ns : List Notice} {own : OrderId}
    (hown : ∀ n ∈ ns, n.order = own) (id : OrderId) :
    (b.publishAll ns).about id = if own = id then b.about id ++ ns else b.about id := by
  rw [about, (publishAll_of_publishing hb ns).2, List.filter_append, ← about]
  by_cases hid : own = id
  · subst hid
    rw [if_pos rfl, List.filter_eq_self.2 (by simpa using hown)]
  · have hother : ∀ n ∈ ns, ¬ n.order = id := by
      intro n hn heq
      exact hid ((hown n hn).symm.trans heq)
    rw [if_neg hid, List.filter_eq_nil_iff.2 (by simpa using hother), List.append_nil]

end Outbox

/-! ## What is told of one order -/

namespace Order

/-- What has been told of an order since its creation. -/
inductive Told (o : Order) : List Notice → Prop where
  | nothing (standing : o.status.isCalledOff = false) (kept : o.status.isRefund = false) : Told o []
  | calledOff {instant : Instant} (off : o.status.isCalledOff = true)
      (stored : o.cancelledAt = some instant) (reason : String) (restoreStock : Bool) :
      Told o [.cancelled o reason restoreStock instant]
  | refunded {refund : RefundId} {reason : String} (back : o.status.isRefund = true)
      (requested : o.refund = some refund) (because : o.refundReason = some reason)
      (instant : Instant) :
      Told o [.orderRefunded o.id refund o.totalAmount reason instant]

/-- All that has been told of an order that was created in the shop. -/
structure Announced (o : Order) (ns : List Notice) : Prop where
  confirmed : o.status ≠ .created
  placeable : placementObjection o.lines = none
  told : ∃ reserved later, Notice.reserved? o = some reserved ∧ o.Told later ∧
    ns = .created o :: reserved :: later

variable {o next : Order} {ns : List Notice}

/-- Nothing has been told of an order before its refund is asked for, unless it was called off. -/
theorem Told.eq_nil (h : o.Told ns) (hrank : o.status.rank < Status.refundProcessing.rank) :
    ns = [] := by
  have hnot : o.status.isCalledOff = false ∧ o.status.isRefund = false := by
    revert hrank
    cases o.status <;> decide
  cases h with
  | nothing => rfl
  | calledOff off =>
    rw [hnot.1] at off
    cases off
  | refunded back =>
    rw [hnot.2] at back
    cases back

/-- What has been told of an order whose refund was asked for is all when the refund is completed.
-/
theorem Told.completed (h : o.Told ns) (hstatus : o.status = .refundProcessing) (refund : RefundId)
    (now : Instant) : (o.apply (.refundCompleted refund now)).Told ns := by
  cases h with
  | nothing _ kept =>
    rw [hstatus] at kept
    cases kept
  | calledOff off =>
    rw [hstatus] at off
    cases off
  | refunded _ requested because instant =>
    exact Told.refunded (o := o.apply (.refundCompleted _ now)) rfl requested because instant

theorem Told.withVersion (h : o.Told ns) (version : Int) : Told { o with version } ns := by
  cases h with
  | nothing standing kept => exact .nothing standing kept
  | calledOff off stored reason restoreStock =>
    exact Told.calledOff (o := { o with version }) off stored reason restoreStock
  | refunded back requested because instant =>
    exact Told.refunded (o := { o with version }) back requested because instant

theorem Announced.withVersion (h : o.Announced ns) (version : Int) :
    Announced { o with version } ns := by
  obtain ⟨hconfirmed, hplaceable, reserved, later, hreserved, htold, rfl⟩ := h
  exact ⟨hconfirmed, hplaceable, reserved, later, hreserved, htold.withVersion version, rfl⟩

theorem created_eq (h : o.SamePlacement next) : Notice.created next = .created o := by
  simp only [Notice.created, totalAmount, h.id, h.number, h.user, h.store, h.lines, h.createdAt]

theorem reserved?_eq (h : o.SamePlacement next) (hreservation : next.reservation = o.reservation)
    (hexpires : next.expiresAt = o.expiresAt) : Notice.reserved? next = Notice.reserved? o := by
  simp only [Notice.reserved?, Notice.stockLines, hreservation, hexpires, h.id, h.store, h.lines]

end Order

namespace Service

variable {now : Instant} {o : Order} {c : Changed} {ns : List Notice}

theorem Moves.order_of_mem_notices (h : Moves now o c) {n : Notice} (hn : n ∈ c.notices) :
    n.order = c.order.id := by
  cases h with
  | cancelled | timedOut =>
    rw [List.mem_singleton.1 hn]
    rfl
  | refunded =>
    obtain ⟨refund, -, rfl⟩ := Option.map_eq_some_iff.1 (Option.mem_toList.1 hn)
    rfl
  | requested => cases hn
  | @reacted s a reacts =>
    have hnotice := Order.notice_of_react reacts
    have hn := Option.mem_toList.1 hn
    dsimp only at hn ⊢
    rw [hn] at hnotice
    cases s <;> cases hnotice <;> rfl

/-- What is told of a move goes with what was told before. -/
theorem Moves.told (h : Moves now o c) (hconfirmed : o.status ≠ .created) (htold : o.Told ns) :
    c.order.Told (ns ++ c.notices) := by
  cases h with
  | cancelled user stated released permitted accepted =>
    obtain ⟨e, he, rfl, -⟩ := Order.accepts_of_transition accepted
    cases he with
    | cancel _ hstatus =>
      have hrank := (Action.cancel_allowedIn_iff _ _).1 hstatus
      rw [htold.eq_nil (Nat.lt_trans hrank (by decide))]
      exact .calledOff rfl rfl _ _
  | refunded user stated refund permitted accepted =>
    obtain ⟨e, he, rfl, -⟩ := Order.accepts_of_transition accepted
    cases he with
    | refund _ _ hstatus =>
      rw [htold.eq_nil (by rw [hstatus]; decide)]
      exact .refunded rfl rfl rfl _
  | requested request accepted =>
    obtain ⟨e, he, rfl, -⟩ := Order.accepts_of_transition accepted
    have silent : ∀ {x : Order}, o.status.rank < Status.refundProcessing.rank →
        x.status.isCalledOff = false → x.status.isRefund = false → x.Told (ns ++ []) := by
      intro x hrank standing kept
      rw [htold.eq_nil hrank]
      exact .nothing standing kept
    cases request with
    | linkPayment =>
      cases he with
      | linkPayment _ hstatus => exact silent (by rw [hstatus]; decide) rfl rfl
    | ship =>
      cases he with
      | ship hstatus => exact silent (by rw [hstatus]; decide) rfl rfl
    | deliver =>
      cases he with
      | deliver hstatus => exact silent (by rw [hstatus]; decide) rfl rfl
    | completeRefund =>
      cases he with
      | completeRefund refund hstatus =>
        rw [List.append_nil]
        exact htold.completed hstatus refund now
  | timedOut overdue accepted =>
    obtain ⟨e, he, rfl, -⟩ := Order.accepts_of_transition accepted
    cases he with
    | timeOut hstatus =>
      rw [htold.eq_nil (by revert hstatus; cases o.status <;> decide)]
      exact .calledOff rfl rfl _ _
  | @reacted s a reacts =>
    cases s with
    | inventoryReserved => exact absurd (Order.of_react reacts).1 hconfirmed
    | paymentCompleted =>
      obtain ⟨next, ts, hts, rfl⟩ := Reaction.of_pay reacts
      obtain ⟨hearly, hstatus, -⟩ := Order.confirmedAt_of_paymentActions hts
      rw [htold.eq_nil (by revert hearly; cases o.status <;> decide)]
      exact .nothing (by rw [hstatus]; rfl) (by rw [hstatus]; rfl)
    | inventoryReservationFailed | paymentFailed | paymentCancelled | paymentCompensation =>
      obtain ⟨next, t, ht, rfl⟩ := Reaction.of_cancel reacts
      obtain ⟨e, he, rfl, -⟩ := Order.accepts_of_transition ht
      cases he with
      | cancel _ hstatus =>
        have hrank := (Action.cancel_allowedIn_iff _ _).1 hstatus
        rw [htold.eq_nil (Nat.lt_trans hrank (by decide))]
        exact .calledOff rfl rfl _ _

/-- A move keeps what was told of an order complete. -/
theorem Moves.announced (h : Moves now o c) (ha : o.Announced ns) :
    c.order.Announced (ns ++ c.notices) := by
  obtain ⟨hconfirmed, hplaceable, reserved, later, hreserved, htold, rfl⟩ := ha
  refine ⟨?_, ?_, reserved, later ++ c.notices, ?_, h.told hconfirmed htold, ?_⟩
  · refine h.keeps (motive := fun x => x.status ≠ .created) (fun _ ht _ hcreated => ?_) hconfirmed
    have hrank := Order.rank_lt_of_transition ht
    rw [hcreated] at hrank
    exact Nat.not_lt_zero _ hrank
  · rw [h.samePlacement.lines]
    exact hplaceable
  · rw [Order.reserved?_eq h.samePlacement h.reservation h.expiresAt, hreserved]
  · rw [Order.created_eq h.samePlacement]
    rfl

end Service

/-! ## The outbox -/

variable {w w' : World} {id : OrderId} {o : Order}

/-- The notices about an order are all that is to be told of it: nothing while it is not stored. -/
structure World.Mirrors (w : World) (id : OrderId) : Prop where
  kept : w.book.WellKept
  publishing : w.outbox.failing = false
  silent : w.book.get? id = none → w.outbox.about id = []
  announced : ∀ {o}, w.book.get? id = some o → o.Announced (w.outbox.about id)

namespace World.Mirrors

/-- The outbox goes on mirroring if what is published of a stored order completes what has been
published about it. -/
theorem store (h : w.Mirrors id) (ns : List Notice) (hversion : 0 ≤ o.version)
    (hbook : w'.book = w.book.store o) (houtbox : w'.outbox = w.outbox.publishAll ns)
    (hown : ∀ n ∈ ns, n.order = o.id)
    (hannounced : o.id = id → o.Announced (w.outbox.about id ++ ns)) : w'.Mirrors id := by
  have habout := Outbox.about_publishAll_of h.publishing hown id
  have hget := OrderBook.get?_store w.book o id
  rw [← houtbox] at habout
  rw [← hbook] at hget
  have hkept : w'.book.WellKept := by
    rw [hbook]
    exact h.kept.store hversion
  have hpublishing : w'.outbox.failing = false := by
    rw [houtbox]
    exact (Outbox.publishAll_of_publishing h.publishing ns).1
  by_cases hid : o.id = id
  · rw [if_pos hid] at habout
    rw [if_pos hid.symm] at hget
    refine ⟨hkept, hpublishing, fun hnone => ?_, fun ho => ?_⟩
    · rw [hget] at hnone
      cases hnone
    · rw [hget] at ho
      cases ho
      rw [habout]
      exact (hannounced hid).withVersion _
  · rw [if_neg hid] at habout
    rw [if_neg (Ne.symm hid)] at hget
    refine ⟨hkept, hpublishing, fun hnone => ?_, fun ho => ?_⟩
    · rw [habout]
      exact h.silent (hget ▸ hnone)
    · rw [habout]
      exact h.announced (hget ▸ ho)

theorem step (h : w.Mirrors id) (hstep : w.Step w') : w'.Mirrors id := by
  cases hstep with
  | @moved o c stored moves accepted =>
    have hversion : 0 ≤ c.order.version := by
      rw [moves.version]
      exact Int.le_of_lt (h.kept _ _ stored).2
    refine h.store c.notices hversion rfl rfl (fun n hn => moves.order_of_mem_notices hn) ?_
    intro hid
    rw [moves.samePlacement.id] at hid
    rw [hid] at stored
    exact moves.announced (h.announced stored)

theorem creates {budget : RetryBudget} {ttl : Span} {r : CreateRequest} {draw : Draw}
    (h : w.Mirrors id) (hcreates : Creates budget ttl r draw w w') : w'.Mirrors id := by
  cases hcreates with
  | refused | unreserved | stopped | unsaved => exact ⟨h.kept, h.publishing, h.silent, h.announced⟩
  | @created held l keys placeable reserves accepted =>
    refine h.store (r.creation draw held w.clock).notices (Int.le_refl 0) rfl rfl ?_ ?_
    · simp [CreateRequest.creation, CreateRequest.reserved, Notice.created, Notice.reserved?,
        Order.apply, Notice.order]
    · intro hid
      have hnew := OrderBook.get?_eq_none_of_new accepted rfl
      subst hid
      rw [h.silent hnew]
      refine ⟨?_, placeable, _, [], rfl, .nothing rfl rfl, rfl⟩
      intro hcreated
      cases hcreated

theorem command (h : w.Mirrors id) (c : Command) :
    (c.script .direct).Yields World.answer (fun _ w' => w'.Mirrors id) w :=
  c.keeps (motive := fun w => w.Mirrors id) kept step creates h

theorem perform (h : w.Mirrors id) {d : Deed} (hd : d ≠ .failPublishing true) :
    (d.perform w).Mirrors id := by
  cases d with
  | command c => exact h.command c
  | failPublishing failing =>
    cases failing with
    | true => exact absurd rfl hd
    | false => exact ⟨h.kept, rfl, h.silent, h.announced⟩
  | _ => exact ⟨h.kept, h.publishing, h.silent, h.announced⟩

theorem after (h : w.Mirrors id) {ds : List Deed} (hds : ∀ d ∈ ds, d ≠ .failPublishing true) :
    (w.after ds).Mirrors id := by
  induction ds generalizing w with
  | nil => exact h
  | cons d ds ih =>
    exact ih (h.perform (hds d List.mem_cons_self)) fun d' hd' =>
      hds d' (List.mem_cons_of_mem _ hd')

end World.Mirrors

/--
**Published notices mirror the stored order.**

Whatever happens to a shop in which publishing works, the notices about an order that is created
meanwhile are its creation and its reservation, followed by its cancellation if it is stored as
cancelled or timed out, by its refund if that is stored as asked for or completed, and by nothing
otherwise. The cancellation tells the reservation, a stock line for each line, and the instant that
is stored; the refund tells its id, its reason and the exact total. Nothing is assumed of the stock,
of the store, of saving or recording, or of the identifiers that are drawn; only that nothing was
stored or published under the order's id before.
-/
theorem notices_mirror_order {w : World} (hkept : w.book.WellKept)
    (hpublishing : w.outbox.failing = false) {ds : List Deed}
    (hds : ∀ d ∈ ds, d ≠ .failPublishing true) {id : OrderId} {o : Order}
    (hnew : w.book.get? id = none) (hsilent : w.outbox.about id = [])
    (ho : (w.after ds).book.get? id = some o) :
    ∃ reservation deadline later, o.reservation = some reservation ∧
      o.expiresAt = some deadline ∧
      (w.after ds).outbox.about id =
        .orderCreated o.id o.number o.user o.store o.lines o.totalAmount o.createdAt ::
          .stockReserved o.id reservation o.store (Notice.stockLines o) deadline :: later ∧
      if o.status = .cancelled ∨ o.status = .paymentTimeout then
        ∃ category reason restoreStock cancelledAt, o.cancelledAt = some cancelledAt ∧
          later = [.orderCancelled o.id (some reservation) category reason restoreStock
            (o.lines.map fun l => ⟨l.product, l.quantity⟩) cancelledAt]
      else if o.status = .refundProcessing ∨ o.status = .refundCompleted then
        ∃ refund amount reason refundedAt, o.refund = some refund ∧
          o.refundReason = some reason ∧ amount.minor = Line.exactTotalOf o.lines ∧
          later = [.orderRefunded o.id refund amount reason refundedAt]
      else later = [] := by
  have hbefore : w.Mirrors id :=
    ⟨hkept, hpublishing, fun _ => hsilent, fun ho => by rw [hnew] at ho; cases ho⟩
  obtain ⟨-, hplaceable, reserved, later, hreserved, htold, habout⟩ :=
    (hbefore.after hds).announced ho
  have hends : ∃ reservation deadline, o.reservation = some reservation ∧
      o.expiresAt = some deadline ∧
      reserved = .stockReserved o.id reservation o.store (Notice.stockLines o) deadline := by
    unfold Notice.reserved? at hreserved
    split at hreserved
    · next reservation deadline hreservation hdeadline =>
      cases hreserved
      exact ⟨reservation, deadline, hreservation, hdeadline, rfl⟩
    · cases hreserved
  obtain ⟨reservation, deadline, hreservation, hdeadline, rfl⟩ := hends
  refine ⟨reservation, deadline, later, hreservation, hdeadline, habout, ?_⟩
  have hoff : (o.status = .cancelled ∨ o.status = .paymentTimeout) ↔
      o.status.isCalledOff = true := by
    cases o.status <;> decide
  have hback : (o.status = .refundProcessing ∨ o.status = .refundCompleted) ↔
      o.status.isRefund = true := by
    cases o.status <;> decide
  simp only [hoff, hback]
  cases htold with
  | nothing standing kept => simp [standing, kept]
  | @calledOff instant off stored reason restoreStock =>
    rw [if_pos off, ← hreservation]
    exact ⟨_, reason, restoreStock, instant, stored, rfl⟩
  | @refunded refund reason back requested because instant =>
    have hon : o.status.isCalledOff = false := by
      revert back
      cases o.status <;> decide
    rw [if_neg (by rw [hon]; exact Bool.false_ne_true), if_pos back]
    exact ⟨refund, _, reason, instant, requested, because, Order.minor_totalOf hplaceable, rfl⟩

/-- Two orders of widgets are created. One is paid for, delivered and refunded; the other one is
cancelled by its owner, and a scan for overdue payments finds nothing more to do. -/
def widgetReturns : List Deed :=
  [.command (.create (.ofNat 10) (.ofMinutes 15) twoWidgets ⟨⟨.ofNat 2⟩, ⟨"first"⟩, 0⟩),
    .command (.create (.ofNat 10) (.ofMinutes 15) { twoWidgets with key := "second" }
      ⟨⟨.ofNat 3⟩, ⟨"second"⟩, 1⟩),
    .command (.handle Saga.defaultRetries widgetsPaid),
    .command (.cancel ⟨.ofNat 3⟩ ⟨.ofNat 1⟩ (some "too late")),
    .command (.ship ⟨.ofNat 2⟩),
    .command (.deliver ⟨.ofNat 2⟩),
    .command (.refund ⟨.ofNat 2⟩ ⟨.ofNat 1⟩ none ⟨"refund"⟩),
    .setClock (.ofSecond 1200),
    .command (.completeRefund ⟨.ofNat 2⟩),
    .command (.scan (.ofNat 100))]

/-- Of the first order its creation, its reservation and the refund of 200 are published. -/
theorem notices_of_returned_widgets :
    let w := widgetShop.after widgetReturns
    ∃ o created reserved amount reason refundedAt, w.book.get? ⟨.ofNat 2⟩ = some o ∧
      o.status = .refundCompleted ∧ amount.minor = Line.exactTotalOf o.lines ∧
      w.outbox.about ⟨.ofNat 2⟩ =
        [created, reserved, .orderRefunded o.id ⟨"refund"⟩ amount reason refundedAt] := by
  have hstored : ((widgetShop.after widgetReturns).book.get? ⟨.ofNat 2⟩).map
      (fun o => (o.status, o.refund)) = some (.refundCompleted, some ⟨"refund"⟩) := by
    decide +kernel
  have hworks : ∀ d ∈ widgetReturns, d ≠ .failPublishing true := by
    simp [widgetReturns]
  obtain ⟨o, ho, hends⟩ := Option.map_eq_some_iff.1 hstored
  obtain ⟨hstatus, hrefund⟩ := Prod.mk.inj hends
  obtain ⟨reservation, deadline, later, -, -, habout, hlater⟩ := notices_mirror_order
    (OrderBook.wellKept_of_empty rfl) rfl hworks (w := widgetShop) rfl rfl ho
  rw [if_neg (by simp [hstatus]), if_pos (.inr hstatus)] at hlater
  obtain ⟨refund, amount, reason, refundedAt, hasked, -, htotal, rfl⟩ := hlater
  rw [hrefund] at hasked
  cases hasked
  exact ⟨o, _, _, amount, reason, refundedAt, ho, hstatus, htotal, habout⟩

end Fulfilment
