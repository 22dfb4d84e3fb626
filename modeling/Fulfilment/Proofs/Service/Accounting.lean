import Fulfilment.Proofs.Saga.Reaction
import Fulfilment.Proofs.Service.Account
import Fulfilment.Proofs.Service.Command

/-!
# Stock is accounted for order by order

Commands, sweeps, evictions, clock moves and switches keep the account of `Accounted`: whatever has
left a counter is charged to a stored order. A command is taken apart into the parts that keep the
account by themselves (`KeepsAccount`) and the saving of an order, which keeps it as long as the
charge of that order stays; only the creation of an order and the settling of its hold move a
charge. A creation that breaks off has no order that its lines could be charged to, so these are
counted apart (`World.abandoned`).
-/
namespace Fulfilment

open Script Operation

variable {initial : ProductId → Int} {w : World}

/-- Only marking stock as reserved and preparing change the charge of an order. -/
theorem Order.sameCharge_of_transition {o next : Order} {act : Action} {now : Instant}
    {t : Transition} (ho : o.PreparedOnce) (hr : act.reserves = false) (hp : act ≠ .prepare)
    (h : o.transition act now = .ok (next, t)) : o.SameCharge next where
  placement := samePlacement_of_transition h
  reservation := reservation_of_transition hr h
  confirmedAt := confirmedAt_of_transition hp h
  preparedOnce := preparedOnce_of_transition ho h

namespace Service

/-! ## Commands on one order -/

/-- Accepting such an action, saving the order, and whatever then keeps the account. -/
theorem accounted_acceptAndSave {β : Type} {id : OrderId} {o : Order} {act : Action} {now : Instant}
    {rest : Order × Transition → Order → Operation β} (a : Accounted initial w)
    (ho : w.book.get? id = some o) (hr : act.reserves = false) (hp : act ≠ .prepare)
    (hrest : ∀ moved saved, KeepsAccount initial (rest moved saved).run) :
    (accept o act now >>= fun moved => saveOrder moved.1 >>= rest moved).run.Yields World.answer
      (fun _ w' => Accounted initial w') w := by
  obtain rfl := a.id_of_stored ho
  refine yields_run_bind.2 ((yields_accept o act now).mono ?_)
  intro result _ hresult
  obtain ⟨rfl, ht⟩ := hresult
  cases result with
  | error e => exact a
  | ok moved =>
    obtain ⟨next, t⟩ := moved
    have hsame := Order.sameCharge_of_transition (a.tracks ho).preparedOnce hr hp (ht _ _ rfl)
    refine yields_run_bind.2 (yields_saveOrder (fun e _ => a) fun _ => ?_)
    exact hrest _ _ (a.save ho hsame)

theorem keepsAccount_moveOn (id : OrderId) {name : String} {act : Action}
    (hr : act.reserves = false) (hp : act ≠ .prepare) (hname : name ≠ "ConfirmStockHold") :
    KeepsAccount initial (moveOn id name act).run := by
  refine KeepsAccount.lift_bind .now fun now w a => ?_
  refine yields_run_bind.2 ((yields_loadOrder id).mono ?_)
  intro result _ hresult
  obtain ⟨rfl, ho⟩ := hresult
  cases result with
  | error e => exact a
  | ok o =>
    refine accounted_acceptAndSave a (ho _ rfl) hr hp fun moved saved => ?_
    refine .lift_bind .now fun recordedAt => .lift_bind (.record ?_) fun _ => .done _
    exact decide_eq_false hname

theorem keepsAccount_releaseStock (o : Order) : KeepsAccount initial (releaseStock o) := by
  unfold releaseStock
  split
  · refine .bind (.release _) fun r => ?_
    cases r <;> exact .done _
  · exact .done _

theorem keepsAccount_cancelOrder (id : OrderId) (user : UserId) (reason : Option String) :
    KeepsAccount initial (cancelOrder id user reason).run := by
  intro w a
  refine yields_run_bind.2 ((yields_loadOwned id user).mono ?_)
  intro result _ hresult
  obtain ⟨rfl, ho⟩ := hresult
  cases result with
  | error e => exact a
  | ok o =>
    rw [goOn_ok, yields_run_bind, require_run, yields_done]
    cases o.permitOwnerCancel with
    | error rejection => exact a
    | ok _ =>
      refine yields_run_lift.2 (Shop.yields_now.2 ?_)
      refine accounted_acceptAndSave a (ho _ rfl) rfl nofun fun moved saved => ?_
      refine .lift_bind (keepsAccount_releaseStock saved) fun released => ?_
      exact .lift_bind (.record rfl) fun _ => .lift_bind (.publish _) fun _ => .done _

theorem keepsAccount_refundOrder (id : OrderId) (user : UserId) (reason : Option String)
    (refund : RefundId) : KeepsAccount initial (refundOrder id user reason refund).run := by
  intro w a
  refine yields_run_bind.2 ((yields_loadOwned id user).mono ?_)
  intro result _ hresult
  obtain ⟨rfl, ho⟩ := hresult
  cases result with
  | error e => exact a
  | ok o =>
    rw [goOn_ok, yields_run_bind, require_run, yields_done]
    cases o.permitOwnerRefund with
    | error rejection => exact a
    | ok _ =>
      refine yields_run_lift.2 (Shop.yields_now.2 ?_)
      refine accounted_acceptAndSave a (ho _ rfl) rfl nofun fun moved saved => ?_
      exact .lift_bind (.record rfl) fun _ => .lift_bind (.publish? _) fun _ => .done _

/-! ## Creating orders -/

/-- The stock lines that a request asks for. -/
def CreateRequest.stockLines (r : CreateRequest) : List StockLine :=
  r.lines.map fun l => ⟨l.product, l.quantity⟩

theorem yields_requireSold (store : StoreId) (ls : List Line) :
    (requireSold store ls).run.Yields World.answer (fun _ w' => w' = w) w := by
  induction ls with
  | nil => rfl
  | cons l ls ih =>
    rw [requireSold, yields_run_bind, call_run, yields_bind, Shop.yields_sells]
    cases h : w.catalog.sells store l.product with
    | false => rfl
    | true => exact ih

theorem yields_requireListed (r : CreateRequest) :
    (requireListed r).run.Yields World.answer (fun _ w' => w' = w) w := by
  rw [requireListed, yields_run_bind, call_run, yields_bind, Shop.yields_hasStore]
  cases h : w.catalog.hasStore r.store with
  | false => rfl
  | true => exact yields_requireSold r.store r.lines

/-- A hold that was made for a new reservation, before its order is saved. -/
structure HeldFor (w : World) (lines : List StockLine) (h : Hold) (l : Ledger) : Prop where
  unlisted : w.ledger.listed? h.id = none
  quantities : ∀ p, StockLine.quantityOf p h.lines = StockLine.quantityOf p lines
  taken : ∃ k, w.ledger.Above k lines ∧ l = k.withHold h

namespace HeldFor

variable {lines : List StockLine} {h : Hold} {l : Ledger}

theorem consistent (held : HeldFor w lines h l) (c : w.ledger.Consistent) : l.Consistent := by
  obtain ⟨k, hk, rfl⟩ := held.taken
  exact Ledger.consistent_withHold (hk.consistent c) ((hk.listed?_eq _).trans held.unlisted)

theorem increments (held : HeldFor w lines h l) (hinc : w.ledger.incrementsFail = false) :
    l.incrementsFail = false := by
  obtain ⟨k, hk, rfl⟩ := held.taken
  exact hk.increments.trans hinc

theorem listed?_eq (held : HeldFor w lines h l) (c : w.ledger.Consistent) (id : ReservationId) :
    l.listed? id = if id = h.id then some h else w.ledger.listed? id := by
  obtain ⟨k, hk, rfl⟩ := held.taken
  rw [Ledger.listed?_withHold (hk.consistent c) ((hk.listed?_eq _).trans held.unlisted),
    hk.listed?_eq]

theorem stockOf_eq (held : HeldFor w lines h l) (p : ProductId) :
    w.ledger.stockOf p = l.stockOf p + StockLine.quantityOf p lines := by
  obtain ⟨k, hk, rfl⟩ := held.taken
  exact hk.stock p

/-- Releasing the hold undoes its making. -/
theorem release (held : HeldFor w lines h l) (a : Accounted initial w) :
    (Shop.onStock (Reservation.release h.id)).Yields World.answer
      (fun _ w' => Accounted initial w') { w with ledger := l } := by
  have c := held.consistent a.consistent
  have hown : l.listed? h.id = some h := by rw [held.listed?_eq a.consistent, if_pos rfl]
  refine Shop.yields_onStock.2 ?_
  refine (Reservation.yields_release c (held.increments a.increments) h.id).mono ?_
  intro _ m hreleased
  obtain ⟨-, habove⟩ := hreleased
  refine a.of_ledger ?_ ?_ (fun id => ?_) fun p => ?_
  · exact (Ledger.consistent_withoutHold c h.id).of_eq habove.holds.symm habove.index.symm
      habove.deadlines.symm
  · exact habove.increments.symm.trans (held.increments a.increments)
  · rw [← habove.listed?_eq, Ledger.listed?_withoutHold c, held.listed?_eq a.consistent]
    by_cases hid : id = h.id
    · rw [if_pos hid, hid, held.unlisted]
    · rw [if_neg hid, if_neg hid]
  · have hstock : m.stockOf p = l.stockOf p + StockLine.quantityOf p h.lines := by
      rw [habove.stock, Reservation.heldLines, hown]
      rfl
    rw [hstock, held.stockOf_eq, held.quantities]

/-- Storing the order that the hold was made for charges it with what was taken. -/
theorem store (held : HeldFor w lines h l) (a : Accounted initial w) {o : Order}
    (hnew : w.book.get? o.id = none) (hr : o.reservation = some h.id)
    (hlines : Notice.stockLines o = lines) (hconfirmed : o.confirmedAt = none)
    (hfresh : ∀ id x, w.book.get? id = some x → x.reservation ≠ some h.id) {b : OrderBook}
    (hb : b.orders = w.book.orders.insert o.id o) :
    Accounted initial { w with ledger := l, book := b } := by
  have c := held.consistent a.consistent
  have hown : l.listed? h.id = some h := by rw [held.listed?_eq a.consistent, if_pos rfl]
  refine a.step (o := o) c (held.increments a.increments) a.recording hb ?_ ?_ ?_ ?_
    (fun _ _ => rfl) fun p => ?_
  · refine ⟨⟨h.id, hr⟩, fun _ => hconfirmed, fun _ _ => hconfirmed, fun hr' hl' p => ?_,
      fun hm => ?_⟩
    · cases hr.symm.trans hr'
      cases hown.symm.trans hl'
      rw [held.quantities, hlines]
    · obtain ⟨x, hx⟩ := a.known hm
      cases hnew.symm.trans hx
  · intro x hx
    cases hnew.symm.trans hx
  · intro id x hx hr'
    exact absurd (hr'.trans hr) (hfresh id x hx)
  · intro id hne
    rw [held.listed?_eq a.consistent, if_neg]
    rintro rfl
    exact hne hr
  · rw [hnew, Option.elim_none, World.charge_of_reservation c hr, hown, held.stockOf_eq, hlines]
    simp

end HeldFor

theorem transition_markStockReserved {o : Order} (hstatus : o.status = .created)
    (r : ReservationId) (deadline now : Instant) :
    o.transition (.markStockReserved r deadline) now =
      .ok (o.apply (.stockReserved r deadline now),
        ⟨.created, .confirmed, .stockReserved r deadline now⟩) := by
  simp only [Order.transition, Order.decide, Order.guarded, Action.allowedIn, hstatus]
  rfl

/-- A new order that is saved with its hold is charged; one that is refused leaves no charge. -/
theorem accounted_saveOrRelease {lines : List StockLine} {h : Hold} {l : Ledger} {o : Order}
    (held : HeldFor w lines h l) (a : Accounted initial w) (hstatus : o.status = .created)
    (hversion : o.version = 0) (hconfirmed : o.confirmedAt = none)
    (hlines : Notice.stockLines o = lines)
    (hfresh : ∀ id x, w.book.get? id = some x → x.reservation ≠ some h.id) (now : Instant) :
    (saveOrRelease o h now).run.Yields World.answer (fun _ w' => Accounted initial w')
      { w with ledger := l } := by
  refine yields_bind.2 ?_
  rw [saveReserved, yields_run_bind, accept, require_run, transition_markStockReserved hstatus,
    yields_done]
  refine yields_run_bind.2 ?_
  refine yields_saveOrder (fun e _ => ?_) fun hsaved => ?_
  · have hrelease : (releaseHold h.id).Yields World.answer (fun _ w' => Accounted initial w')
        { w with ledger := l } := by
      refine yields_bind.2 ((held.release a).mono ?_)
      rintro (_ | _) w' a' <;> exact a'
    rw [goOn_error, yields_done]
    exact yields_bind.2 hrelease
  · have hnew : w.book.get? o.id = none := OrderBook.get?_eq_none_of_new hsaved hversion
    let saved : Order :=
      { o.apply (.stockReserved h.id h.expiresAt now) with version := o.version + 1 }
    exact held.store a (o := saved) hnew rfl hlines hconfirmed hfresh rfl

theorem keepsAccount_announceCreation (o : Order) (h : Hold) (t : Transition) (now : Instant) :
    KeepsAccount initial (announceCreation o h t now) :=
  .bind (.record rfl) fun _ => .bind (.record rfl) fun _ => .bind (.publish _) fun _ => .publish? _

/-- A request may be made: its quantities fit their words, and the reservation that is drawn for it
is not that of a stored order. -/
def CreateRequest.Proper (r : CreateRequest) (draw : Draw) (w : World) : Prop :=
  StockLine.Fits r.stockLines ∧ ∀ o ∈ w.book.orders.values, o.reservation ≠ some draw.reservation

/-- The account after a creation. If that broke off, it is kept without the lines of the request,
and the calendar did not have the deadline. -/
def AccountedFor (initial : ProductId → Int) (now : Instant) (ttl : Span) (r : CreateRequest) :
    Except ServiceError (Ending Order) → World → Prop
  | .ok .brokeOff, w => now.add? ttl = none ∧
      Accounted (fun p => initial p - StockLine.quantityOf p r.stockLines) w
  | .ok (.answered _), w | .error _, w => Accounted initial w

/-- Storing a placed order with its hold keeps the account. -/
theorem accounted_storeReserved (a : Accounted initial w) {o : Order} {h : Hold} {l : Ledger}
    (held : HeldFor w (Notice.stockLines o) h l) (hstatus : o.status = .created)
    (hversion : o.version = 0) (hconfirmed : o.confirmedAt = none)
    (hfresh : ∀ id x, w.book.get? id = some x → x.reservation ≠ some h.id) (now : Instant) :
    (storeReserved o now (.ok h)).run.Yields World.answer (fun _ w' => Accounted initial w')
      { w with ledger := l } := by
  have hsaved := accounted_saveOrRelease held a hstatus hversion hconfirmed rfl hfresh now
  rw [storeReserved, yields_run_bind, require_run, yields_done]
  refine yields_run_bind.2 (hsaved.mono ?_)
  intro result w' a'
  cases result with
  | error e => exact a'
  | ok _ =>
    exact KeepsAccount.lift_bind (keepsAccount_announceCreation _ _ _ _) (fun _ => .done _) a'

/-- Placing an order and holding its stock keeps the account, unless it breaks off. -/
theorem accounted_placeAndReserve (a : Accounted initial w) (budget : RetryBudget) (ttl : Span)
    {r : CreateRequest} {draw : Draw} (hproper : r.Proper draw w) :
    (placeAndReserve budget ttl r draw).run.Yields World.answer
      (AccountedFor initial w.clock ttl r) w := by
  have hunlisted : w.ledger.listed? draw.reservation = none := by
    refine Option.eq_none_iff_forall_ne_some.2 fun h hl => ?_
    obtain ⟨id, o, ho, hr⟩ := a.owned hl
    exact hproper.2 o (Table.mem_values ho) hr
  refine yields_run_bind.2 ((yields_requireListed r).mono ?_)
  intro result w' hsame
  subst w'
  cases result with
  | error e => exact a
  | ok _ =>
    refine yields_run_lift.2 (Shop.yields_now.2 ?_)
    rw [yields_run_bind, require_run, yields_done, Order.place]
    split
    · exact a
    · refine yields_run_lift.2 (Shop.yields_onStock.2 ?_)
      refine (Reservation.yields_reserve a.consistent a.increments budget r.store hproper.1
        hunlisted ttl).mono ?_
      intro ending l hl
      match ending with
      | .brokeOff => exact ⟨hl.1, a.of_above hl.2⟩
      | .answered (.error e) =>
        refine a.of_ledger (hl.consistent a.consistent) (hl.increments.trans a.increments)
          hl.listed?_eq fun p => ?_
        rw [hl.stock, StockLine.quantityOf_nil]
        exact (add_zero _).symm
      | .answered (.ok h) =>
        obtain ⟨deadline, -, rfl, htaken⟩ := hl
        have held : HeldFor w r.stockLines ⟨draw.reservation, r.store,
            StockLine.merge r.stockLines, w.clock, deadline⟩ l :=
          ⟨hunlisted, hproper.1.quantityOf_merge, htaken⟩
        have hstored := accounted_storeReserved a
          (o := .ofRequest (r.newOrder draw w.clock) w.clock) held rfl rfl rfl
          (fun id x hx => hproper.2 x (Table.mem_values hx)) w.clock
        refine yields_run_bind.2 (hstored.mono fun result w' a' => ?_)
        cases result <;> exact a'

/-- Creating an order keeps the account, unless it breaks off. -/
theorem accounted_createOrder (a : Accounted initial w) (budget : RetryBudget) (ttl : Span)
    {r : CreateRequest} {draw : Draw} (hproper : r.Proper draw w) :
    (createOrder budget ttl r draw).run.Yields World.answer (AccountedFor initial w.clock ttl r)
      w := by
  rw [createOrder, yields_run_bind, call_run, yields_bind, Shop.yields_claim, yields_done]
  have a' : Accounted initial { w with keys := (w.keys.claim r.requestKey).2 } :=
    a.of_same rfl rfl rfl
  rcases (w.keys.claim r.requestKey).1 with e | _ | _ | id
  · exact a'
  · refine yields_bind.2 ((accounted_placeAndReserve a' budget ttl hproper).mono ?_)
    intro result w' hends
    match result with
    | .error e => exact hends.of_same rfl rfl rfl
    | .ok (.answered o) => exact hends.of_same rfl rfl rfl
    | .ok .brokeOff => exact hends
  · exact a'
  · refine yields_run_bind.2 ((yields_loadOrder id).mono ?_)
    intro result w' hload
    obtain ⟨rfl, -⟩ := hload
    cases result <;> exact a'

end Service

/-! ## Payment deadlines and signals -/

namespace Saga

theorem keepsAccount_afterTimeOut (o : Order) (t : Transition) (now : Instant) :
    KeepsAccount initial (afterTimeOut .direct o t now) := by
  refine .bind (.record rfl) fun _ => .bind (.publish _) fun _ => ?_
  split
  · exact .bind (.release _) fun _ => .done _
  · exact .done _

theorem keepsAccount_timeOut (id : OrderId) : KeepsAccount initial (timeOut .direct id) := by
  intro w a
  rw [timeOut, yields_bind, Shop.yields_load]
  cases ho : w.book.get? id with
  | none => exact a
  | some o =>
    obtain rfl := a.id_of_stored ho
    dsimp only
    rw [yields_bind, Shop.yields_now]
    split
    · cases ht : o.transition .timeOut w.clock with
      | error rejection => exact a
      | ok moved =>
        obtain ⟨next, t⟩ := moved
        have hsame := Order.sameCharge_of_transition (a.tracks ho).preparedOnce rfl (by nofun) ht
        refine yields_bind.2 (Shop.yields_save_of (fun e _ => a) fun _ => ?_)
        exact (keepsAccount_afterTimeOut _ _ _).bind (fun _ => .done _) (a.save ho hsame)
    · exact a

theorem keepsAccount_timeOutAll (count : Nat) (ids : List OrderId) :
    KeepsAccount initial (timeOutAll .direct count ids) := by
  induction ids generalizing count with
  | nil => exact .done _
  | cons id ids ih =>
    refine .bind (keepsAccount_timeOut id) fun r => ?_
    rcases r with e | _ | _ <;> exact ih _

theorem keepsAccount_scan (batch : BatchSize) : KeepsAccount initial (scan .direct batch) := by
  refine .bind .now fun now w a => yields_bind.2 (Shop.yields_overdue.2 ?_)
  exact (keepsAccount_timeOutAll 0 _).bind (fun _ => .done _) a

/-- What every entry keeps, recording all of them keeps. -/
theorem yields_recordAll {motive : World → Prop} {es : List AuditEntry}
    (step : ∀ {w e}, e ∈ es → motive w → motive { w with trail := w.trail.record e })
    (h : motive w) : (recordAll es).Yields World.answer (fun _ w' => motive w') w := by
  induction es generalizing w with
  | nil => exact h
  | cons e es ih =>
    refine yields_bind.2 (Shop.yields_record.2 (ih ?_ (step (List.mem_cons_self ..) h)))
    exact fun he => step (List.mem_cons_of_mem _ he)

theorem tellsOfMissingHold_of_mem {s : Signal} {o : Order} {ts : List Transition} {now : Instant}
    {e : AuditEntry} (he : e ∈ ts.map fun t => auditEntry s o t now) :
    e.tellsOfMissingHold = false := by
  obtain ⟨t, -, rfl⟩ := List.mem_map.1 he
  cases s <;> rfl

theorem keepsAccount_afterSave (s : Signal) {applied : Applied}
    (hf : ∀ id, applied.followUp ≠ .settle id) :
    KeepsAccount initial (afterSave .direct s applied) := by
  refine .bind .now fun now => .bind (fun w a => ?_) fun _ => .bind (.publish? _) fun _ => ?_
  · exact yields_recordAll (fun he a => a.record (tellsOfMissingHold_of_mem he)) a
  · cases h : applied.followUp with
    | leave => exact .done _
    | settle id => exact absurd h (hf id)
    | release id => exact .bind (.release id) fun _ => .done _

/-- Settling the stock of a paid order restores the account. -/
theorem accounted_settleStock {unpaid paid o : Order} (u : Unsettled initial unpaid paid w)
    (ho : o.id = paid.id) {id : ReservationId} (hr : paid.reservation = some id) (now : Instant) :
    (settleStock .direct o now (.settle id)).Yields World.answer (fun _ w' => Accounted initial w')
      w := by
  have hsettle := u.settle hr (e := missingHoldEntry o id now) ho rfl
  have c : w.ledger.Consistent := u.before.consistent
  refine yields_bind.2 (Shop.yields_onStock.2 (yields_bind.2 ?_))
  refine (Reservation.yields_settle c id).mono ?_
  intro _ l hsettled
  obtain ⟨rfl, rfl⟩ := hsettled
  cases hl : w.ledger.listed? id with
  | none =>
    rw [hl] at hsettle
    exact hsettle
  | some h =>
    rw [hl] at hsettle
    exact hsettle

/-- A completed payment keeps the account once it is saved and its stock is settled. -/
theorem accounted_afterSave {unpaid paid : Order} (u : Unsettled initial unpaid paid w) (s : Signal)
    {applied : Applied} (hid : applied.order.id = paid.id) {id : ReservationId}
    (hr : paid.reservation = some id) (hf : applied.followUp = .settle id) :
    (afterSave .direct s applied).Yields World.answer (fun _ w' => Accounted initial w') w := by
  refine yields_bind.2 (Shop.yields_now.2 (yields_bind.2 ?_))
  refine (yields_recordAll (fun he u => u.record (tellsOfMissingHold_of_mem he)) u).mono ?_
  intro _ w' u'
  rw [hf]
  cases applied.notice with
  | none => exact accounted_settleStock u' hid hr _
  | some n => exact accounted_settleStock (u'.publish n) hid hr _

/-- A completed payment that is saved leaves its stock to be settled. -/
theorem unsettled_of_pay {o next : Order} {payment : PaymentId} {now : Instant}
    {ts : List Transition} (a : Accounted initial w) (ho : w.book.get? o.id = some o)
    (h : o.transitionAll ((Reaction.paymentActions o payment).map (·, now)) = .ok (next, ts)) :
    Unsettled initial o { next with version := next.version + 1 }
      { w with book := w.book.store next } := by
  obtain ⟨hprecedes, hstatus, hconfirmed⟩ := Order.confirmedAt_of_paymentActions h
  have hplacement := Order.samePlacement_of_transitionAll h
  refine ⟨?_, ?_, ?_, ?_, ?_, ?_, ?_⟩
  · exact (OrderBook.get?_store ..).trans (if_pos rfl)
  · exact ⟨hplacement.id, hplacement.number, hplacement.user, hplacement.store, hplacement.lines,
      hplacement.createdAt⟩
  · have hreservation := Order.reservation_of_paymentActions h
    exact hreservation
  · exact (a.tracks ho).preparedOnce hprecedes
  · exact congrArg Option.isSome hconfirmed
  · intro hprecedes'
    rw [hstatus] at hprecedes'
    cases hprecedes'
  · refine a.of_same rfl ?_ rfl
    rw [← hplacement.id] at ho
    exact (Table.insert_insert ..).trans (Table.insert_of_get? ho)

/-- Saving a reaction, with all that follows, keeps the account. -/
theorem accounted_commit {id : OrderId} {o : Order} {s : Signal} {now : Instant} {applied : Applied}
    (a : Accounted initial w) (ho : w.book.get? id = some o)
    (h : o.react s now = .ok (.apply applied)) (loaded : Status) :
    (commit .direct s loaded applied).Yields World.answer (fun _ w' => Accounted initial w') w := by
  obtain rfl := a.id_of_stored ho
  have t := a.tracks ho
  refine yields_bind.2 (Shop.yields_save_of (fun e _ => a) fun _ => ?_)
  rcases Order.react_cases h with ⟨act, moved, hact, ht, -, hf⟩ | ⟨payment, hpay, hf⟩
  · have hplain : act.reserves = false ∧ act ≠ .prepare := by
      rcases hact with rfl | ⟨reason, rfl⟩ <;> exact ⟨rfl, nofun⟩
    have hsame := Order.sameCharge_of_transition t.preparedOnce hplain.1 hplain.2 ht
    refine (keepsAccount_afterSave s fun id hid => ?_).bind (fun _ => .done _) (a.save ho hsame)
    rw [hid] at hf
    unfold Reaction.releasing at hf
    split at hf <;> simp at hf
  · obtain ⟨r, hr⟩ := t.reserved
    have hr : applied.order.reservation = some r :=
      (Order.reservation_of_paymentActions hpay).trans hr
    have hf : applied.followUp = .settle r := by rw [hf, Reaction.settling, hr]
    have hafter := accounted_afterSave (unsettled_of_pay a ho hpay) s rfl hr hf
    exact yields_bind.2 (hafter.mono fun _ _ a' => a')

theorem keepsAccount_attempt (s : Signal) : KeepsAccount initial (attempt .direct s) := by
  intro w a
  rw [attempt, yields_bind, Shop.yields_load]
  cases ho : w.book.get? s.order with
  | none => exact a
  | some o =>
    dsimp only
    rw [yields_bind, Shop.yields_now]
    cases h : o.react s w.clock with
    | error rejection => exact a
    | ok reaction =>
      cases reaction with
      | apply applied => exact accounted_commit a ho h o.status
      | duplicate shown => exact a

theorem keepsAccount_handleWithin (s : Signal) (attempts left : Nat) :
    KeepsAccount initial (handleWithin .direct s attempts left) := by
  induction left with
  | zero => exact .done _
  | succ left ih =>
    refine .bind (keepsAccount_attempt s) fun outcome => ?_
    cases outcome with
    | none => exact ih
    | some outcome => exact .done _

end Saga

/-! ## Everything that happens to a shop -/

namespace Service

/-- The quantity of a product in the lines of a request whose creation has broken off. -/
def Command.abandoned (p : ProductId) : Command → Answer → Nat
  | .create _ _ r _, .brokeOff => StockLine.quantityOf p r.stockLines
  | _, _ => 0

/-- The calendar has the deadline of the reservation that the command makes now, if it makes one. -/
def Command.isDated (now : Instant) : Command → Bool
  | .create _ ttl _ _ => (now.add? ttl).isSome
  | _ => true

/-- The account is kept, but for what was abandoned; and if the calendar has the deadline, nothing
was. -/
structure AccountedBut (initial : ProductId → Int) (abandoned : ProductId → Nat) (dated : Bool)
    (w : World) : Prop where
  kept : Accounted (fun p => initial p - abandoned p) w
  abandoned_eq_zero : dated = true → ∀ p, abandoned p = 0

theorem AccountedBut.of_kept {abandoned : ProductId → Nat} {dated : Bool}
    (a : Accounted initial w) (hnone : ∀ p, abandoned p = 0) :
    AccountedBut initial abandoned dated w where
  kept := by simpa [hnone] using a
  abandoned_eq_zero _ := hnone

/-- Only the creation of an order abandons anything, and only if the calendar does not have the
deadline of its reservation. -/
theorem accounted_command (a : Accounted initial w) (c : Command)
    (hproper : ∀ budget ttl r draw, c = .create budget ttl r draw → r.Proper draw w) :
    (c.script .direct).Yields World.answer (fun answer w' =>
      AccountedBut initial (c.abandoned · answer) (c.isDated w.clock) w') w := by
  have kept : KeepsAccount initial (c.script .direct) → (∀ p answer, c.abandoned p answer = 0) →
      (c.script .direct).Yields World.answer (fun answer w' =>
        AccountedBut initial (c.abandoned · answer) (c.isDated w.clock) w') w :=
    fun hkeeps hnone => (hkeeps a).mono fun answer _ a' => .of_kept a' (hnone · answer)
  cases c with
  | create budget ttl r draw =>
    refine yields_map.2 ((accounted_createOrder a budget ttl (hproper _ _ _ _ rfl)).mono ?_)
    intro result w' hends
    match result with
    | .error e | .ok (.answered o) => exact .of_kept hends fun _ => rfl
    | .ok .brokeOff =>
      refine ⟨hends.2, fun hdated => ?_⟩
      rw [Command.isDated, hends.1] at hdated
      cases hdated
  | cancel id user reason => exact kept (keepsAccount_cancelOrder id user reason).map fun _ _ => rfl
  | refund id user reason refund =>
    exact kept (keepsAccount_refundOrder id user reason refund).map fun _ _ => rfl
  | linkPayment | ship | deliver | completeRefund =>
    exact kept (keepsAccount_moveOn _ (by rfl) (by nofun) (by decide)).map fun _ _ => rfl
  | handle retries signal =>
    exact kept (Saga.keepsAccount_handleWithin signal _ _).map fun _ _ => rfl
  | scan batch => exact kept (Saga.keepsAccount_scan batch).map fun _ _ => rfl

/-- Something that happens to a shop while nothing else does. -/
inductive Deed where
  | command (c : Command)
  | sweep (batch : BatchSize)
  | evict
  | setClock (now : Instant)
  | openStore (store : StoreId)
  | closeStore (store : StoreId)
  | forceConflicts (count : Nat)
  | failSaves (failing : Bool)
  | failPublishing (failing : Bool)
  | failClaims (failing : Bool)

namespace Deed

def perform : Deed → World → World
  | command c, w => ((c.script .direct).run World.answer w).2
  | sweep batch, w => { w with ledger := (w.ledger.sweep w.clock batch).2 }
  | evict, w => { w with ledger := (w.ledger.evict w.clock).2 }
  | setClock now, w => { w with clock := now }
  | openStore store, w => { w with ledger := w.ledger.openStore store }
  | closeStore store, w => { w with ledger := w.ledger.closeStore store }
  | forceConflicts count, w => { w with ledger := { w.ledger with forcedConflicts := count } }
  | failSaves failing, w => { w with book := { w.book with failing } }
  | failPublishing failing, w => { w with outbox := { w.outbox with failing } }
  | failClaims failing, w => { w with keys := { w.keys with failing } }

/-- Requests for orders have to be proper. -/
def Proper : Deed → World → Prop
  | command (.create _ _ r draw), w => r.Proper draw w
  | _, _ => True

/-- The quantity of a product in the lines of a request that breaks off. -/
def abandoned (p : ProductId) : Deed → World → Nat
  | command c, w => c.abandoned p ((c.script .direct).run World.answer w).1
  | _, _ => 0

/-- The calendar has the deadline of the reservation, if one is made. -/
def isDated : Deed → World → Bool
  | command c, w => c.isDated w.clock
  | _, _ => true

end Deed
end Service

open Service

namespace World

/-- The world after several deeds in turn. -/
def after (w : World) (ds : List Deed) : World := ds.foldl (fun w d => d.perform w) w

/-- Every request for an order is proper when it is made. -/
def Admits : World → List Deed → Prop
  | _, [] => True
  | w, d :: ds => d.Proper w ∧ (d.perform w).Admits ds

/-- The quantity of a product in the lines of requests that break off. -/
def abandoned (p : ProductId) : World → List Deed → Nat
  | _, [] => 0
  | w, d :: ds => d.abandoned p w + (d.perform w).abandoned p ds

/-- The calendar has the deadlines of all reservations. -/
def dated : World → List Deed → Bool
  | _, [] => true
  | w, d :: ds => d.isDated w && (d.perform w).dated ds

/-- There are no orders and no holds yet, and giving back and recording work. -/
structure Unsold (w : World) : Prop where
  orders : w.book.orders = ∅
  holds : w.ledger.holds = ∅
  index : w.ledger.index = ∅
  deadlines : w.ledger.deadlines = ∅
  increments : w.ledger.incrementsFail = false
  recording : w.trail.failing = false
  entries : ∀ e ∈ w.trail.entries, e.tellsOfMissingHold = false

end World

/-- Every deed keeps the account, but for what it abandons. -/
theorem Accounted.perform (a : Accounted initial w) {d : Deed} (hproper : d.Proper w) :
    AccountedBut initial (d.abandoned · w) (d.isDated w) (d.perform w) := by
  cases d with
  | command c =>
    refine accounted_command a c ?_
    rintro budget ttl r draw rfl
    exact hproper
  | sweep batch =>
    refine .of_kept ?_ fun _ => rfl
    refine Ledger.sweep_keeps (motive := fun l => Accounted initial { w with ledger := l })
      ?_ batch a
    exact fun a => Shop.yields_onStock.1 (a.release _)
  | evict =>
    exact .of_kept (a.of_ledger (a.consistent.evict _) a.increments (fun _ => rfl) fun _ => rfl)
      fun _ => rfl
  | setClock | failSaves | failPublishing | failClaims =>
    exact .of_kept (a.of_same rfl rfl rfl) fun _ => rfl
  | openStore | closeStore | forceConflicts =>
    exact .of_kept (a.of_ledger (a.consistent.of_eq rfl rfl rfl) a.increments (fun _ => rfl)
      fun _ => rfl) fun _ => rfl

theorem Accounted.after {ds : List Deed} (a : Accounted initial w) (hproper : w.Admits ds) :
    Accounted (fun p => initial p - w.abandoned p ds) (w.after ds) := by
  induction ds generalizing w initial with
  | nil => simpa [World.abandoned, World.after] using a
  | cons d ds ih =>
    have hrest := ih (a.perform hproper.1).kept hproper.2
    simpa [World.abandoned, World.after, sub_sub] using hrest

theorem Accounted.abandoned_eq_zero {ds : List Deed} (a : Accounted initial w)
    (hproper : w.Admits ds) (hdated : w.dated ds = true) (p : ProductId) :
    w.abandoned p ds = 0 := by
  induction ds generalizing w initial with
  | nil => rfl
  | cons d ds ih =>
    obtain ⟨hfirst, hlater⟩ := (Bool.and_eq_true _ _).mp hdated
    have hkept := a.perform hproper.1
    rw [World.abandoned, hkept.abandoned_eq_zero hfirst, ih hkept.kept hproper.2 hlater]

/-- **Stock is accounted for order by order.** Whatever happens to a shop that began without orders
and holds, the stock that is missing from a counter is that of the orders which are deducted, and
the lines of requests that broke off. If the calendar has the deadlines of all reservations, it is
that of the deducted orders alone. -/
theorem missing_stock_is_deducted {w : World} (h : w.Unsold) {ds : List Deed}
    (hproper : w.Admits ds) (p : ProductId) :
    w.ledger.stockOf p - (w.after ds).ledger.stockOf p =
        (w.after ds).deducted p + w.abandoned p ds ∧
      (w.dated ds = true →
        w.ledger.stockOf p - (w.after ds).ledger.stockOf p = (w.after ds).deducted p) := by
  have a : Accounted w.ledger.stockOf w :=
    .of_empty h.orders h.holds h.index h.deadlines h.increments h.recording h.entries
  have hbalance := (a.after hproper).balance p
  refine ⟨by omega, fun hdated => ?_⟩
  have hnone := a.abandoned_eq_zero hproper hdated p
  omega

/-- An order of two widgets is paid after its hold was swept, and four widgets are ordered then. -/
def widgetSales : List Deed :=
  [.command (.create (.ofNat 10) (.ofMinutes 15) twoWidgets ⟨⟨.ofNat 2⟩, ⟨"first"⟩, 0⟩),
    .setClock ⟨1000, 0, by decide, by decide, by decide⟩,
    .sweep (.ofNat 100),
    .command (.handle Saga.defaultRetries (.paymentCompleted ⟨.ofNat 2⟩ ⟨"payment"⟩ ⟨200⟩
      ⟨1000, 0, by decide, by decide, by decide⟩)),
    .command (.create (.ofNat 10) (.ofMinutes 15)
      ⟨"second", ⟨.ofNat 1⟩, ⟨"store"⟩, [⟨⟨"widget"⟩, "Widget", 4, ⟨100⟩⟩]⟩
      ⟨⟨.ofNat 3⟩, ⟨"second"⟩, 1⟩)]

/-- Only the four widgets are missing: the paid order is known to have no stock. -/
theorem missing_widgets_are_deducted :
    widgetShop.Unsold ∧ widgetShop.Admits widgetSales ∧ widgetShop.dated widgetSales = true ∧
      (widgetShop.after widgetSales).deducted ⟨"widget"⟩ = 4 ∧
      widgetShop.ledger.stockOf ⟨"widget"⟩ -
          (widgetShop.after widgetSales).ledger.stockOf ⟨"widget"⟩ =
        (widgetShop.after widgetSales).deducted ⟨"widget"⟩ := by
  have hunsold : widgetShop.Unsold :=
    ⟨rfl, rfl, rfl, rfl, rfl, rfl, fun _ he => absurd he List.not_mem_nil⟩
  have hproper : widgetShop.Admits widgetSales :=
    ⟨⟨StockLine.fits_singleton _, by decide +kernel⟩, trivial, trivial, trivial,
      ⟨StockLine.fits_singleton _, by decide +kernel⟩, trivial⟩
  have hdated : widgetShop.dated widgetSales = true := by decide +kernel
  exact ⟨hunsold, hproper, hdated, by decide +kernel,
    (missing_stock_is_deducted hunsold hproper _).2 hdated⟩

end Fulfilment
