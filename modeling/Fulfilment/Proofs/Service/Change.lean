import Fulfilment.Proofs.Saga.Arrival
import Fulfilment.Proofs.Service.Accounting
import Mathlib.Logic.Relation

/-!
# What commands change

What a command that runs alone makes of the world, said once for all commands and for the whole
world. A new order is stored with its hold, or whatever was done for it is undone (`Creates`). Any
other command stores orders one after the other as they have moved on (`World.Step`): what an order
can move on to, what becomes of its stock then, what is recorded and what is told is listed in
`Moves`. Neither list assumes anything of the stock, of the switches, or of the identifiers that are
drawn.
-/
namespace Fulfilment

open Script Operation Relation

/-! ## Several entries and several notices -/

def AuditTrail.recordAll (a : AuditTrail) (es : List AuditEntry) : AuditTrail := es.foldl record a

theorem AuditTrail.recordAll_append (a : AuditTrail) (es es' : List AuditEntry) :
    a.recordAll (es ++ es') = (a.recordAll es).recordAll es' := List.foldl_append

theorem AuditTrail.recordAll_of_recording {a : AuditTrail} (ha : a.failing = false)
    (es : List AuditEntry) :
    (a.recordAll es).failing = false ∧ (a.recordAll es).entries = a.entries ++ es := by
  induction es generalizing a with
  | nil => exact ⟨ha, (List.append_nil _).symm⟩
  | cons e es ih =>
    have hrecord : a.record e = { a with entries := a.entries ++ [e] } := by
      simp [AuditTrail.record, ha]
    obtain ⟨hfailing, hentries⟩ := ih (a := a.record e) (by rw [hrecord]; exact ha)
    refine ⟨hfailing, hentries.trans ?_⟩
    rw [hrecord, List.append_assoc, List.singleton_append]

def Outbox.publishAll (b : Outbox) (ns : List Notice) : Outbox := ns.foldl publish b

/-! ## Orders that have changed -/

namespace FollowUp

def ledger (now : Instant) (l : Ledger) : FollowUp → Ledger
  | leave => l
  | settle id => ((Reservation.settle id).run (Stock.answer now) l).2
  | release id => ((Reservation.release id).run (Stock.answer now) l).2

/-- What the follow-up finds missing. -/
def findings (o : Order) (now : Instant) (l : Ledger) : FollowUp → List AuditEntry
  | settle id =>
    if ((Reservation.settle id).run (Stock.answer now) l).1 then []
    else [Saga.missingHoldEntry o id now]
  | _ => []

end FollowUp

/-- An order that has changed, with what becomes of its stock, what is recorded and what is told. -/
structure Changed where
  order : Order
  followUp : FollowUp := .leave
  entries : List AuditEntry
  notices : List Notice := []

/-- The world after a changed order is stored, with all that follows. -/
def World.store (w : World) (c : Changed) : World :=
  { w with
    ledger := c.followUp.ledger w.clock w.ledger
    book := w.book.store c.order
    trail := w.trail.recordAll (c.entries ++ c.followUp.findings c.order w.clock w.ledger)
    outbox := w.outbox.publishAll c.notices }

namespace Service

/-- What other services ask of an order, with the name that it is recorded under. -/
inductive Requested : String → Action → Prop where
  | linkPayment (payment : PaymentId) : Requested "LinkPayment" (.linkPayment payment)
  | ship : Requested "MarkShipped" .ship
  | deliver : Requested "MarkDelivered" .deliver
  | completeRefund : Requested "CompleteRefund" .completeRefund

/-- What can become of a stored order at an instant, by whichever command. Whether a cancellation
records that its stock came back is left open. -/
inductive Moves (now : Instant) (o : Order) : Changed → Prop where
  | cancelled {next : Order} {t : Transition} (user : UserId) (stated : Option String)
      (released : Bool) (permitted : o.permitOwnerCancel = .ok ())
      (accepted : o.transition (.cancel (cancellationReason stated)) now = .ok (next, t)) :
      Moves now o
        { order := next
          followUp := Reaction.releasing next
          entries := [.ofTransition next.id "CancelOrder" t user.toText now
            (some (cancellationDetail (cancellationReason stated) released))]
          notices := [.cancelled next (cancellationReason stated) true now] }
  | refunded {next : Order} {t : Transition} (user : UserId) (stated : Option String)
      (refund : RefundId) (permitted : o.permitOwnerRefund = .ok ())
      (accepted : o.transition (.refund refund (refundReason stated)) now = .ok (next, t)) :
      Moves now o
        { order := next
          entries := [.ofTransition next.id "RefundOrder" t user.toText now
            (some (refundReason stated))]
          notices := (Notice.refunded? next now).toList }
  | requested {name : String} {act : Action} {next : Order} {t : Transition}
      (request : Requested name act) (accepted : o.transition act now = .ok (next, t)) :
      Moves now o
        { order := next
          entries := [.ofTransition next.id name t internalActor now] }
  | timedOut {next : Order} {t : Transition} (overdue : o.isOverdue now = true)
      (accepted : o.transition .timeOut now = .ok (next, t)) :
      Moves now o
        { order := next
          followUp := Reaction.releasing next
          entries := [.ofTransition next.id "PaymentTimeout" t Saga.scanner now
            (some (next.failureReason.getD "payment timeout"))]
          notices := [.cancelled next (next.failureReason.getD "payment timeout") true now] }
  | reacted {s : Signal} {a : Applied} (reacts : o.react s now = .ok (.apply a)) :
      Moves now o
        { order := a.order
          followUp := a.followUp
          entries := a.transitions.map fun t => Saga.auditEntry s a.order t now
          notices := a.notice.toList }

end Service

/-- A stored order moves on. -/
inductive World.Step (w : World) : World → Prop where
  | moved {o : Order} {c : Changed} (stored : w.book.get? o.id = some o)
      (moves : Service.Moves w.clock o c) (accepted : w.book.objection c.order = none) :
      Step w (w.store c)

variable {w : World}

theorem OrderBook.WellKept.self {b : OrderBook} (hkept : b.WellKept) {id : OrderId} {o : Order}
    (ho : b.get? id = some o) : b.get? o.id = some o := by
  rw [(hkept _ _ ho).1, ho]

/-! ## What follows a save -/

namespace Shop

theorem yields_publish? {n : Option Notice} {ends : Unit → World → Prop} :
    (Shop.publish? n).Yields World.answer ends w ↔
      ends () { w with outbox := w.outbox.publishAll n.toList } := by
  cases n <;> rfl

end Shop

namespace Saga

theorem yields_recordAll_iff {es : List AuditEntry} {ends : Unit → World → Prop} :
    (recordAll es).Yields World.answer ends w ↔
      ends () { w with trail := w.trail.recordAll es } := by
  induction es generalizing w with
  | nil => rfl
  | cons e es ih => exact ih

theorem yields_settleStock {o : Order} {f : FollowUp} {ends : Unit → World → Prop} :
    (settleStock .direct o w.clock f).Yields World.answer ends w ↔
      ends () { w with
        ledger := f.ledger w.clock w.ledger
        trail := w.trail.recordAll (f.findings o w.clock w.ledger) } := by
  cases f with
  | leave => rfl
  | settle id =>
    rw [settleStock, yields_bind, Shop.yields_onStock, HoldDesk.direct, yields_bind, Yields]
    simp only [FollowUp.ledger, FollowUp.findings]
    rcases (Reservation.settle id).run (Stock.answer w.clock) w.ledger with ⟨_ | _, l⟩ <;> rfl
  | release id =>
    rw [settleStock, yields_bind, Shop.yields_onStock]
    rfl

theorem yields_afterSave_iff {s : Signal} {a : Applied} {ends : Unit → World → Prop} :
    (afterSave .direct s a).Yields World.answer ends w ↔
      ends () { w with
        ledger := a.followUp.ledger w.clock w.ledger
        trail := w.trail.recordAll
          ((a.transitions.map fun t => auditEntry s a.order t w.clock) ++
            a.followUp.findings a.order w.clock w.ledger)
        outbox := w.outbox.publishAll a.notice.toList } := by
  rw [afterSave, yields_bind, Shop.yields_now, yields_bind, yields_recordAll_iff, yields_bind,
    Shop.yields_publish?, AuditTrail.recordAll_append]
  exact yields_settleStock
    (w := { w with
      trail := w.trail.recordAll (a.transitions.map fun t => auditEntry s a.order t w.clock)
      outbox := w.outbox.publishAll a.notice.toList })

theorem yields_afterTimeOut_iff {o : Order} {t : Transition} {now : Instant}
    {ends : Unit → World → Prop} :
    (afterTimeOut .direct o t now).Yields World.answer ends w ↔
      ends () { w with
        ledger := (Reaction.releasing o).ledger w.clock w.ledger
        trail := w.trail.record (.ofTransition o.id "PaymentTimeout" t scanner now
          (some (o.failureReason.getD "payment timeout")))
        outbox := w.outbox.publish
          (.cancelled o (o.failureReason.getD "payment timeout") true now) } := by
  rw [afterTimeOut, yields_bind, Shop.yields_record, yields_bind, Shop.yields_publish,
    Reaction.releasing]
  cases o.reservation with
  | none => rfl
  | some id =>
    rw [yields_bind, Shop.yields_onStock]
    rfl

end Saga

theorem FollowUp.findings_releasing (o o' : Order) (now : Instant) (l : Ledger) :
    (Reaction.releasing o).findings o' now l = [] := by
  unfold Reaction.releasing
  split <;> rfl

/-- The world after an order is called off: its stock is given back, and this is recorded and
told. -/
theorem World.store_releasing (w : World) (o : Order) (e : AuditEntry) (n : Notice) :
    w.store { order := o, followUp := Reaction.releasing o, entries := [e], notices := [n] } =
      { w with
        ledger := (Reaction.releasing o).ledger w.clock w.ledger
        book := w.book.store o
        trail := w.trail.record e
        outbox := w.outbox.publish n } := by
  rw [World.store, FollowUp.findings_releasing]
  rfl

/-! ## What moves keep -/

namespace Service

variable {now : Instant} {o : Order} {c : Changed}

/-- What accepted actions keep that do not set the reservation, every move keeps. -/
theorem Moves.keeps {motive : Order → Prop} (h : Moves now o c)
    (step : ∀ {act x next t}, act.reserves = false → x.transition act now = .ok (next, t) →
      motive x → motive next)
    (init : motive o) : motive c.order := by
  cases h with
  | cancelled _ _ _ _ accepted | refunded _ _ _ _ accepted | timedOut _ accepted =>
    exact step rfl accepted init
  | requested request accepted => cases request <;> exact step rfl accepted init
  | reacted reacts => exact Order.react_keeps reacts step init

theorem Moves.samePlacement (h : Moves now o c) : o.SamePlacement c.order :=
  h.keeps (motive := o.SamePlacement)
    (fun _ ht hx => hx.trans (Order.samePlacement_of_transition ht)) (.refl o)

theorem Moves.version (h : Moves now o c) : c.order.version = o.version :=
  h.keeps (motive := fun x => x.version = o.version)
    (fun _ ht hx => (Order.version_of_transition ht).trans hx) rfl

theorem Moves.reservation (h : Moves now o c) : c.order.reservation = o.reservation :=
  h.keeps (motive := fun x => x.reservation = o.reservation)
    (fun hact ht hx => (Order.reservation_of_transition hact ht).trans hx) rfl

theorem Moves.expiresAt (h : Moves now o c) : c.order.expiresAt = o.expiresAt :=
  h.keeps (motive := fun x => x.expiresAt = o.expiresAt)
    (fun hact ht hx => (Order.expiresAt_of_transition hact ht).trans hx) rfl

end Service

theorem World.Step.wellKept {w' : World} (hkept : w.book.WellKept) (h : w.Step w') :
    w'.book.WellKept := by
  cases h with
  | moved stored moves _ =>
    refine hkept.store ?_
    rw [moves.version]
    exact Int.le_of_lt (hkept _ _ stored).2

/-! ## Signals and deadlines -/

namespace Saga

/-- One attempt at a signal changes nothing, or it moves the order on and is the last. -/
theorem yields_attempt_step (hkept : w.book.WellKept) (s : Signal) :
    (attempt .direct s).Yields World.answer
      (fun r w' => w' = w ∨ r.isSome = true ∧ w.Step w') w := by
  rw [attempt, yields_bind, Shop.yields_load]
  cases ho : w.book.get? s.order with
  | none => exact .inl rfl
  | some o =>
    have hself := hkept.self ho
    dsimp only
    rw [yields_bind, Shop.yields_now]
    cases hreact : o.react s w.clock with
    | error rejection => exact .inl rfl
    | ok reaction =>
      cases reaction with
      | duplicate shown => exact .inl rfl
      | apply a =>
        refine yields_bind.2 (Shop.yields_save_of (fun cause _ => .inl ?_) fun haccepted => ?_)
        · rfl
        · exact yields_bind.2 (yields_afterSave_iff.2
            (.inr ⟨rfl, .moved hself (.reacted hreact) haccepted⟩))

/-- Handling a signal moves one order on at most. -/
theorem yields_handle_step (hkept : w.book.WellKept) (retries : ConflictRetries) (s : Signal) :
    (handle .direct retries s).Yields World.answer
      (fun _ w' => ReflTransGen World.Step w w') w := by
  -- An attempt that has to be repeated has changed nothing.
  have within : ∀ attempts left, (handleWithin .direct s attempts left).Yields World.answer
      (fun _ w' => ReflTransGen World.Step w w') w := by
    intro attempts left
    induction left with
    | zero => exact .refl
    | succ left ih =>
      refine yields_bind.2 ((yields_attempt_step hkept s).mono fun r w' h => ?_)
      rcases h with rfl | ⟨hlast, hstep⟩
      · cases r with
        | none => exact ih
        | some outcome => exact .refl
      · cases r with
        | none => cases hlast
        | some outcome => exact .single hstep
  exact within _ _

/-- Timing out an order moves it on, or changes nothing. -/
theorem yields_timeOut_step (hkept : w.book.WellKept) (id : OrderId) :
    (timeOut .direct id).Yields World.answer (fun _ w' => w' = w ∨ w.Step w') w := by
  rw [timeOut, yields_bind, Shop.yields_load]
  cases ho : w.book.get? id with
  | none => exact .inl rfl
  | some o =>
    have hself := hkept.self ho
    dsimp only
    rw [yields_bind, Shop.yields_now]
    split
    · next hoverdue =>
      cases ht : o.transition .timeOut w.clock with
      | error rejection => exact .inl rfl
      | ok moved =>
        obtain ⟨next, t⟩ := moved
        refine yields_bind.2 (Shop.yields_save_of (fun cause _ => .inl ?_) fun haccepted => ?_)
        · dsimp only
          split <;> rfl
        · have hstep := World.Step.moved hself (.timedOut hoverdue ht) haccepted
          rw [World.store_releasing] at hstep
          exact yields_bind.2 (yields_afterTimeOut_iff.2 (.inr hstep))
    · exact .inl rfl

/-- Timing out several orders moves them on one after the other. -/
theorem yields_timeOutAll_step (hkept : w.book.WellKept) (count : Nat) (ids : List OrderId) :
    (timeOutAll .direct count ids).Yields World.answer
      (fun _ w' => ReflTransGen World.Step w w') w := by
  induction ids generalizing w count with
  | nil => exact .refl
  | cons id ids ih =>
    refine yields_bind.2 ((yields_timeOut_step hkept id).mono fun r w' h => ?_)
    have hfirst : w'.book.WellKept ∧ ReflTransGen World.Step w w' := by
      rcases h with rfl | hstep
      · exact ⟨hkept, .refl⟩
      · exact ⟨hstep.wellKept hkept, .single hstep⟩
    have hrest : ∀ count, (timeOutAll .direct count ids).Yields World.answer
        (fun _ w'' => ReflTransGen World.Step w w'') w' := fun count =>
      (ih hfirst.1 count).mono fun _ _ h => hfirst.2.trans h
    rcases r with e | _ | _ <;> exact hrest _

/-- A scan for overdue payments moves orders on one after the other. -/
theorem yields_scan_step (hkept : w.book.WellKept) (batch : BatchSize) :
    (scan .direct batch).Yields World.answer (fun _ w' => ReflTransGen World.Step w w') w := by
  refine yields_bind.2 (Shop.yields_now.2 (yields_bind.2 (Shop.yields_overdue.2 ?_)))
  exact yields_bind.2 ((yields_timeOutAll_step hkept 0 _).mono fun _ _ h => h)

end Saga

/-! ## Requests -/

namespace Service

open Relation

/-- An order that accepts what it is asked for is saved, and what follows makes this a move. -/
theorem yields_acceptAndSave_step {α : Type} {o : Order} {act : Action}
    {rest : Order × Transition → Order → Operation α}
    (hrest : ∀ {next t}, o.transition act w.clock = .ok (next, t) →
      w.book.objection next = none →
      (rest (next, t) { next with version := next.version + 1 }).run.Yields World.answer
        (fun _ w' => w.Step w') { w with book := w.book.store next }) :
    (accept o act w.clock >>= fun moved => saveOrder moved.1 >>= rest moved).run.Yields World.answer
      (fun _ w' => ReflTransGen World.Step w w') w := by
  refine yields_run_bind.2 ((yields_accept o act w.clock).mono ?_)
  intro result _ hresult
  obtain ⟨rfl, ht⟩ := hresult
  cases result with
  | error e => exact .refl
  | ok moved =>
    obtain ⟨next, t⟩ := moved
    refine yields_run_bind.2 (yields_saveOrder (fun e _ => .refl) fun haccepted => ?_)
    exact (hrest (ht _ _ rfl) haccepted).mono fun _ _ h => .single h

/-- What another service asks of an order moves it on. -/
theorem yields_moveOn_step (hkept : w.book.WellKept) {id : OrderId} {name : String} {act : Action}
    (request : Requested name act) :
    (moveOn id name act).run.Yields World.answer (fun _ w' => ReflTransGen World.Step w w') w := by
  refine yields_run_lift.2 (Shop.yields_now.2 (yields_run_bind.2 ((yields_loadOrder id).mono ?_)))
  intro result _ hresult
  obtain ⟨rfl, ho⟩ := hresult
  cases result with
  | error e => exact .refl
  | ok o =>
    have ho := ho _ rfl
    obtain rfl := (hkept _ _ ho).1
    refine yields_acceptAndSave_step fun {next t} ht haccepted => ?_
    have hid : next.id = o.id := (Order.samePlacement_of_transition ht).id
    have hstep := World.Step.moved ho (.requested request ht) haccepted
    rw [hid] at hstep
    exact hstep

theorem yields_releaseStock (o : Order) :
    (releaseStock o).Yields World.answer
      (fun _ w' => w' = { w with ledger := (Reaction.releasing o).ledger w.clock w.ledger }) w := by
  unfold releaseStock Reaction.releasing
  cases o.reservation with
  | none => rfl
  | some id =>
    refine yields_bind.2 (Shop.yields_onStock.2 ?_)
    rw [Yields]
    dsimp only [FollowUp.ledger]
    rcases (Reservation.release id).run (Stock.answer w.clock) w.ledger with ⟨_ | _, l⟩ <;> rfl

/-- What an owner may ask of an order moves it on. -/
theorem yields_owned_step {α : Type} (hkept : w.book.WellKept) (id : OrderId) (user : UserId)
    (permit : Order → Except Rejection Unit) (act : Action)
    {rest : Instant → Order × Transition → Order → Operation α}
    (hrest : ∀ {o next t}, w.book.get? o.id = some o → permit o = .ok () →
      o.transition act w.clock = .ok (next, t) → w.book.objection next = none →
      (rest w.clock (next, t) { next with version := next.version + 1 }).run.Yields World.answer
        (fun _ w' => w.Step w') { w with book := w.book.store next }) :
    (loadOwned id user >>= fun o => require .order (permit o) >>= fun _ =>
        (liftM Shop.now : Operation Instant) >>= fun now => accept o act now >>= fun moved =>
          saveOrder moved.1 >>= rest now moved).run.Yields World.answer
      (fun _ w' => ReflTransGen World.Step w w') w := by
  refine yields_run_bind.2 ((yields_loadOwned id user).mono ?_)
  intro result _ hresult
  obtain ⟨rfl, ho⟩ := hresult
  cases result with
  | error e => exact .refl
  | ok o =>
    have ho := hkept.self (ho _ rfl)
    rw [goOn_ok, yields_run_bind, require_run, yields_done]
    cases hpermitted : permit o with
    | error rejection => exact .refl
    | ok _ =>
      refine yields_run_lift.2 (Shop.yields_now.2 ?_)
      exact yields_acceptAndSave_step fun ht haccepted => hrest ho hpermitted ht haccepted

theorem yields_cancelOrder_step (hkept : w.book.WellKept) (id : OrderId) (user : UserId)
    (reason : Option String) :
    (cancelOrder id user reason).run.Yields World.answer
      (fun _ w' => ReflTransGen World.Step w w') w := by
  refine yields_owned_step hkept id user Order.permitOwnerCancel
    (.cancel (cancellationReason reason)) fun ho hpermitted ht haccepted => ?_
  refine yields_run_lift.2 ((yields_releaseStock _).mono fun released w' hw => ?_)
  have hstep := World.Step.moved ho (.cancelled user reason released hpermitted ht) haccepted
  rw [World.store_releasing] at hstep
  rw [hw]
  exact hstep

theorem yields_refundOrder_step (hkept : w.book.WellKept) (id : OrderId) (user : UserId)
    (reason : Option String) (refund : RefundId) :
    (refundOrder id user reason refund).run.Yields World.answer
      (fun _ w' => ReflTransGen World.Step w w') w := by
  refine yields_owned_step hkept id user Order.permitOwnerRefund
    (.refund refund (refundReason reason)) fun ho hpermitted ht haccepted => ?_
  have hstep := World.Step.moved ho (.refunded user reason refund hpermitted ht) haccepted
  refine yields_run_lift.2 (Shop.yields_record.2 (yields_run_lift.2 ?_))
  exact Shop.yields_publish?.2 hstep

/-! ## New orders -/

/-- The order that is saved for a request once its stock is held. -/
def CreateRequest.reserved (r : CreateRequest) (draw : Draw) (h : Hold) (now : Instant) : Order :=
  (Order.ofRequest (r.newOrder draw now) now).apply (.stockReserved h.id h.expiresAt now)

/-- The reservation of what a request asks for, on a ledger. -/
def CreateRequest.reserve (r : CreateRequest) (budget : RetryBudget) (ttl : Span) (draw : Draw)
    (now : Instant) (l : Ledger) : Ending (Except StockError Hold) × Ledger :=
  (Reservation.reserve budget r.store r.stockLines draw.reservation ttl).run (Stock.answer now) l

/-- The new order with what is recorded and told of it. -/
def CreateRequest.creation (r : CreateRequest) (draw : Draw) (h : Hold) (now : Instant) :
    Changed where
  order := r.reserved draw h now
  entries :=
    [{ order := draw.order, action := "CreateOrder", source := none, target := .created,
       actor := r.user.toText, recordedAt := now },
      .ofTransition draw.order "MarkStockReserved"
        ⟨.created, .confirmed, .stockReserved h.id h.expiresAt now⟩ r.user.toText now
        (some h.id.text)]
  notices := .created (r.reserved draw h now) :: (Notice.reserved? (r.reserved draw h now)).toList

/-- What a request for a new order can make of the world. -/
inductive Creates (budget : RetryBudget) (ttl : Span) (r : CreateRequest) (draw : Draw)
    (w : World) : World → Prop where
  | refused (keys : RequestKeys) : Creates budget ttl r draw w { w with keys }
  | unreserved {e : StockError} {l : Ledger} (keys : RequestKeys)
      (reserves : r.reserve budget ttl draw w.clock w.ledger = (.answered (.error e), l)) :
      Creates budget ttl r draw w { w with ledger := l, keys }
  | stopped {l : Ledger} (keys : RequestKeys)
      (reserves : r.reserve budget ttl draw w.clock w.ledger = (.brokeOff, l)) :
      Creates budget ttl r draw w { w with ledger := l, keys }
  | unsaved {h : Hold} {l : Ledger} (keys : RequestKeys)
      (reserves : r.reserve budget ttl draw w.clock w.ledger = (.answered (.ok h), l)) :
      Creates budget ttl r draw w
        { w with ledger := (FollowUp.release h.id).ledger w.clock l, keys }
  | created {h : Hold} {l : Ledger} (keys : RequestKeys)
      (placeable : Order.placementObjection r.lines = none)
      (reserves : r.reserve budget ttl draw w.clock w.ledger = (.answered (.ok h), l))
      (accepted : w.book.objection (r.reserved draw h w.clock) = none) :
      Creates budget ttl r draw w
        { ({ w with ledger := l } : World).store (r.creation draw h w.clock) with keys }

variable {budget : RetryBudget} {ttl : Span} {r : CreateRequest} {draw : Draw}

theorem Creates.withKeys {w' : World} (h : Creates budget ttl r draw w w') (keys : RequestKeys) :
    Creates budget ttl r draw w { w' with keys } := by
  cases h with
  | refused => exact .refused keys
  | unreserved _ reserves => exact .unreserved keys reserves
  | stopped _ reserves => exact .stopped keys reserves
  | unsaved _ reserves => exact .unsaved keys reserves
  | created _ placeable reserves accepted => exact .created keys placeable reserves accepted

theorem Creates.of_keys {w' : World} {keys : RequestKeys}
    (h : Creates budget ttl r draw { w with keys } w') : Creates budget ttl r draw w w' := by
  cases h with
  | refused keys => exact .refused keys
  | unreserved keys reserves => exact .unreserved keys reserves
  | stopped keys reserves => exact .stopped keys reserves
  | unsaved keys reserves => exact .unsaved keys reserves
  | created keys placeable reserves accepted => exact .created keys placeable reserves accepted

/-- A new order is saved with its hold, or its stock is given back. -/
theorem yields_saveOrRelease_cases {o : Order} (hstatus : o.status = .created) (h : Hold)
    (now : Instant) :
    (saveOrRelease o h now).run.Yields World.answer
      (fun r w' =>
        let next := o.apply (.stockReserved h.id h.expiresAt now)
        (w.book.objection next = none ∧
          r = .ok ({ next with version := next.version + 1 },
            ⟨.created, .confirmed, .stockReserved h.id h.expiresAt now⟩) ∧
          w' = { w with book := w.book.store next }) ∨
        ∃ e, r = .error e ∧
          w' = { w with ledger := (FollowUp.release h.id).ledger w.clock w.ledger }) w := by
  refine yields_bind.2 ?_
  rw [saveReserved, yields_run_bind, accept, require_run, transition_markStockReserved hstatus,
    yields_done]
  refine yields_run_bind.2 (yields_saveOrder (fun e _ => ?_) fun haccepted => ?_)
  · rw [goOn_error, yields_done]
    refine yields_bind.2 (yields_bind.2 (Shop.yields_onStock.2 ?_))
    rw [Yields]
    rcases hrun : ((Reservation.release h.id).run (Stock.answer w.clock) w.ledger).1 with _ | _ <;>
      exact .inr ⟨_, rfl, rfl⟩
  · exact .inl ⟨haccepted, rfl, rfl⟩

theorem yields_announceCreation {o : Order} {h : Hold} {t : Transition} {now : Instant}
    {ends : Unit → World → Prop} :
    (announceCreation o h t now).Yields World.answer ends w ↔
      ends () { w with
        trail := w.trail.recordAll
          [{ order := o.id, action := "CreateOrder", source := none, target := .created,
             actor := o.user.toText, recordedAt := now },
            .ofTransition o.id "MarkStockReserved" t o.user.toText now (some h.id.text)]
        outbox := w.outbox.publishAll (.created o :: (Notice.reserved? o).toList) } := by
  rw [announceCreation, yields_bind, Shop.yields_record, yields_bind, Shop.yields_record,
    yields_bind, Shop.yields_publish, Shop.yields_publish?]
  rfl

theorem yields_storeReserved_creates {reserved : Except StockError Hold} {l : Ledger}
    (hplace : Order.placementObjection r.lines = none)
    (hl : r.reserve budget ttl draw w.clock w.ledger = (.answered reserved, l)) :
    (storeReserved (.ofRequest (r.newOrder draw w.clock) w.clock) w.clock reserved).run.Yields
      World.answer (fun _ w' => Creates budget ttl r draw w w') { w with ledger := l } := by
  rw [storeReserved, yields_run_bind, require_run, yields_done]
  cases reserved with
  | error e => exact .unreserved w.keys hl
  | ok h =>
    refine yields_run_bind.2 ((yields_saveOrRelease_cases rfl h w.clock).mono fun _ w' hw => ?_)
    rcases hw with ⟨haccepted, rfl, rfl⟩ | ⟨e, rfl, rfl⟩
    · exact yields_run_lift.2 (yields_announceCreation.2 (.created w.keys hplace hl haccepted))
    · exact .unsaved w.keys hl

/-- Placing an order and holding its stock. -/
theorem yields_placeAndReserve_creates (budget : RetryBudget) (ttl : Span) (r : CreateRequest)
    (draw : Draw) :
    (placeAndReserve budget ttl r draw).run.Yields World.answer
      (fun _ w' => Creates budget ttl r draw w w') w := by
  refine yields_run_bind.2 ((yields_requireListed r).mono ?_)
  intro result w' hsame
  subst w'
  cases result with
  | error e => exact .refused w.keys
  | ok _ =>
    refine yields_run_lift.2 (Shop.yields_now.2 ?_)
    rw [yields_run_bind, require_run, yields_done, Order.place]
    cases hplace : Order.placementObjection (r.newOrder draw w.clock).lines with
    | some objection => exact .refused w.keys
    | none =>
      refine yields_run_lift.2 (Shop.yields_onStock.2 ?_)
      have hreserve : (Reservation.reserve budget r.store r.stockLines draw.reservation ttl).Yields
          (Stock.answer w.clock)
          (fun a l => r.reserve budget ttl draw w.clock w.ledger = (a, l)) w.ledger := rfl
      refine hreserve.mono fun ending l hl => ?_
      cases ending with
      | brokeOff => exact .stopped w.keys hl
      | answered reserved =>
        refine yields_run_bind.2 ((yields_storeReserved_creates hplace hl).mono ?_)
        intro result w' hcreates
        cases result <;> exact hcreates

theorem yields_createOrder_creates (budget : RetryBudget) (ttl : Span) (r : CreateRequest)
    (draw : Draw) :
    (createOrder budget ttl r draw).run.Yields World.answer
      (fun _ w' => Creates budget ttl r draw w w') w := by
  rw [createOrder, yields_run_bind, call_run, yields_bind, Shop.yields_claim, yields_done]
  rcases (w.keys.claim r.requestKey).1 with e | _ | _ | id
  · exact .refused _
  · refine yields_bind.2 ((yields_placeAndReserve_creates budget ttl r draw).mono ?_)
    intro result w' hcreates
    rcases result with e | o | _ <;> exact hcreates.of_keys.withKeys _
  · exact .refused _
  · refine yields_run_bind.2 ((yields_loadOrder id).mono fun result w' hload => ?_)
    obtain ⟨rfl, -⟩ := hload
    cases result <;> exact .refused _

/-! ## All commands -/

/-- What the command can make of the world. -/
def Command.Effects : Command → World → World → Prop
  | create budget ttl r draw => Creates budget ttl r draw
  | _ => ReflTransGen World.Step

/-- Run alone, a command has one of its effects and no other. -/
theorem Command.yields_effects (hkept : w.book.WellKept) (c : Command) :
    (c.script .direct).Yields World.answer (fun _ w' => c.Effects w w') w := by
  cases c with
  | create budget ttl r draw => exact yields_map.2 (yields_createOrder_creates budget ttl r draw)
  | cancel id user reason => exact yields_map.2 (yields_cancelOrder_step hkept id user reason)
  | refund id user reason made =>
    exact yields_map.2 (yields_refundOrder_step hkept id user reason made)
  | linkPayment id payment => exact yields_map.2 (yields_moveOn_step hkept (.linkPayment payment))
  | ship id => exact yields_map.2 (yields_moveOn_step hkept .ship)
  | deliver id => exact yields_map.2 (yields_moveOn_step hkept .deliver)
  | completeRefund id => exact yields_map.2 (yields_moveOn_step hkept .completeRefund)
  | handle retries signal => exact yields_map.2 (Saga.yields_handle_step hkept retries signal)
  | scan batch => exact yields_map.2 (Saga.yields_scan_step hkept batch)

/-- What moves and creations keep, every command keeps. -/
theorem Command.keeps {motive : World → Prop} (kept : motive w → w.book.WellKept)
    (step : ∀ {w₁ w₂}, motive w₁ → World.Step w₁ w₂ → motive w₂)
    (creates : ∀ {budget ttl r draw w'}, motive w → Creates budget ttl r draw w w' → motive w')
    (c : Command) (init : motive w) :
    (c.script .direct).Yields World.answer (fun _ w' => motive w') w := by
  have steps : ∀ {w'}, ReflTransGen World.Step w w' → motive w' := by
    intro w' hsteps
    induction hsteps with
    | refl => exact init
    | tail _ hstep ih => exact step ih hstep
  refine (c.yields_effects (kept init)).mono ?_
  intro _ w' heffects
  cases c with
  | create budget ttl r draw => exact creates init heffects
  | _ => exact steps heffects

end Service
end Fulfilment
