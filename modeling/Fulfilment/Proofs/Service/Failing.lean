import Fulfilment.Proofs.Saga.Alone
import Fulfilment.Proofs.Service.Accounting

/-!
# Operations that fail

What an operation leaves behind when it fails while nobody else acts. Whatever works on a stored
order saves last what can still be refused, so it fails before it has changed anything (`Clean`).
Creating an order claims a key and takes stock before its save can be refused. Both are given back,
and only the revisions of the counters tell that they were taken (`World.Untouched`).
-/
namespace Fulfilment

open Script

/-- Nothing tells the worlds apart but the revisions of counters, and how many writes are still made
to fail. -/
structure World.Untouched (w w' : World) : Prop where
  clock : w'.clock = w.clock
  ledger : w.ledger.Alike w'.ledger
  book : w'.book = w.book
  outbox : w'.outbox = w.outbox
  trail : w'.trail = w.trail
  keys : w'.keys = w.keys
  catalog : w'.catalog = w.catalog

@[refl] theorem World.Untouched.refl (w : World) : w.Untouched w :=
  ⟨rfl, .refl _, rfl, rfl, rfl, rfl, rfl⟩

/-- A key is claimed and can be given back without a trace, or it is not claimed. -/
theorem RequestKeys.claim_cases (ks : RequestKeys) (k : RequestKey) :
    (ks.claim k).1 = .ok .acquired ∧ (ks.claim k).2.release k = ks ∨
      (ks.claim k).1 ≠ .ok .acquired ∧ (ks.claim k).2 = ks := by
  unfold claim
  split
  · exact .inr ⟨by simp, rfl⟩
  · split
    · exact .inr ⟨by simp, rfl⟩
    · exact .inr ⟨by simp, rfl⟩
    · next hfree =>
      refine .inl ⟨rfl, ?_⟩
      simp [release, Table.erase_insert, Table.erase_of_get?_eq_none hfree]

/-- What holds of the world if the outcome is a failure. -/
def IfFailed {ε α : Type} (P : World → Prop) : Except ε α → World → Prop
  | .ok _, _ => True
  | .error _, w => P w

namespace Operation

variable {α β : Type} {p : Operation α} {f : α → Operation β} {w : World}

/-- The operation changes nothing. -/
def Quiet (p : Operation α) : Prop := ∀ w, p.run.Yields World.answer (fun _ w' => w' = w) w

/-- The operation changes nothing if it fails. -/
def Clean (p : Operation α) : Prop := ∀ w, p.run.Yields World.answer (IfFailed (· = w)) w

/-- The operation does not fail. -/
def Sure (p : Operation α) : Prop := ∀ w, p.run.Yields World.answer (IfFailed fun _ => False) w

/-- What changes nothing may come before anything. -/
theorem Quiet.bind (hp : Quiet p) (hf : ∀ a, Clean (f a)) : Clean (p >>= f) := by
  intro w
  refine yields_run_bind.2 ((hp w).mono ?_)
  intro result w' hw
  subst hw
  cases result with
  | error e => rfl
  | ok a => exact hf a w'

theorem Sure.ifFailed (hp : Sure p) (P : World → Prop) (w : World) :
    p.run.Yields World.answer (IfFailed P) w := by
  refine (hp w).mono fun r w' hr => ?_
  cases r with
  | error e => exact hr.elim
  | ok a => trivial

/-- What cannot fail may come after anything. -/
theorem Clean.bind (hp : Clean p) (hf : ∀ a, Sure (f a)) : Clean (p >>= f) := by
  intro w
  refine yields_run_bind.2 ((hp w).mono ?_)
  intro result w' hw
  cases result with
  | error e => exact hw
  | ok a => exact (hf a).ifFailed _ w'

theorem Sure.pure (a : α) : Sure (Pure.pure a) := fun _ => trivial

theorem Sure.lift_bind {q : Script Shop.calls α} (hf : ∀ a, Sure (f a)) :
    Sure ((liftM q : Operation α) >>= f) :=
  fun _ => yields_run_lift.2 (hf _ _)

theorem quiet_now : Quiet (liftM Shop.now) := fun _ => rfl

theorem quiet_loadOrder (id : OrderId) : Quiet (loadOrder id) :=
  fun _ => (yields_loadOrder id).mono fun _ _ h => h.1

theorem quiet_loadOwned (id : OrderId) (user : UserId) : Quiet (loadOwned id user) :=
  fun _ => (yields_loadOwned id user).mono fun _ _ h => h.1

theorem quiet_accept (o : Order) (act : Action) (now : Instant) : Quiet (accept o act now) :=
  fun _ => (yields_accept o act now).mono fun _ _ h => h.1

theorem quiet_require {ε : Type} (cause : ε → ServiceError) (r : Except ε α) :
    Quiet (require cause r) := by
  intro w
  rw [require_run, yields_done]

theorem clean_saveOrder (o : Order) : Clean (saveOrder o) :=
  fun _ => yields_saveOrder (fun _ _ => rfl) fun _ => trivial

theorem clean_acceptAndSave {o : Order} {act : Action} {now : Instant}
    {rest : Order × Transition → Order → Operation β} (hrest : ∀ moved o, Sure (rest moved o)) :
    Clean (accept o act now >>= fun moved => saveOrder moved.1 >>= rest moved) :=
  (quiet_accept o act now).bind fun moved => (clean_saveOrder moved.1).bind (hrest moved)

end Operation

namespace Service

open Operation

variable {w : World}

/-! ## Commands on one order -/

theorem clean_moveOn (id : OrderId) (name : String) (act : Action) :
    Clean (moveOn id name act) := by
  refine quiet_now.bind fun now => (quiet_loadOrder id).bind fun o => ?_
  refine clean_acceptAndSave fun moved saved => ?_
  exact .lift_bind fun _ => .lift_bind fun _ => .pure _

theorem clean_cancelOrder (id : OrderId) (user : UserId) (reason : Option String) :
    Clean (cancelOrder id user reason) := by
  refine (quiet_loadOwned id user).bind fun o => Quiet.bind (quiet_require _ _) fun _ => ?_
  refine quiet_now.bind fun now => clean_acceptAndSave fun moved saved => ?_
  exact .lift_bind fun _ => .lift_bind fun _ => .lift_bind fun _ => .pure _

theorem clean_refundOrder (id : OrderId) (user : UserId) (reason : Option String)
    (refund : RefundId) : Clean (refundOrder id user reason refund) := by
  refine (quiet_loadOwned id user).bind fun o => Quiet.bind (quiet_require _ _) fun _ => ?_
  refine quiet_now.bind fun now => clean_acceptAndSave fun moved saved => ?_
  exact .lift_bind fun _ => .lift_bind fun _ => .pure _

/-! ## Creating orders -/

/-- If a new order is not saved with its hold, then the hold is given back. -/
theorem yields_saveOrRelease {o : Order} {h : Hold} {l : Ledger} (hid : w.ledger.Unknown h.id)
    (hinc : w.ledger.incrementsFail = false) (hl : w.ledger.Drawn l h.lines) (now : Instant) :
    (saveOrRelease o h now).run.Yields World.answer (IfFailed w.Untouched)
      { w with ledger := l.withHold h } := by
  have hsave : Clean (saveReserved o h now) := clean_acceptAndSave fun moved saved => .pure _
  refine yields_bind.2 ((hsave _).mono ?_)
  intro result w' hw
  cases result with
  | ok saved => trivial
  | error e =>
    subst hw
    refine yields_bind.2 (yields_bind.2 (Shop.yields_onStock.2 ?_))
    refine (Reservation.yields_release_of_unknown hid hinc hl).mono ?_
    intro _ m hreleased
    obtain ⟨rfl, hm⟩ := hreleased
    exact { World.Untouched.refl w with ledger := hm.alike }

/-- If a new order is not stored with its hold, then the hold is given back. -/
theorem yields_storeReserved {o : Order} {h : Hold} {l : Ledger} (hid : w.ledger.Unknown h.id)
    (hinc : w.ledger.incrementsFail = false) (hl : w.ledger.Drawn l h.lines) (now : Instant) :
    (storeReserved o now (.ok h)).run.Yields World.answer (IfFailed w.Untouched)
      { w with ledger := l.withHold h } := by
  rw [storeReserved, yields_run_bind, require_run, yields_done]
  refine yields_run_bind.2 ((yields_saveOrRelease hid hinc hl now).mono ?_)
  intro result w' hw
  cases result with
  | error e => exact hw
  | ok saved => exact Sure.ifFailed (.lift_bind fun _ => .pure _) _ w'

/-- If an order cannot be placed with its stock, then all stock is given back. -/
theorem yields_placeAndReserve {draw : Draw} (hid : w.ledger.Unknown draw.reservation)
    (hinc : w.ledger.incrementsFail = false) (budget : RetryBudget) (ttl : Span)
    (r : CreateRequest) :
    (placeAndReserve budget ttl r draw).run.Yields World.answer (IfFailed w.Untouched) w := by
  refine yields_run_bind.2 ((yields_requireListed r).mono ?_)
  intro result w' hsame
  subst w'
  cases result with
  | error e => exact .refl w
  | ok _ =>
    refine yields_run_lift.2 (Shop.yields_now.2 ?_)
    rw [yields_run_bind, require_run, yields_done, Order.place]
    split
    · exact .refl w
    · refine yields_run_lift.2 (Shop.yields_onStock.2 ?_)
      refine (Reservation.yields_reserve_of_unknown hid hinc budget r.store _ ttl).mono ?_
      intro ending m hm
      rcases ending with (e | h) | _
      · exact { World.Untouched.refl w with ledger := hm.alike }
      · obtain ⟨deadline, -, rfl, l, hl, rfl⟩ := hm
        refine yields_run_bind.2 ((yields_storeReserved hid hinc hl _).mono ?_)
        intro result w' hw
        cases result with
        | error e => exact hw
        | ok o => trivial
      · trivial

/-- If an order cannot be created, then its key is given back. -/
theorem yields_createOrder {draw : Draw} (hid : w.ledger.Unknown draw.reservation)
    (hinc : w.ledger.incrementsFail = false) (budget : RetryBudget) (ttl : Span)
    (r : CreateRequest) :
    (createOrder budget ttl r draw).run.Yields World.answer (IfFailed w.Untouched) w := by
  rw [createOrder, yields_run_bind, call_run, yields_bind, Shop.yields_claim, yields_done]
  rcases w.keys.claim_cases r.requestKey with ⟨hclaim, hrelease⟩ | ⟨hclaim, hsame⟩
  · rw [hclaim]
    let claimed : World := { w with keys := (w.keys.claim r.requestKey).2 }
    have hplace : (placeAndReserve budget ttl r draw).run.Yields World.answer
        (IfFailed claimed.Untouched) claimed :=
      yields_placeAndReserve (w := claimed) hid hinc budget ttl r
    refine yields_bind.2 (hplace.mono ?_)
    intro result w' hw
    rcases result with e | o | _
    · have hw : claimed.Untouched w' := hw
      have hkeys : w'.keys.release r.requestKey = w.keys := by rw [hw.keys, hrelease]
      exact ⟨hw.clock, hw.ledger, hw.book, hw.outbox, hw.trail, hkeys, hw.catalog⟩
    · trivial
    · trivial
  · rw [hsame]
    rcases hreply : (w.keys.claim r.requestKey).1 with e | _ | _ | id
    · exact .refl w
    · exact absurd hreply hclaim
    · exact .refl w
    · refine yields_run_bind.2 ((quiet_loadOrder id w).mono fun result w' hw => ?_)
      subst hw
      cases result with
      | error e => exact .refl w'
      | ok o => trivial

/-! ## Everything that changes orders -/

/-- The operation has failed. One that broke off has not, as it answers nothing. -/
def Answer.isError : Answer → Bool
  | order r => !r.isOk
  | handled r => !r.isOk
  | scanned r => !r.isOk
  | brokeOff => false

/-- A reservation that is drawn for a new order is not known yet. -/
def Command.Fresh (w : World) : Command → Prop
  | create _ _ _ draw => w.ledger.Unknown draw.reservation
  | _ => True

/-- An operation that fails cleanly leaves no trace when it fails. -/
theorem untouched_of_clean {p : Operation Order} (h : Clean p) (w : World) :
    (Answer.order <$> p.run).Yields World.answer
      (fun answer w' => answer.isError = true → w.Untouched w') w := by
  refine yields_map.2 ((h w).mono fun r w' hw hfailed => ?_)
  cases r with
  | ok o => cases hfailed
  | error e =>
    have hw : w' = w := hw
    rw [hw]

/-- A failed command leaves no trace. -/
theorem yields_command (hinc : w.ledger.incrementsFail = false) (desk : HoldDesk) {c : Command}
    (hfresh : c.Fresh w) :
    (c.script desk).Yields World.answer
      (fun answer w' => answer.isError = true → w.Untouched w') w := by
  cases c with
  | create budget ttl request draw =>
    refine yields_map.2 ((yields_createOrder hfresh hinc budget ttl request).mono ?_)
    intro r w' hw hfailed
    match r with
    | .ok (.answered o) | .ok .brokeOff => cases hfailed
    | .error e => exact hw
  | cancel id user reason => exact untouched_of_clean (clean_cancelOrder id user reason) w
  | refund id user reason refund =>
    exact untouched_of_clean (clean_refundOrder id user reason refund) w
  | linkPayment id => exact untouched_of_clean (clean_moveOn id _ _) w
  | ship id => exact untouched_of_clean (clean_moveOn id _ _) w
  | deliver id => exact untouched_of_clean (clean_moveOn id _ _) w
  | completeRefund id => exact untouched_of_clean (clean_moveOn id _ _) w
  | handle retries s =>
    refine yields_map.2 ((Saga.yields_handle desk retries s w).mono fun r w' hw hfailed => ?_)
    cases r with
    | ok handled => cases hfailed
    | error e =>
      obtain rfl := hw.eq_of_error
      rfl
  | scan batch =>
    -- The book always answers which orders are overdue, so no scan fails.
    refine yields_map.2 (yields_bind.2 (Shop.yields_now.2 (yields_bind.2 ?_)))
    exact Shop.yields_overdue.2 (yields_bind.2 nofun)

theorem yields_process (desk : HoldDesk) (retries : ConflictRetries) (payload : ByteArray)
    (w : World) : (Saga.process desk retries payload).Yields World.answer
      (fun acknowledgement w' => acknowledgement ≠ .ack → w' = w) w := by
  cases hs : Saga.signalOf? payload with
  | none =>
    rw [Saga.process, hs]
    exact fun _ => rfl
  | some s =>
    rw [Saga.process_of_signal hs]
    refine yields_map.2 ((Saga.yields_handle desk retries s w).mono fun r w' hw hnot => ?_)
    cases r with
    | ok handled => exact absurd rfl hnot
    | error e => exact hw.eq_of_error

/-- **Failed operations leave no trace.** A command that answers an error, and a delivery that is
not acknowledged, leave the orders, the stock, the holds, the audit trail, what was told to others
and the request keys as they were. -/
theorem failure_leaves_no_trace {w : World} (hinc : w.ledger.incrementsFail = false)
    (desk : HoldDesk) :
    (∀ c : Command, c.Fresh w → ((c.script desk).run World.answer w).1.isError = true →
      w.Untouched ((c.script desk).run World.answer w).2) ∧
    ∀ retries payload, ((Saga.process desk retries payload).run World.answer w).1 ≠ .ack →
      w.Untouched ((Saga.process desk retries payload).run World.answer w).2 := by
  constructor
  · intro c hfresh
    exact yields_command hinc desk hfresh
  · intro retries payload hnot
    rw [yields_process desk retries payload w hnot]

/-- The shop while orders cannot be saved. -/
def unsavingShop : World := { widgetShop with book := { failing := true } }

def orderWidgets : Command :=
  .create (.ofNat 10) (.ofMinutes 15) twoWidgets ⟨⟨.ofNat 2⟩, ⟨"first"⟩, 0⟩

/-- Handling a payload that is no signal. -/
def processNothing : Script Shop.calls Saga.Acknowledgement :=
  Saga.process .direct Saga.defaultRetries .empty

/-- The two widgets are taken and given back. -/
theorem unsaved_widgets_leave_no_trace :
    unsavingShop.ledger.incrementsFail = false ∧ orderWidgets.Fresh unsavingShop ∧
      ((orderWidgets.script .direct).run World.answer unsavingShop).1.isError = true ∧
      ((orderWidgets.script .direct).run World.answer unsavingShop).2.ledger.level? ⟨"widget"⟩ =
        some ⟨5, 3⟩ ∧
      unsavingShop.Untouched ((orderWidgets.script .direct).run World.answer unsavingShop).2 ∧
      (processNothing.run World.answer unsavingShop).1 ≠ .ack ∧
      unsavingShop.Untouched (processNothing.run World.answer unsavingShop).2 := by
  have hfresh : orderWidgets.Fresh unsavingShop := ⟨rfl, rfl, fun _ => rfl⟩
  have hfailed :
      ((orderWidgets.script .direct).run World.answer unsavingShop).1.isError = true := by
    decide +kernel
  have hparked : (processNothing.run World.answer unsavingShop).1 ≠ .ack := by decide +kernel
  have hnone := failure_leaves_no_trace (w := unsavingShop) rfl .direct
  exact ⟨rfl, hfresh, hfailed, by decide +kernel, hnone.1 _ hfresh hfailed, hparked,
    hnone.2 _ _ hparked⟩

end Service
end Fulfilment
