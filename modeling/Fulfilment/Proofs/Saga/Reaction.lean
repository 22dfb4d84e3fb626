import Fulfilment.Proofs.Order.Lifecycle
import Fulfilment.Saga.Reaction

/-!
# What reactions do

A reaction that changes an order is one accepted action, a confirmation or a cancellation, or it is
the actions of a completed payment, which end with the preparation of the order.
-/
namespace Fulfilment

namespace Signal

/-- The status that the signal aims at. -/
def target : Signal → Status
  | inventoryReserved .. => .confirmed
  | paymentCompleted .. => .preparing
  | _ => .cancelled

/-- The payment that the signal says is completed. -/
def paid? : Signal → Option PaymentId
  | paymentCompleted _ payment .. => some payment
  | _ => none

end Signal

variable {o : Order} {now : Instant} {a : Applied}

namespace Reaction

/-- An order that is confirmed by a reaction accepts this, and it is told. -/
theorem of_confirm (h : confirm o now = .ok (.apply a)) :
    ∃ next t, o.transition .confirm now = .ok (next, t) ∧
      a = { order := next, transitions := [t], notice := some (.confirmed next now) } := by
  unfold confirm at h
  split at h
  · cases h
  · split at h
    · cases h
    · cases h
      exact ⟨_, _, ‹_›, rfl⟩

/-- An order that is cancelled by a reaction accepts this, and it is told. -/
theorem of_cancel {reason told : String} {restoreStock : Bool} {followUp : FollowUp}
    (h : cancel o reason told restoreStock followUp now = .ok (.apply a)) :
    ∃ next t, o.transition (.cancel reason) now = .ok (next, t) ∧
      a = { order := next
            transitions := [t]
            notice := some (.cancelled next told restoreStock now)
            followUp } := by
  unfold cancel at h
  split at h
  · cases h
  · split at h
    · cases h
    · cases h
      exact ⟨_, _, ‹_›, rfl⟩

/-- An order that is prepared by a reaction accepts all that a completed payment asks for. -/
theorem of_pay {payment : PaymentId} (h : pay o payment now = .ok (.apply a)) :
    ∃ next ts, o.transitionAll ((paymentActions o payment).map (·, now)) = .ok (next, ts) ∧
      a = { order := next, transitions := ts, followUp := settling next } := by
  unfold pay at h
  split at h
  · cases h
  · split at h
    · cases h
    · cases h
      exact ⟨_, _, ‹_›, rfl⟩

end Reaction

namespace Order

/-- A reaction confirms the order, cancels it, or completes its payment and prepares it. -/
theorem react_cases {s : Signal} (h : o.react s now = .ok (.apply a)) :
    (∃ act t, (act = .confirm ∨ ∃ reason, act = .cancel reason) ∧
      o.transition act now = .ok (a.order, t) ∧ a.transitions = [t] ∧
      (a.followUp = .leave ∨ a.followUp = Reaction.releasing o)) ∨
    ∃ payment,
      o.transitionAll ((Reaction.paymentActions o payment).map (·, now)) =
        .ok (a.order, a.transitions) ∧
      a.followUp = Reaction.settling a.order := by
  cases s with
  | inventoryReserved =>
    obtain ⟨next, t, ht, rfl⟩ := Reaction.of_confirm h
    exact .inl ⟨.confirm, t, .inl rfl, ht, rfl, .inl rfl⟩
  | inventoryReservationFailed =>
    obtain ⟨next, t, ht, rfl⟩ := Reaction.of_cancel h
    exact .inl ⟨_, t, .inr ⟨_, rfl⟩, ht, rfl, .inl rfl⟩
  | paymentCompleted id payment =>
    obtain ⟨next, ts, hts, rfl⟩ := Reaction.of_pay h
    exact .inr ⟨payment, hts, rfl⟩
  | paymentFailed | paymentCancelled | paymentCompensation =>
    obtain ⟨next, t, ht, rfl⟩ := Reaction.of_cancel h
    exact .inl ⟨_, t, .inr ⟨_, rfl⟩, ht, rfl, .inr rfl⟩

/-- What becomes of the stock of an order that reacts to a signal by a change. Stock that another
service could not reserve is left alone. -/
theorem followUp_of_react {s : Signal} (h : o.react s now = .ok (.apply a)) :
    a.followUp = match s with
      | .inventoryReserved .. | .inventoryReservationFailed .. => .leave
      | .paymentCompleted .. => Reaction.settling a.order
      | _ => Reaction.releasing o := by
  cases s with
  | inventoryReserved =>
    obtain ⟨next, t, -, rfl⟩ := Reaction.of_confirm h
    rfl
  | paymentCompleted =>
    obtain ⟨next, ts, -, rfl⟩ := Reaction.of_pay h
    rfl
  | inventoryReservationFailed | paymentFailed | paymentCancelled | paymentCompensation =>
    obtain ⟨next, t, -, rfl⟩ := Reaction.of_cancel h
    rfl

/-- What others are told of an order that reacts to a signal by a change. That it was paid for goes
without saying. -/
theorem notice_of_react {s : Signal} (h : o.react s now = .ok (.apply a)) :
    a.notice = match s with
      | .inventoryReserved .. => some (.confirmed a.order now)
      | .inventoryReservationFailed _ _ reason _ =>
        some (.cancelled a.order (Reaction.shortageReason reason) false now)
      | .paymentCompleted .. => none
      | .paymentFailed _ _ reason _ =>
        some (.cancelled a.order ("PAYMENT_FAILED: " ++ reason) true now)
      | .paymentCancelled _ _ reason _ =>
        some (.cancelled a.order ("PAYMENT_CANCELLED: " ++ reason) true now)
      | .paymentCompensation _ _ reason _ =>
        some (.cancelled a.order ("payment compensated: " ++ reason) true now) := by
  cases s with
  | inventoryReserved =>
    obtain ⟨next, t, -, rfl⟩ := Reaction.of_confirm h
    rfl
  | paymentCompleted =>
    obtain ⟨next, ts, -, rfl⟩ := Reaction.of_pay h
    rfl
  | inventoryReservationFailed | paymentFailed | paymentCancelled | paymentCompensation =>
    obtain ⟨next, t, -, rfl⟩ := Reaction.of_cancel h
    rfl

/-- The order awaits the completion of this payment. A payment that was never linked is awaited from
the confirmation on. -/
def Awaits (o : Order) (payment : PaymentId) : Prop :=
  (o.status = .confirmed ∧ o.payment = none) ∨
    (o.status = .paymentPending ∧ ∀ expected, o.payment = some expected → expected = payment)

/-- A completed payment prepares an order that awaits it. -/
theorem of_paymentActions {payment : PaymentId} {last : Order} {ts : List Transition}
    (h : o.transitionAll ((Reaction.paymentActions o payment).map (·, now)) = .ok (last, ts)) :
    o.Awaits payment ∧ last.status = .preparing ∧ last.payment = o.payment.or payment ∧
      last.confirmedAt = some now := by
  have pays : ∀ {o last ts}, transitionAll o [(.completePayment payment, now), (.prepare, now)] =
      .ok (last, ts) →
      o.status = .paymentPending ∧ (∀ expected, o.payment = some expected → expected = payment) ∧
        last.status = .preparing ∧ last.payment = o.payment.or payment ∧
        last.confirmedAt = some now := by
    intro o last ts h
    obtain ⟨paid, _, _, hpaid, hrest, -⟩ := transitionAll_cons h
    obtain ⟨prepared, _, _, hprepared, hend, -⟩ := transitionAll_cons hrest
    obtain ⟨e, he, rfl, -⟩ := accepts_of_transition hpaid
    cases he with
    | completePayment _ hstatus hlinked =>
      obtain ⟨e, he, rfl, -⟩ := accepts_of_transition hprepared
      cases he
      cases hend
      exact ⟨hstatus, hlinked, rfl, rfl, rfl⟩
  unfold Reaction.paymentActions at h
  by_cases hfirst : o.status = .confirmed ∧ o.payment = none
  · rw [if_pos hfirst] at h
    obtain ⟨linked, _, _, hlinked, hrest, -⟩ := transitionAll_cons h
    obtain ⟨-, -, hstatus, hpayment, hconfirmed⟩ := pays hrest
    obtain ⟨e, he, rfl, -⟩ := accepts_of_transition hlinked
    cases he
    refine ⟨.inl hfirst, hstatus, ?_, hconfirmed⟩
    rw [hpayment, hfirst.2]
    rfl
  · rw [if_neg hfirst] at h
    obtain ⟨hstatus, hlinked, hend⟩ := pays h
    exact ⟨.inr ⟨hstatus, hlinked⟩, hend⟩

theorem confirmedAt_of_paymentActions {payment : PaymentId} {last : Order} {ts : List Transition}
    (h : o.transitionAll ((Reaction.paymentActions o payment).map (·, now)) = .ok (last, ts)) :
    o.status.precedesPreparation = true ∧ last.status = .preparing ∧
      last.confirmedAt = some now := by
  obtain ⟨hawaits, hstatus, -, hconfirmed⟩ := of_paymentActions h
  refine ⟨?_, hstatus, hconfirmed⟩
  rcases hawaits with ⟨hwas, -⟩ | ⟨hwas, -⟩ <;> rw [hwas] <;> rfl

theorem reserves_of_mem_paymentActions {payment : PaymentId} {act : Action}
    (h : act ∈ Reaction.paymentActions o payment) : act.reserves = false := by
  unfold Reaction.paymentActions at h
  split at h <;>
    simp only [List.mem_cons, List.not_mem_nil, or_false] at h <;>
    rcases h with rfl | rfl | rfl <;> rfl

/-- What accepted actions keep that do not set the reservation, a completed payment keeps. -/
theorem paymentActions_keep {payment : PaymentId} {last : Order} {ts : List Transition}
    {motive : Order → Prop}
    (h : o.transitionAll ((Reaction.paymentActions o payment).map (·, now)) = .ok (last, ts))
    (step : ∀ {act x next t}, act.reserves = false → x.transition act now = .ok (next, t) →
      motive x → motive next)
    (init : motive o) : motive last := by
  refine transitionAll_keeps h (fun hmem ht hx => ?_) init
  obtain ⟨act, hact, heq⟩ := List.mem_map.1 hmem
  cases heq
  exact step (reserves_of_mem_paymentActions hact) ht hx

theorem reservation_of_paymentActions {payment : PaymentId} {last : Order} {ts : List Transition}
    (h : o.transitionAll ((Reaction.paymentActions o payment).map (·, now)) = .ok (last, ts)) :
    last.reservation = o.reservation :=
  paymentActions_keep (motive := fun x => x.reservation = o.reservation) h
    (fun hact ht hx => (reservation_of_transition hact ht).trans hx) rfl

/-- What accepted actions keep that do not set the reservation, a reaction keeps. -/
theorem react_keeps {s : Signal} {motive : Order → Prop} (h : o.react s now = .ok (.apply a))
    (step : ∀ {act x next t}, act.reserves = false → x.transition act now = .ok (next, t) →
      motive x → motive next)
    (init : motive o) : motive a.order := by
  rcases react_cases h with ⟨act, t, hact, ht, -⟩ | ⟨payment, hall, -⟩
  · rcases hact with rfl | ⟨reason, rfl⟩ <;> exact step rfl ht init
  · exact paymentActions_keep hall step init

theorem samePlacement_of_react {s : Signal} (h : o.react s now = .ok (.apply a)) :
    SamePlacement o a.order :=
  react_keeps (motive := SamePlacement o) h
    (fun _ ht hx => hx.trans (samePlacement_of_transition ht)) (.refl o)

theorem version_of_react {s : Signal} (h : o.react s now = .ok (.apply a)) :
    a.order.version = o.version :=
  react_keeps (motive := fun x => x.version = o.version) h
    (fun _ ht hx => (version_of_transition ht).trans hx) rfl

/-! ## When an order reacts by a change -/

/-- The order reacts to the signal by a change. -/
def IsOpenTo (o : Order) : Signal → Prop
  | .inventoryReserved .. => o.status = .created
  | .paymentCompleted _ payment .. => o.Awaits payment
  | _ => o.status.rank < Status.shipped.rank

/-- An order reacts by a change only to what it is open to. The change leads to the status that the
signal aims at, and a completed payment is kept unless one was linked before. -/
theorem of_react {s : Signal} (h : o.react s now = .ok (.apply a)) :
    o.IsOpenTo s ∧ a.order.status = s.target ∧ a.order.payment = o.payment.or s.paid? := by
  have cancels : ∀ {reason told restore followUp},
      Reaction.cancel o reason told restore followUp now = .ok (.apply a) →
      o.status.rank < Status.shipped.rank ∧ a.order.status = .cancelled ∧
        a.order.payment = o.payment.or none := by
    intro reason told restore followUp h
    obtain ⟨next, t, ht, rfl⟩ := Reaction.of_cancel h
    obtain ⟨e, he, rfl, -⟩ := accepts_of_transition ht
    cases he with
    | cancel _ hstatus =>
      exact ⟨(Action.cancel_allowedIn_iff _ _).1 hstatus, rfl, (Option.or_none ..).symm⟩
  cases s with
  | inventoryReserved =>
    obtain ⟨next, t, ht, rfl⟩ := Reaction.of_confirm h
    obtain ⟨e, he, rfl, -⟩ := accepts_of_transition ht
    cases he with
    | confirm hstatus => exact ⟨hstatus, rfl, (Option.or_none ..).symm⟩
  | paymentCompleted id payment =>
    obtain ⟨next, ts, hts, rfl⟩ := Reaction.of_pay h
    obtain ⟨hawaits, hstatus, hpayment, -⟩ := of_paymentActions hts
    exact ⟨hawaits, hstatus, hpayment⟩
  | inventoryReservationFailed | paymentFailed | paymentCancelled | paymentCompensation =>
    exact cancels h

/-- An order that awaits a payment accepts what its completion asks for. -/
theorem exists_paymentActions {payment : PaymentId} (h : o.Awaits payment) (now : Instant) :
    ∃ last ts,
      o.transitionAll ((Reaction.paymentActions o payment).map (·, now)) = .ok (last, ts) := by
  have pays : ∀ {o : Order}, o.status = .paymentPending →
      (∀ expected, o.payment = some expected → expected = payment) →
      ∃ last ts,
        o.transitionAll [(.completePayment payment, now), (.prepare, now)] = .ok (last, ts) := by
    intro o hstatus hlinked
    have hpaid : o.Accepts now _ _ := .completePayment payment hstatus hlinked
    have hprepared : (o.apply (.paymentCompleted payment now)).Accepts now _ _ := .prepare rfl
    exact ⟨_, _, transitionAll_cons_of (transition_of_accepts hpaid)
      (transitionAll_singleton (transition_of_accepts hprepared))⟩
  unfold Reaction.paymentActions
  rcases h with ⟨hstatus, hfree⟩ | ⟨hstatus, hlinked⟩
  · rw [if_pos ⟨hstatus, hfree⟩]
    have hlink : o.Accepts now _ _ := .linkPayment payment hstatus hfree
    obtain ⟨last, ts, hrest⟩ := pays (o := o.apply (.paymentLinked payment now)) rfl
      (by simp [apply])
    exact ⟨_, _, transitionAll_cons_of (transition_of_accepts hlink) hrest⟩
  · rw [if_neg (by simp [hstatus])]
    exact pays hstatus hlinked

/-- An order reacts by a change to whatever it is open to. -/
theorem react_of_isOpenTo {s : Signal} (h : o.IsOpenTo s) (now : Instant) :
    ∃ a, o.react s now = .ok (.apply a) := by
  have cancels : o.status.rank < Status.shipped.rank → ∀ reason told restore followUp,
      ∃ a, Reaction.cancel o reason told restore followUp now = .ok (.apply a) := by
    intro hrank reason told restore followUp
    have hoff : o.status.isCalledOff = false := by
      revert hrank
      cases o.status <;> decide
    have hcancel : o.Accepts now _ _ := .cancel reason ((Action.cancel_allowedIn_iff ..).2 hrank)
    simp [Reaction.cancel, hoff, transition_of_accepts hcancel]
  cases s with
  | inventoryReserved =>
    have hstatus : o.status = .created := h
    have hlater : o.status.isConfirmedOrLater = false := by rw [hstatus]; rfl
    have hconfirm : o.Accepts now _ _ := .confirm hstatus
    simp [react, Reaction.confirm, hlater, transition_of_accepts hconfirm]
  | paymentCompleted id payment =>
    have hpaid : o.status.isPaid = false := by
      rcases h with ⟨hstatus, -⟩ | ⟨hstatus, -⟩ <;> rw [hstatus] <;> rfl
    obtain ⟨last, ts, hall⟩ := exists_paymentActions h now
    simp [react, Reaction.pay, hpaid, hall]
  | inventoryReservationFailed | paymentFailed | paymentCancelled | paymentCompensation =>
    exact cancels h _ _ _ _

end Order
end Fulfilment
