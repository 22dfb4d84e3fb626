import Fulfilment.Proofs.Saga.Parking

/-!
# Signals take effect once

Signals may be delivered again, and several of them may ask for the same (`Signal.effect`). Whatever
order reacts to one by a change is then as far on as the signal aims at (`Signal.target`), and only
orders that are not as far on react by a change. So a second delivery finds a duplicate, and no
signal to the same effect changes the order again, whatever becomes of it.
-/
namespace Fulfilment

namespace Signal

/-- What the signal asks for: to confirm the order, to take its payment, or to cancel it. -/
def effect : Signal → Shown
  | inventoryReserved .. => .confirmed
  | paymentCompleted .. => .paid
  | inventoryReservationFailed .. | paymentFailed .. | paymentCancelled ..
  | paymentCompensation .. => .cancelled

theorem target_eq_of_effect_eq {s s' : Signal} (h : s'.effect = s.effect) :
    s'.target = s.target := by
  cases s <;> cases s' <;> first | rfl | cases h

end Signal

namespace Order

variable {o x : Order} {s : Signal} {now : Instant} {a : Applied}

/-- An order that reacts by a change is not yet as far on as the signal aims at. -/
theorem IsOpenTo.rank_lt (h : o.IsOpenTo s) : o.status.rank < s.target.rank := by
  cases s with
  | inventoryReserved =>
    have hstatus : o.status = .created := h
    simp [hstatus, Signal.target, Status.rank]
  | paymentCompleted =>
    rcases h with ⟨hstatus, -⟩ | ⟨hstatus, -⟩ <;> simp [hstatus, Signal.target, Status.rank]
  | inventoryReservationFailed | paymentFailed | paymentCancelled | paymentCompensation =>
    have hrank : o.status.rank < Status.shipped.rank := h
    have htarget : Status.shipped.rank < Status.cancelled.rank := by decide
    exact Nat.lt_trans hrank htarget

theorem rank_le_of_react (h : o.react s now = .ok (.apply a)) :
    o.status.rank ≤ a.order.status.rank :=
  react_keeps (motive := fun x => o.status.rank ≤ x.status.rank) h
    (fun _ ht hx => Nat.le_of_lt (Nat.lt_of_le_of_lt hx (rank_lt_of_transition ht))) (Nat.le_refl _)

theorem Later.rank_le (h : o.Later x) : o.status.rank ≤ x.status.rank := by
  induction h with
  | refl => exact Nat.le_refl _
  | act _ accepted ih => exact Nat.le_of_lt (Nat.lt_of_le_of_lt ih (rank_lt_of_transition accepted))
  | react _ reacts ih => exact Nat.le_trans ih (rank_le_of_react reacts)
  | saved _ _ ih => exact ih

/-- An order that a completed payment was applied to has this payment. -/
theorem Awaits.payment {payment : PaymentId} (h : o.Awaits payment) :
    o.payment.or payment = some payment := by
  cases hp : o.payment with
  | none => rfl
  | some expected =>
    rcases h with ⟨-, hfree⟩ | ⟨-, hlinked⟩
    · rw [hp] at hfree
      cases hfree
    · rw [hlinked expected hp]
      rfl

/-- The order that a signal was applied to shows its effect. -/
theorem react_again (h : o.react s now = .ok (.apply a)) (again : Instant) :
    a.order.react s again = .ok (.duplicate s.effect) := by
  obtain ⟨hopen, hstatus, hpayment⟩ := of_react h
  cases s with
  | inventoryReserved =>
    have hconfirmed : a.order.status = .confirmed := hstatus
    simp [react, Reaction.confirm, hconfirmed, Status.isConfirmedOrLater, Signal.effect]
  | paymentCompleted _ payment =>
    have hprepared : a.order.status = .preparing := hstatus
    have hpaid : a.order.payment = some payment := hpayment.trans hopen.payment
    simp [react, Reaction.pay, hprepared, hpaid, Status.isPaid, Signal.effect]
  | inventoryReservationFailed | paymentFailed | paymentCancelled | paymentCompensation =>
    have hcancelled : a.order.status = .cancelled := hstatus
    simp [react, Reaction.cancelUnpaid, Reaction.cancel, hcancelled, Status.isCalledOff,
      Signal.effect]

/-- **Signals take effect once.** When any order, whatever its status and its fields, has reacted to
a signal by a change, it takes the same signal for a duplicate, at whatever time it comes again. And
whatever becomes of the order, no signal to the same effect changes it again. -/
theorem signal_takes_effect_once (h : o.react s now = .ok (.apply a)) :
    (∀ again, a.order.react s again = .ok (.duplicate s.effect)) ∧
      ∀ x, a.order.Later x → ∀ s', s'.effect = s.effect → ∀ again a',
        x.react s' again ≠ .ok (.apply a') := by
  refine ⟨react_again h, fun x hx s' hs' again a' happlied => ?_⟩
  have hopen := (of_react happlied).1.rank_lt
  have hfar := hx.rank_le
  rw [(of_react h).2.1] at hfar
  rw [Signal.target_eq_of_effect_eq hs'] at hopen
  exact absurd hopen (Nat.not_lt_of_le hfar)

/-- Once the widgets are paid for, the same payment is a duplicate. After they have been shipped,
another payment for them is not taken either. -/
theorem widgets_are_paid_once :
    ∃ a shipped t, (placedWidgets.apply (.confirmed widgetShop.clock)).react widgetsPaid
        widgetShop.clock = .ok (.apply a) ∧
      (∀ again, a.order.react widgetsPaid again = .ok (.duplicate .paid)) ∧
      a.order.transition .ship widgetShop.clock = .ok (shipped, t) ∧
      ∀ payment again a',
        shipped.react (.paymentCompleted placedWidgets.id payment ⟨200⟩ widgetShop.clock) again ≠
          .ok (.apply a') := by
  have hopen : (placedWidgets.apply (.confirmed widgetShop.clock)).IsOpenTo widgetsPaid :=
    .inl ⟨rfl, rfl⟩
  obtain ⟨a, ha⟩ := react_of_isOpenTo hopen widgetShop.clock
  obtain ⟨hagain, hnever⟩ := signal_takes_effect_once ha
  have hship : a.order.Accepts widgetShop.clock _ _ := .ship (of_react ha).2.1
  have hlater := Later.refl.act (transition_of_accepts hship)
  exact ⟨a, _, _, ha, hagain, transition_of_accepts hship, fun _ => hnever _ hlater _ rfl⟩

end Order
end Fulfilment
