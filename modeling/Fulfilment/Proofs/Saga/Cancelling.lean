import Fulfilment.Proofs.Saga.OtherPayment

/-!
# The stock of cancelled orders

What becomes of an order's stock when a signal cancels the order. A payment that came to nothing
gives the stock back, and tells others to do the same. A service that could not reserve the stock
says that there is none to give back: nobody is told to, and a hold that was made for the order all
the same is left to its deadline.
-/
namespace Fulfilment

/-- The signal tells that stock could not be reserved elsewhere. -/
def Signal.tellsOfShortage : Signal → Bool
  | inventoryReservationFailed .. => true
  | _ => false

namespace Order

variable {o : Order} {s : Signal} {now : Instant} {a : Applied}

theorem reservation_of_react (h : o.react s now = .ok (.apply a)) :
    a.order.reservation = o.reservation :=
  react_keeps (motive := fun x => x.reservation = o.reservation) h
    (fun hact ht hx => (reservation_of_transition hact ht).trans hx) rfl

/-- Stock is released exactly for the reservation that the order has. -/
theorem releasing_eq_release_iff {r : ReservationId} :
    Reaction.releasing o = .release r ↔ o.reservation = some r := by
  unfold Reaction.releasing
  cases o.reservation <;> simp

theorem releasing_eq_leave_iff : Reaction.releasing o = .leave ↔ o.reservation = none := by
  unfold Reaction.releasing
  cases o.reservation <;> simp

/-- **A cancelled order gives its stock back, unless the stock could not be reserved.**

A signal that cancels an order releases the order's reservation, and leaves the stock alone only if
there is no reservation. A signal that tells of a shortage leaves the stock alone in either case.
The notice of the cancellation asks for the stock exactly if it is given back.
-/
theorem cancelled_stock_is_released (h : o.react s now = .ok (.apply a))
    (hcancelled : a.order.status = .cancelled) :
    (s.tellsOfShortage = false →
        (∀ r, a.order.reservation = some r → a.followUp = .release r) ∧
          (a.followUp = .leave → a.order.reservation = none)) ∧
      (s.tellsOfShortage = true → a.followUp = .leave) ∧
      a.order.reservation = o.reservation ∧
      ∃ told, a.notice = some (.cancelled a.order told (!s.tellsOfShortage) now) := by
  have hreservation := reservation_of_react h
  have hfollow := followUp_of_react h
  have hnotice := notice_of_react h
  have hstatus : a.order.status = s.target := (of_react h).2.1
  have releases : a.followUp = Reaction.releasing o →
      (∀ r, a.order.reservation = some r → a.followUp = .release r) ∧
        (a.followUp = .leave → a.order.reservation = none) := by
    intro hfollow
    rw [hfollow, hreservation]
    exact ⟨fun r hr => releasing_eq_release_iff.2 hr, releasing_eq_leave_iff.1⟩
  rw [hcancelled] at hstatus
  cases s with
  | inventoryReserved | paymentCompleted => cases hstatus
  | inventoryReservationFailed => exact ⟨nofun, fun _ => hfollow, hreservation, _, hnotice⟩
  | paymentFailed | paymentCancelled | paymentCompensation =>
    exact ⟨fun _ => releases hfollow, nofun, hreservation, _, hnotice⟩

/-- The payment of the two widgets fails. -/
def widgetsUnpaid : Signal :=
  .paymentFailed placedWidgets.id ⟨"payment"⟩ "card declined" widgetShop.clock

/-- The stock of the two widgets could not be reserved elsewhere. -/
def widgetsShort : Signal :=
  .inventoryReservationFailed placedWidgets.id [] "none left" widgetShop.clock

/-- Two widgets that are not paid for are given back. -/
theorem unpaid_widgets_are_released :
    ∃ a, pendingWidgets.react widgetsUnpaid widgetShop.clock = .ok (.apply a) ∧
      a.order.status = .cancelled ∧ widgetsUnpaid.tellsOfShortage = false ∧
      a.order.reservation = some ⟨"first"⟩ ∧ a.followUp = .release ⟨"first"⟩ := by
  have hearly : pendingWidgets.status.rank < Status.shipped.rank := by decide
  obtain ⟨a, ha⟩ := react_of_isOpenTo (s := widgetsUnpaid) hearly widgetShop.clock
  have hstatus : a.order.status = .cancelled := (of_react ha).2.1
  obtain ⟨hreleased, -, hkept, -⟩ := cancelled_stock_is_released ha hstatus
  have hreservation : a.order.reservation = some ⟨"first"⟩ := hkept
  exact ⟨a, ha, hstatus, rfl, hreservation, (hreleased rfl).1 _ hreservation⟩

/-- So it is not every cancellation that releases the order's reservation. -/
theorem shortage_keeps_reservation :
    ¬ ∀ (o : Order) (s : Signal) (now : Instant) (a : Applied),
      o.react s now = .ok (.apply a) → a.order.status = .cancelled →
        (∀ r, a.order.reservation = some r → a.followUp = .release r) ∧
          (a.followUp = .leave → a.order.reservation = none) := by
  intro hreleased
  have hearly : pendingWidgets.status.rank < Status.shipped.rank := by decide
  obtain ⟨a, ha⟩ := react_of_isOpenTo (s := widgetsShort) hearly widgetShop.clock
  have hleft : a.followUp = .leave := followUp_of_react ha
  have hreservation : a.order.reservation = some ⟨"first"⟩ := reservation_of_react ha
  have hnone := (hreleased _ _ _ a ha (of_react ha).2.1).2 hleft
  rw [hreservation] at hnone
  cases hnone

end Order
end Fulfilment
