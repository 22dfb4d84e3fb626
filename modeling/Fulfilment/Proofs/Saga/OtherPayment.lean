import Fulfilment.Proofs.Saga.Reaction
import Fulfilment.Proofs.Service.Command

/-!
# Signals about another payment

A payment signal names its payment, and an order may have another one linked. The completion of
another payment is refused (`not_awaits_of_linked`). Any other signal cancels the order without
regard to which payment it names: that the payment of somebody else failed takes the stock of a
linked order away, up to the shipment.
-/
namespace Fulfilment
namespace Order

variable {o : Order} {s : Signal} {p q : PaymentId} {now : Instant} {a : Applied}

theorem not_awaits_of_linked (hlinked : o.payment = some p) (hother : q ≠ p) : ¬ o.Awaits q := by
  rintro (⟨-, hfree⟩ | ⟨-, hexpected⟩)
  · rw [hlinked] at hfree
    cases hfree
  · exact hother (hexpected p hlinked).symm

/-- An order is open to a signal about another payment exactly if the signal is no completion and
the order is still to be shipped. -/
theorem isOpenTo_other_iff (hlinked : o.payment = some p) (hs : s.payment? = some q)
    (hother : q ≠ p) : o.IsOpenTo s ↔ s.paid? = none ∧ o.status.rank < Status.shipped.rank := by
  cases s with
  | inventoryReserved | inventoryReservationFailed => cases hs
  | paymentCompleted =>
    cases hs
    exact ⟨fun hopen => absurd hopen (not_awaits_of_linked hlinked hother), fun h => nomatch h.1⟩
  | paymentFailed | paymentCancelled | paymentCompensation =>
    exact ⟨fun hopen => ⟨rfl, hopen⟩, fun h => h.2⟩

/--
**Another payment cannot prepare an order, but it can cancel it.**

An order with a linked payment reacts to a signal about another payment by a change exactly if that
payment was not completed and the order is still to be shipped. It is cancelled then, its stock is
given back, and the cancellation is told.
-/
theorem other_payment_cancels (hlinked : o.payment = some p) (hs : s.payment? = some q)
    (hother : q ≠ p) (now : Instant) :
    ((∃ a, o.react s now = .ok (.apply a)) ↔
        s.paid? = none ∧ o.status.rank < Status.shipped.rank) ∧
      ∀ a, o.react s now = .ok (.apply a) →
        a.order.status = .cancelled ∧ a.order.payment = some p ∧
          a.followUp = Reaction.releasing o ∧
          ∃ told, a.notice = some (.cancelled a.order told true now) := by
  have hopen := isOpenTo_other_iff hlinked hs hother
  refine ⟨⟨fun ⟨a, ha⟩ => hopen.1 (of_react ha).1, fun h => react_of_isOpenTo (hopen.2 h) now⟩, ?_⟩
  intro a ha
  obtain ⟨hwas, hstatus, hpayment⟩ := of_react ha
  have hunpaid : s.paid? = none := (hopen.1 hwas).1
  have hnotice := notice_of_react ha
  have hfollow := followUp_of_react ha
  have hkept : a.order.payment = some p := by rw [hpayment, hlinked, Option.some_or]
  cases s with
  | inventoryReserved | inventoryReservationFailed => cases hs
  | paymentCompleted => cases hunpaid
  | paymentFailed | paymentCancelled | paymentCompensation =>
    exact ⟨hstatus, hkept, hfollow, _, hnotice⟩

/-- The order of two widgets, which are held for it, awaits its payment. -/
def pendingWidgets : Order :=
  placedWidgets.applyAll
    [.stockReserved ⟨"first"⟩ ⟨900, 0, by decide, by decide, by decide⟩ widgetShop.clock,
      .paymentLinked ⟨"payment"⟩ widgetShop.clock]

/-- Another payment is cancelled. -/
def otherCancelled : Signal :=
  .paymentCancelled placedWidgets.id ⟨"other"⟩ "changed mind" widgetShop.clock

/-- Two widgets that await one payment are given back when another one is cancelled. -/
theorem other_payment_cancels_widgets :
    pendingWidgets.payment = some ⟨"payment"⟩ ∧ otherCancelled.payment? = some ⟨"other"⟩ ∧
      (⟨"other"⟩ : PaymentId) ≠ ⟨"payment"⟩ ∧
      ∃ a, pendingWidgets.react otherCancelled widgetShop.clock = .ok (.apply a) ∧
        a.order.status = .cancelled ∧ a.followUp = .release ⟨"first"⟩ := by
  have hother : (⟨"other"⟩ : PaymentId) ≠ ⟨"payment"⟩ := by decide
  obtain ⟨hreacts, hends⟩ := other_payment_cancels (o := pendingWidgets) (s := otherCancelled)
    rfl rfl hother widgetShop.clock
  obtain ⟨a, ha⟩ := hreacts.2 ⟨rfl, by decide⟩
  obtain ⟨hstatus, -, hfollow, -⟩ := hends a ha
  exact ⟨rfl, rfl, hother, a, ha, hstatus, hfollow⟩

/-- So an order does react by a change to signals about another payment than the linked one. -/
theorem other_payment_is_not_ignored :
    ¬ ∀ (o : Order) (s : Signal) (p q : PaymentId) (now : Instant), o.payment = some p →
      s.payment? = some q → q ≠ p → ∀ a, o.react s now ≠ .ok (.apply a) := by
  intro hignored
  have hearly : pendingWidgets.status.rank < Status.shipped.rank := by decide
  obtain ⟨a, ha⟩ := react_of_isOpenTo (s := otherCancelled) hearly widgetShop.clock
  exact hignored _ _ ⟨"payment"⟩ ⟨"other"⟩ _ rfl rfl (by decide) a ha

end Order
end Fulfilment
