import Fulfilment.Proofs.Saga.Alone

/-!
# Parked signals

A signal that its order rejects is parked as one that will never succeed. For all signals but one
this is so: an order only moves on, and what it is not open to (`Order.IsOpenTo`) it will not be
open to later. The exception is a completed payment that overtakes the confirmation of the order. It
is parked while the order is new, and would be applied as soon as the order is confirmed.
-/
namespace Fulfilment
namespace Order

variable {o x next : Order} {s : Signal} {act : Action} {now : Instant} {t : Transition}

/-- What becomes of an order: it accepts actions, reacts to signals, and is saved. -/
inductive Later (o : Order) : Order → Prop where
  | refl : Later o o
  | act {x next : Order} {act : Action} {now : Instant} {t : Transition} (before : Later o x)
      (accepted : x.transition act now = .ok (next, t)) : Later o next
  | react {x : Order} {s : Signal} {now : Instant} {a : Applied} (before : Later o x)
      (reacts : x.react s now = .ok (.apply a)) : Later o a.order
  | saved {x : Order} (before : Later o x) (version : Int) : Later o { x with version }

theorem Later.samePlacement (h : o.Later x) : o.SamePlacement x := by
  induction h with
  | refl => exact .refl o
  | act _ accepted ih => exact ih.trans (samePlacement_of_transition accepted)
  | react _ reacts ih => exact ih.trans (samePlacement_of_react reacts)
  | saved _ version ih => exact ⟨ih.id, ih.number, ih.user, ih.store, ih.lines, ih.createdAt⟩

/-- The signal says that a payment is completed, and the order is still to be confirmed. -/
def IsTooEarlyFor (o : Order) (s : Signal) : Prop :=
  s.paid?.isSome = true ∧ o.status = .created ∧ o.payment = none

/-- The order is not open to the signal, nor will it be as soon as it is confirmed. -/
def IsClosedTo (o : Order) (s : Signal) : Prop := ¬ o.IsOpenTo s ∧ ¬ o.IsTooEarlyFor s

theorem IsClosedTo.withVersion (h : o.IsClosedTo s) (version : Int) :
    IsClosedTo { o with version } s := by
  cases s <;> exact h

/-- An order that does not await a payment, nor will as soon as it is confirmed, never does. -/
theorem not_awaits_of_transition {payment : PaymentId} (hawaits : ¬ o.Awaits payment)
    (hearly : ¬ (o.status = .created ∧ o.payment = none))
    (h : o.transition act now = .ok (next, t)) : ¬ next.Awaits payment := by
  obtain ⟨e, he, rfl, -⟩ := accepts_of_transition h
  cases he with
  | markStockReserved _ _ hstatus | confirm hstatus =>
    rintro (⟨-, hfree⟩ | ⟨hpending, -⟩)
    · exact hearly ⟨hstatus, hfree⟩
    · simp [apply] at hpending
  | linkPayment _ hstatus hfree => exact absurd (.inl ⟨hstatus, hfree⟩) hawaits
  | _ => simp [Awaits, apply]

/-- No accepted action opens an order to a signal that it is closed to. -/
theorem IsClosedTo.transition (hclosed : o.IsClosedTo s)
    (h : o.transition act now = .ok (next, t)) : next.IsClosedTo s := by
  obtain ⟨hopen, hearly⟩ := hclosed
  have hrank := rank_lt_of_transition h
  constructor
  · cases s with
    | inventoryReserved =>
      intro hcreated
      have hcreated : next.status = .created := hcreated
      rw [hcreated] at hrank
      exact absurd hrank (Nat.not_lt_zero _)
    | paymentCompleted id payment =>
      exact not_awaits_of_transition hopen (fun hnew => hearly ⟨rfl, hnew⟩) h
    | _ =>
      intro hnext
      simp only [IsOpenTo] at hopen hnext
      omega
  · rintro ⟨-, hcreated, -⟩
    rw [hcreated] at hrank
    exact absurd hrank (Nat.not_lt_zero _)

theorem IsClosedTo.react {s' : Signal} {a : Applied} (hclosed : o.IsClosedTo s)
    (h : o.react s' now = .ok (.apply a)) : a.order.IsClosedTo s :=
  react_keeps (motive := fun x => x.IsClosedTo s) h (fun _ ht hx => hx.transition ht) hclosed

theorem Later.isClosedTo (h : o.Later x) (hclosed : o.IsClosedTo s) : x.IsClosedTo s := by
  induction h with
  | refl => exact hclosed
  | act _ accepted ih => exact ih.transition accepted
  | react _ reacts ih => exact ih.react reacts
  | saved _ version ih => exact ih.withVersion version

end Order

namespace Saga

open Script Service

variable {w : World} {s : Signal} {o : Order}

/-- Handling a signal that the stored order is closed to changes nothing, and is no transition. -/
theorem handle_of_isClosedTo (ho : w.book.get? s.order = some o) (hclosed : o.IsClosedTo s)
    (desk : HoldDesk) (retries : ConflictRetries) :
    ∃ r, (handle desk retries s).run World.answer w = (r, w) ∧
      (r = .ok .duplicate ∨ ∃ rejection, r = .error (.order rejection)) := by
  have still : ∀ {x a}, w.book.get? s.order = some x → x.react s w.clock = .ok (.apply a) →
      False := by
    intro x a hx hreact
    rw [ho] at hx
    cases hx
    exact hclosed.1 (Order.of_react hreact).1
  have h : Handles s w _ _ := yields_handle desk retries s w
  generalize (handle desk retries s).run World.answer w = outcome at h
  obtain ⟨r, w'⟩ := outcome
  cases h with
  | missing unknown =>
    rw [ho] at unknown
    cases unknown
  | rejected => exact ⟨_, rfl, .inr ⟨_, rfl⟩⟩
  | duplicate => exact ⟨_, rfl, .inl rfl⟩
  | refused stored reacts => exact (still stored reacts).elim
  | saved stored reacts => exact (still stored reacts).elim

/-- **A signal is parked for good, unless it says too early that a payment is completed.** Whatever
has become of the order since, handling the signal again finds a duplicate or is rejected, and
changes nothing. -/
theorem parked_for_good {payload : ByteArray} (hs : signalOf? payload = some s)
    (ho : w.book.get? s.order = some o) {desk : HoldDesk} {retries : ConflictRetries}
    (hparked : ((process desk retries payload).run World.answer w).1 = .deadLetter)
    (hearly : ¬ o.IsTooEarlyFor s) {o' : Order} (hlater : o.Later o') {w' : World}
    (ho' : w'.book.get? s.order = some o') (desk' : HoldDesk) (retries' : ConflictRetries) :
    ∃ r, (handle desk' retries' s).run World.answer w' = (r, w') ∧
      (r = .ok .duplicate ∨ ∃ rejection, r = .error (.order rejection)) := by
  rw [process_of_signal hs] at hparked
  have h : (Acknowledgement.ofOutcome <$> handle desk retries s).Yields World.answer
      (fun answer _ => answer = .deadLetter →
        ∃ o rejection, w.book.get? s.order = some o ∧ o.react s w.clock = .error rejection) w :=
    yields_map.2 ((yields_handle desk retries s w).mono fun r w' h => h.of_deadLetter)
  obtain ⟨x, rejection, hx, hreact⟩ := h hparked
  rw [ho] at hx
  cases hx
  have hclosed : o.IsClosedTo s := by
    refine ⟨fun hopen => ?_, hearly⟩
    obtain ⟨a, ha⟩ := Order.react_of_isOpenTo hopen w.clock
    rw [hreact] at ha
    cases ha
  exact handle_of_isClosedTo ho' (hlater.isClosedTo hclosed) desk' retries'

/-! ## A payment that is completed too early -/

def deliverPayment : Script Shop.calls Acknowledgement :=
  process .direct defaultRetries (Wire.toBytes widgetsPaid)

theorem signalOf?_widgetsPaid : signalOf? (Wire.toBytes widgetsPaid) = some widgetsPaid := by
  decide +kernel

theorem deliverPayment_eq :
    deliverPayment = Acknowledgement.ofOutcome <$> handle .direct defaultRetries widgetsPaid :=
  process_of_signal signalOf?_widgetsPaid ..

/-- A payment that is completed before its order is confirmed is parked. When the stock has been
reserved, the same delivery prepares the order. -/
theorem early_payment_is_parked :
    let w := deliverPayment.run World.answer (shopWith placedWidgets)
    let w' := (handle .direct defaultRetries widgetsHeld).run World.answer w.2
    let w'' := deliverPayment.run World.answer w'.2
    (∃ e, Order.place widgetRequest widgetShop.clock = .ok (placedWidgets, e)) ∧
      signalOf? (Wire.toBytes widgetsPaid) = some widgetsPaid ∧ w.1 = .deadLetter ∧ w''.1 = .ack ∧
      (w''.2.book.get? placedWidgets.id).map Order.status = some .preparing := by
  rw [deliverPayment_eq]
  refine ⟨⟨.placed widgetRequest widgetShop.clock, ?_⟩, signalOf?_widgetsPaid, ?_⟩
  · have hlines : Order.placementObjection widgetRequest.lines = none := by decide +kernel
    rw [Order.place, hlines]
    rfl
  · decide +kernel

/-- The order when it was shipped for another payment. -/
def shippedWidgets : Order := { placedWidgets with status := .shipped, payment := some ⟨"other"⟩ }

/-- The order when it has arrived. -/
def deliveredWidgets : Order := shippedWidgets.apply (.delivered widgetShop.clock)

/-- A payment for an order that was shipped for another one stays parked when the order arrives. -/
theorem payment_of_shipped_order_is_parked :
    signalOf? (Wire.toBytes widgetsPaid) = some widgetsPaid ∧
      (deliverPayment.run World.answer (shopWith shippedWidgets)).1 = .deadLetter ∧
      ∃ r, (handle .direct defaultRetries widgetsPaid).run World.answer
            (shopWith deliveredWidgets) = (r, shopWith deliveredWidgets) ∧
        (r = .ok .duplicate ∨ ∃ rejection, r = .error (.order rejection)) := by
  have hparked : (deliverPayment.run World.answer (shopWith shippedWidgets)).1 = .deadLetter := by
    rw [deliverPayment_eq]
    decide +kernel
  have hstored : (shopWith shippedWidgets).book.get? widgetsPaid.order =
      some { shippedWidgets with version := 1 } := by
    decide +kernel
  have hstored' : (shopWith deliveredWidgets).book.get? widgetsPaid.order =
      some { deliveredWidgets with version := 1 } := by
    decide +kernel
  have hearly : ¬ Order.IsTooEarlyFor { shippedWidgets with version := 1 } widgetsPaid :=
    fun h => absurd h.2.1 nofun
  have harrives : Order.Accepts { shippedWidgets with version := 1 } widgetShop.clock _ _ :=
    .deliver rfl
  have hlater : Order.Later { shippedWidgets with version := 1 }
      { deliveredWidgets with version := 1 } :=
    (Order.Later.refl).act (Order.transition_of_accepts harrives)
  exact ⟨signalOf?_widgetsPaid, hparked, parked_for_good signalOf?_widgetsPaid hstored hparked
    hearly hlater hstored' .direct defaultRetries⟩

end Saga
end Fulfilment
