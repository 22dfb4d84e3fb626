import Fulfilment.Proofs.Order.Fields

/-!
# The progress of an order

An order that is asked for anything, in any order, goes through its statuses without ever coming
back to one, and ends after eight steps at most. What it was placed with never changes, and what is
set on the way is set once (`Order.KeepsFields`). No action checks that a field is still free but
that which links a payment: the others rely on the statuses that they require, so they keep the
fields of an order whose fields agree with its status (`Order.Coherent`), while a payment is kept by
every order.
-/
namespace Fulfilment
namespace Order

variable {o o₁ o₂ o₃ next : Order} {a : Action} {now : Instant} {t : Transition}

section Kept

variable {α : Type} {x y z : Option α}

/-- What is set stays set, to the same value. -/
def Kept (x y : Option α) : Prop := ∀ a, x = some a → y = some a

theorem Kept.refl (x : Option α) : Kept x x := fun _ h => h

theorem Kept.trans (h : Kept x y) (h' : Kept y z) : Kept x z := fun a hx => h' a (h a hx)

theorem Kept.of_none (h : x = none) : Kept x y := by
  intro a ha
  rw [h] at ha
  cases ha

theorem Kept.or (x y : Option α) : Kept x (x.or y) := by
  rintro a rfl
  rfl

end Kept

/-- Every optional field that was set still has its value. -/
structure KeepsFields (o o' : Order) : Prop where
  reservation : Kept o.reservation o'.reservation
  payment : Kept o.payment o'.payment
  expiresAt : Kept o.expiresAt o'.expiresAt
  confirmedAt : Kept o.confirmedAt o'.confirmedAt
  cancelledAt : Kept o.cancelledAt o'.cancelledAt
  shippedAt : Kept o.shippedAt o'.shippedAt
  deliveredAt : Kept o.deliveredAt o'.deliveredAt
  refundedAt : Kept o.refundedAt o'.refundedAt
  failureReason : Kept o.failureReason o'.failureReason
  refund : Kept o.refund o'.refund
  refundReason : Kept o.refundReason o'.refundReason

theorem KeepsFields.refl (o : Order) : o.KeepsFields o := by
  constructor <;> exact .refl _

theorem KeepsFields.trans (h : o₁.KeepsFields o₂) (h' : o₂.KeepsFields o₃) :
    o₁.KeepsFields o₃ where
  reservation := h.reservation.trans h'.reservation
  payment := h.payment.trans h'.payment
  expiresAt := h.expiresAt.trans h'.expiresAt
  confirmedAt := h.confirmedAt.trans h'.confirmedAt
  cancelledAt := h.cancelledAt.trans h'.cancelledAt
  shippedAt := h.shippedAt.trans h'.shippedAt
  deliveredAt := h.deliveredAt.trans h'.deliveredAt
  refundedAt := h.refundedAt.trans h'.refundedAt
  failureReason := h.failureReason.trans h'.failureReason
  refund := h.refund.trans h'.refund
  refundReason := h.refundReason.trans h'.refundReason

/-- A linked payment is never replaced, whatever else the order says. -/
theorem kept_payment_of_transition (ht : o.transition a now = .ok (next, t)) :
    Kept o.payment next.payment := by
  obtain ⟨e, he, rfl, -⟩ := accepts_of_transition ht
  cases he with
  | linkPayment _ _ hfree => exact .of_none hfree
  | completePayment payment => exact .or o.payment (some payment)
  | _ => exact .refl _

/-- Each action sets fields that the order does not have before. -/
theorem Coherent.keepsFields (h : o.Coherent) (ht : o.transition a now = .ok (next, t)) :
    o.KeepsFields next := by
  have hpayment := kept_payment_of_transition ht
  have early := h.of_rank_lt_shipped
  obtain ⟨e, he, rfl, -⟩ := accepts_of_transition ht
  cases he with
  | markStockReserved _ _ hs =>
    have hreservation := h.unreserved hs
    have hexpiresAt : o.expiresAt = none := by simpa [hreservation] using h.deadline
    exact { KeepsFields.refl o with
      reservation := .of_none hreservation
      expiresAt := .of_none hexpiresAt }
  | confirm => exact { KeepsFields.refl o with }
  | linkPayment | completePayment => exact { KeepsFields.refl o with payment := hpayment }
  | prepare hs =>
    have hconfirmedAt : o.confirmedAt = none := by simpa [hs] using h.confirmed
    exact { KeepsFields.refl o with confirmedAt := .of_none hconfirmedAt }
  | ship hs =>
    have hshippedAt : o.shippedAt = none := by simpa [hs] using h.shipped
    exact { KeepsFields.refl o with shippedAt := .of_none hshippedAt }
  | deliver hs =>
    have hdeliveredAt : o.deliveredAt = none := by simpa [hs] using h.delivered
    exact { KeepsFields.refl o with deliveredAt := .of_none hdeliveredAt }
  | cancel _ hs =>
    obtain ⟨-, -, -, -, -, hcancelledAt, hreason⟩ := early ((Action.cancel_allowedIn_iff ..).1 hs)
    exact { KeepsFields.refl o with
      cancelledAt := .of_none hcancelledAt
      failureReason := .of_none hreason }
  | timeOut hs =>
    have hpending := h.status_of_awaitsPayment hs
    obtain ⟨-, -, -, -, -, hcancelledAt, hreason⟩ := early (by rw [hpending]; decide)
    exact { KeepsFields.refl o with
      cancelledAt := .of_none hcancelledAt
      failureReason := .of_none hreason }
  | refund _ _ hs =>
    have hrefund : o.refund = none := by simpa [hs] using h.refund
    have hrefundReason : o.refundReason = none := by simpa [hs] using h.refundReason
    exact { KeepsFields.refl o with
      refund := .of_none hrefund
      refundReason := .of_none hrefundReason }
  | completeRefund _ hs =>
    have hrefundedAt : o.refundedAt = none := by simpa [hs] using h.refunded
    exact { KeepsFields.refl o with refundedAt := .of_none hrefundedAt }

/-! ## Any attempts -/

theorem Coherent.keepsFields_tryAll (h : o.Coherent) (as : List (Action × Instant)) :
    o.KeepsFields (o.tryAll as).1 := by
  refine (tryAll_keeps (motive := fun x => x.Coherent ∧ o.KeepsFields x) as ?_ ⟨h, .refl o⟩).2
  intro a now x next t ht hx
  exact ⟨hx.1.transition ht, hx.2.trans (hx.1.keepsFields ht)⟩

theorem kept_payment_tryAll (o : Order) (as : List (Action × Instant)) :
    Kept o.payment (o.tryAll as).1.payment :=
  tryAll_keeps (motive := fun x => Kept o.payment x.payment) as
    (fun ht hx => hx.trans (kept_payment_of_transition ht)) (.refl _)

theorem samePlacement_tryAll (o : Order) (as : List (Action × Instant)) :
    SamePlacement o (o.tryAll as).1 :=
  tryAll_keeps (motive := SamePlacement o) as
    (fun ht hx => hx.trans (samePlacement_of_transition ht)) (.refl o)

theorem version_tryAll (o : Order) (as : List (Action × Instant)) :
    (o.tryAll as).1.version = o.version :=
  tryAll_keeps (motive := fun x => x.version = o.version) as
    (fun ht hx => (version_of_transition ht).trans hx) rfl

theorem nodup_visited (o : Order) (as : List (Action × Instant)) : (o.visited as).Nodup := by
  refine (pairwise_visited o as).imp fun hrank heq => ?_
  rw [heq] at hrank
  exact Nat.lt_irrefl _ hrank

/--
The progress of an order that was placed and then asked for anything, by anyone.

It accepts eight actions at most and is never twice in one status; once it has ended it accepts
none. What it was placed with stays as it is, and every optional field that is set by then stays as
it is whatever is asked for later. A payment stays linked to any order, even one that no placement
leads to.
-/
theorem attempts_make_progress {request : NewOrder} {placedAt : Instant} {e : Event}
    (h : place request placedAt = .ok (o, e)) (as : List (Action × Instant)) :
    (o.tryAll as).2.length ≤ 8 ∧ (o.visited as).Nodup ∧
      ((o.tryAll as).1.status.isTerminal = true →
        ∀ a now, ∃ rejection, (o.tryAll as).1.transition a now = .error rejection) ∧
      SamePlacement o (o.tryAll as).1 ∧ (o.tryAll as).1.version = o.version ∧
      (o.tryAll as).1.totalAmount = o.totalAmount ∧
      (∀ bs, (o.tryAll as).1.KeepsFields (o.tryAll (as ++ bs)).1) ∧
      ∀ (x : Order) (bs : List (Action × Instant)), Kept x.payment (x.tryAll bs).1.payment := by
  obtain rfl := eq_ofRequest_of_place h
  have hcoherent := (coherent_ofRequest request placedAt).tryAll as
  have hplacement := samePlacement_tryAll (ofRequest request placedAt) as
  have hlength : ((ofRequest request placedAt).tryAll as).2.length ≤ 8 := by
    have hrank := rank_add_length_le (ofRequest request placedAt) as
    have hmost : Status.rank _ ≤ 8 := ((ofRequest request placedAt).tryAll as).1.status.rank_le
    omega
  refine ⟨hlength, nodup_visited _ as, transition_of_isTerminal, hplacement, version_tryAll _ as,
    ?_, fun bs => ?_, kept_payment_tryAll⟩
  · rw [totalAmount, totalAmount, hplacement.lines]
  · rw [tryAll_append]
    exact hcoherent.keepsFields_tryAll bs

/-- The lamp goes through nine statuses on its way to the refund, which takes all of eight accepted
actions, and nothing that is asked for later changes it. -/
theorem progress_of_refunded_lamp :
    let lamp := ofRequest lampRequest (.ofSecond 0)
    let refunded := (lamp.tryAll lampLife).1
    place lampRequest (.ofSecond 0) = .ok (lamp, .placed lampRequest (.ofSecond 0)) ∧
      (lamp.tryAll lampLife).2.length = 8 ∧ (lamp.tryAll lampLife).2.length ≤ 8 ∧
      (lamp.visited lampLife).Nodup ∧ refunded.status.isTerminal = true ∧
      (∀ a now, ∃ rejection, refunded.transition a now = .error rejection) ∧
      SamePlacement lamp refunded ∧ refunded.version = lamp.version ∧
      refunded.totalAmount = lamp.totalAmount ∧
      (∀ bs, refunded.KeepsFields (lamp.tryAll (lampLife ++ bs)).1) ∧
      ∀ (x : Order) (bs : List (Action × Instant)), Kept x.payment (x.tryAll bs).1.payment := by
  obtain ⟨hlength, hnodup, hend, hplacement, hversion, htotal, hfields, hpayment⟩ :=
    attempts_make_progress place_lampRequest lampLife
  have hterminal : ((ofRequest lampRequest (.ofSecond 0)).tryAll lampLife).1.status.isTerminal =
      true := by decide +kernel
  exact ⟨place_lampRequest, by decide +kernel, hlength, hnodup, hterminal, hend hterminal,
    hplacement, hversion, htotal, hfields, hpayment⟩

end Order
end Fulfilment
