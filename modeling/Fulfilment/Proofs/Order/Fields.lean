import Fulfilment.Proofs.Order.Attempts

/-!
# The fields of an order

Which of an order's optional fields are set can be told from its status (`Order.Coherent`), but for
a cancelled order, which keeps what it had when it was cancelled. The instants among them are set in
a fixed order, so they follow one another in time if the actions do (`Order.milestones`).
-/
namespace Fulfilment

/-- The statuses that orders can be found in: that of a new order, and those that actions lead
to. -/
def Status.inUse : List Status :=
  [.created, .confirmed, .paymentPending, .paymentCompleted, .preparing, .shipped, .delivered,
    .refundProcessing, .refundCompleted, .paymentTimeout, .cancelled]

namespace Order

variable {o next : Order} {a : Action} {now : Instant} {t : Transition}

/-- The optional fields are set that belong to the status, and no others. -/
structure Coherent (o : Order) : Prop where
  inUse : o.status ∈ Status.inUse
  deadline : o.reservation.isSome ↔ o.expiresAt.isSome
  unreserved : o.status = .created → o.reservation = none
  payment : o.status ≠ .cancelled → (o.payment.isSome ↔ o.status ∉ [.created, .confirmed])
  confirmed : o.status ≠ .cancelled →
    (o.confirmedAt.isSome ↔
      o.status ∈ [.preparing, .shipped, .delivered, .refundProcessing, .refundCompleted])
  paid : o.confirmedAt.isSome → o.payment.isSome
  shipped : o.shippedAt.isSome ↔
    o.status ∈ [.shipped, .delivered, .refundProcessing, .refundCompleted]
  delivered : o.deliveredAt.isSome ↔ o.status ∈ [.delivered, .refundProcessing, .refundCompleted]
  refund : o.refund.isSome ↔ o.status ∈ [.refundProcessing, .refundCompleted]
  refundReason : o.refundReason.isSome ↔ o.status ∈ [.refundProcessing, .refundCompleted]
  refunded : o.refundedAt.isSome ↔ o.status = .refundCompleted
  cancelled : o.cancelledAt.isSome ↔ o.status ∈ [.cancelled, .paymentTimeout]
  failureReason : o.failureReason.isSome ↔ o.status ∈ [.cancelled, .paymentTimeout]

theorem coherent_ofRequest (request : NewOrder) (placedAt : Instant) :
    (ofRequest request placedAt).Coherent := by
  constructor <;> simp [ofRequest, Status.inUse]

/-- As long as an order can be cancelled, nothing is set that comes with its shipment or its end. -/
theorem Coherent.of_rank_lt_shipped (h : o.Coherent) (hrank : o.status.rank < Status.shipped.rank) :
    o.shippedAt = none ∧ o.deliveredAt = none ∧ o.refundedAt = none ∧ o.refund = none ∧
      o.refundReason = none ∧ o.cancelledAt = none ∧ o.failureReason = none := by
  have unset : ∀ {α : Type} {x : Option α} {ss : List Status}, (x.isSome ↔ o.status ∈ ss) →
      (∀ s ∈ ss, Status.shipped.rank ≤ s.rank) → x = none := by
    intro α x ss hx hss
    rw [← Option.not_isSome_iff_eq_none, hx]
    exact fun hmem => absurd hrank (Nat.not_lt_of_le (hss _ hmem))
  have hrefunded : o.refundedAt.isSome ↔ o.status ∈ [.refundCompleted] := by
    rw [h.refunded, List.mem_singleton]
  exact ⟨unset h.shipped (by decide), unset h.delivered (by decide), unset hrefunded (by decide),
    unset h.refund (by decide), unset h.refundReason (by decide), unset h.cancelled (by decide),
    unset h.failureReason (by decide)⟩

/-- The only status in use in which a payment is awaited. -/
theorem Coherent.status_of_awaitsPayment (h : o.Coherent) (hs : o.status.awaitsPayment = true) :
    o.status = .paymentPending := by
  have hinUse := h.inUse
  cases hstatus : o.status <;> simp_all [Status.awaitsPayment, Status.inUse]

/-- Every accepted action sets the fields of the status that it leads to. -/
theorem Coherent.transition (h : o.Coherent) (ht : o.transition a now = .ok (next, t)) :
    next.Coherent := by
  have early := h.of_rank_lt_shipped
  have pending := h.status_of_awaitsPayment
  obtain ⟨-, hdeadline, hunreserved, hpayment, hconfirmed, hpaid, hshipped, hdelivered, hrefund,
    hrefundReason, hrefunded, hcancelled, hfailureReason⟩ := h
  obtain ⟨e, he, rfl, -⟩ := accepts_of_transition ht
  cases he with
  | cancel reason hs =>
    obtain ⟨h₁, h₂, h₃, h₄, h₅, -, -⟩ := early ((Action.cancel_allowedIn_iff ..).1 hs)
    constructor <;> simp [apply, Status.inUse, hdeadline, h₁, h₂, h₃, h₄, h₅]
    exact hpaid
  | timeOut hs =>
    have hs := pending hs
    obtain ⟨h₁, h₂, h₃, h₄, h₅, -, -⟩ := early (by rw [hs]; decide)
    constructor <;>
      simp [apply, Status.inUse, hdeadline, hpayment, hconfirmed, hs, h₁, h₂, h₃, h₄, h₅]
  | markStockReserved _ _ hs | confirm hs | linkPayment _ hs | completePayment _ hs | prepare hs
  | ship hs | deliver hs | refund _ _ hs | completeRefund _ hs =>
    -- What is known of the order is said of its one status before its fields are compared.
    simp only [hs, List.mem_cons, List.not_mem_nil, reduceCtorEq, or_false, or_true, iff_false,
      iff_true, ne_eq, not_false_eq_true, true_implies, Option.not_isSome_iff_eq_none,
      false_implies] at *
    constructor <;> simp_all [apply, Status.inUse]

/-- A refund that is under way has been asked for, so it can be completed. -/
theorem Coherent.transition_completeRefund (h : o.Coherent) (now : Instant) :
    o.transition .completeRefund now ≠ .error .refundNotRequested := by
  by_cases hs : o.status = .refundProcessing
  · obtain ⟨refund, hrefund⟩ := Option.isSome_iff_exists.1 (h.refund.2 (by simp [hs]))
    rw [transition_of_accepts (.completeRefund refund hs hrefund)]
    exact nofun
  · have hallowed : Action.completeRefund.allowedIn o.status = false := by
      simpa [Action.allowedIn, Action.requires] using hs
    simp [Order.transition, decide, guarded, hallowed]

/-! ## The instants of an order -/

/-- When the order was confirmed, shipped, delivered, refunded and cancelled, as far as it was. -/
def stamps (o : Order) : List Instant :=
  [o.confirmedAt, o.shippedAt, o.deliveredAt, o.refundedAt, o.cancelledAt].flatMap Option.toList

/-- The instants of an order, from its placement to its last change. -/
def milestones (o : Order) : List Instant := o.createdAt :: o.stamps ++ [o.updatedAt]

/-- An accepted action stamps the order with its instant, after all other stamps, or not at all. -/
theorem Coherent.stamps_of_transition (h : o.Coherent) (ht : o.transition a now = .ok (next, t)) :
    next.stamps = o.stamps ∨ next.stamps = o.stamps ++ [now] := by
  have early := h.of_rank_lt_shipped
  have pending := h.status_of_awaitsPayment
  obtain ⟨-, -, -, -, hconfirmed, -, hshipped, hdelivered, -, -, hrefunded, hcancelled, -⟩ := h
  obtain ⟨e, he, rfl, -⟩ := accepts_of_transition ht
  cases he with
  | markStockReserved | confirm | linkPayment | completePayment | refund => exact .inl rfl
  | cancel _ hs =>
    obtain ⟨h₁, h₂, h₃, -, -, h₄, -⟩ := early ((Action.cancel_allowedIn_iff ..).1 hs)
    right
    simp [stamps, apply, h₁, h₂, h₃, h₄]
  | timeOut hs =>
    have hs := pending hs
    right
    simp_all [stamps, apply]
  | prepare hs | ship hs | deliver hs | completeRefund _ hs =>
    right
    clear early pending
    simp only [hs, List.mem_cons, List.not_mem_nil, reduceCtorEq, or_false, or_true, iff_false,
      iff_true, ne_eq, not_false_eq_true, true_implies, Option.not_isSome_iff_eq_none] at *
    simp [stamps, apply, *]

theorem updatedAt_of_transition (ht : o.transition a now = .ok (next, t)) :
    next.updatedAt = now := by
  obtain ⟨e, he, rfl, -⟩ := accepts_of_transition ht
  cases he <;> rfl

private theorem pairwise_concat {ts : List Instant} {t : Instant} (hts : ts.Pairwise (· ≤ ·))
    (ht : ∀ s ∈ ts, s ≤ t) : (ts ++ [t]).Pairwise (· ≤ ·) :=
  List.pairwise_append.2 ⟨hts, List.pairwise_singleton .., by simpa using ht⟩

/-- An action that is not taken before the last change keeps the instants in order. -/
theorem Coherent.milestones_of_transition (h : o.Coherent)
    (ht : o.transition a now = .ok (next, t)) (ho : o.milestones.Pairwise (· ≤ ·))
    (hnow : o.updatedAt ≤ now) : next.milestones.Pairwise (· ≤ ·) := by
  obtain ⟨hstamps, -, hlast⟩ := List.pairwise_append.1 ho
  have hbefore : ∀ s ∈ o.createdAt :: o.stamps, s ≤ now := fun s hs =>
    Int.le_trans (hlast s hs _ (List.mem_singleton_self _)) hnow
  have hconcat := pairwise_concat hstamps hbefore
  have hcreatedAt : next.createdAt = o.createdAt := (samePlacement_of_transition ht).createdAt
  rw [milestones, hcreatedAt, updatedAt_of_transition ht]
  rcases h.stamps_of_transition ht with hsame | hnew
  · rw [hsame]
    exact hconcat
  · rw [hnew, ← List.cons_append]
    refine pairwise_concat hconcat fun s hs => ?_
    rcases List.mem_append.1 hs with hs | hs
    · exact hbefore s hs
    · exact Int.le_of_eq (congrArg Instant.rank (List.mem_singleton.1 hs))

/-! ## Any attempts -/

variable {as : List (Action × Instant)}

theorem Coherent.tryAll (h : o.Coherent) (as : List (Action × Instant)) :
    (o.tryAll as).1.Coherent :=
  tryAll_keeps as (fun ht hx => hx.transition ht) h

/-- Attempts that follow one another in time keep the instants in order. -/
theorem Coherent.milestones_tryAll (h : o.Coherent) (ho : o.milestones.Pairwise (· ≤ ·))
    (has : (o.updatedAt :: as.map Prod.snd).Pairwise (· ≤ ·)) :
    (o.tryAll as).1.milestones.Pairwise (· ≤ ·) := by
  induction as generalizing o with
  | nil => exact ho
  | cons first rest ih =>
    obtain ⟨a, now⟩ := first
    obtain ⟨hnow, hrest⟩ := List.pairwise_cons.1 has
    cases ht : o.transition a now with
    | error rejection =>
      rw [tryAll_of_error ht]
      refine ih h ho (List.pairwise_cons.2 ⟨fun s hs => ?_, hrest.of_cons⟩)
      exact hnow s (List.mem_cons_of_mem _ hs)
    | ok moved =>
      obtain ⟨next, t⟩ := moved
      rw [tryAll_of_ok ht]
      refine ih (h.transition ht) (h.milestones_of_transition ht ho ?_) ?_
      · exact hnow now (List.mem_cons_self ..)
      · rw [updatedAt_of_transition ht]
        exact hrest

/--
The fields of an order that was placed and then asked for anything, by anyone.

Which of them are set agrees with its status, which is one of those in use. So a refund that is
under way can always be completed. If nothing was asked for before what had been asked for earlier,
the order was placed, confirmed, shipped, delivered and refunded in this order of time, cancelled
after all of that, and changed last of all.
-/
theorem fields_agree_with_status {request : NewOrder} {placedAt : Instant} {e : Event}
    (h : place request placedAt = .ok (o, e)) (as : List (Action × Instant)) :
    (o.tryAll as).1.Coherent ∧
      (∀ now, (o.tryAll as).1.transition .completeRefund now ≠ .error .refundNotRequested) ∧
      ((placedAt :: as.map Prod.snd).Pairwise (· ≤ ·) →
        (o.tryAll as).1.milestones.Pairwise (· ≤ ·)) := by
  obtain rfl := eq_ofRequest_of_place h
  have hcoherent := coherent_ofRequest request placedAt
  refine ⟨hcoherent.tryAll as, (hcoherent.tryAll as).transition_completeRefund, fun has => ?_⟩
  refine hcoherent.milestones_tryAll ?_ has
  exact pairwise_concat (List.pairwise_singleton ..)
    fun s hs => Int.le_of_eq (congrArg Instant.rank (List.mem_singleton.1 hs))

/-- The lamp was refunded after it had been delivered. -/
theorem fields_of_refunded_lamp :
    let lamp := ofRequest lampRequest (.ofSecond 0)
    place lampRequest (.ofSecond 0) = .ok (lamp, .placed lampRequest (.ofSecond 0)) ∧
      (lamp.tryAll lampLife).1.Coherent ∧
      (∀ now, (lamp.tryAll lampLife).1.transition .completeRefund now ≠
        .error .refundNotRequested) ∧
      (Instant.ofSecond 0 :: lampLife.map Prod.snd).Pairwise (· ≤ ·) ∧
      (lamp.tryAll lampLife).1.milestones.Pairwise (· ≤ ·) ∧
      (lamp.tryAll lampLife).1.milestones = [0, 5, 6, 7, 9, 9].map Instant.ofSecond := by
  obtain ⟨hcoherent, hcomplete, hmilestones⟩ := fields_agree_with_status place_lampRequest lampLife
  have htime : (Instant.ofSecond 0 :: lampLife.map Prod.snd).Pairwise (· ≤ ·) := by decide +kernel
  exact ⟨place_lampRequest, hcoherent, hcomplete, htime, hmilestones htime, by decide +kernel⟩

end Order
end Fulfilment
