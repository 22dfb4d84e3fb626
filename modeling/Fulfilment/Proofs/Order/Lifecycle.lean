import Fulfilment.Order.Transition

/-!
# The life of an order

`Accepts` lists which actions an order accepts and the event that each of them is; `apply` says what
the event changes. What all actions have in common follows from the list by cases: the placement is
never touched, every action leads further on (`Status.rank`), and none leads out of a final status.
-/
namespace Fulfilment

namespace Status

/-- How far on an order is. Every accepted action leads further. -/
def rank : Status → Nat
  | created => 0
  | confirmed => 1
  | paymentPending | paymentProcessing => 2
  | paymentCompleted => 3
  | preparing => 4
  | shipped => 5
  | delivered => 6
  | refundProcessing => 7
  | _ => 8

/-- Whether the order is still to be prepared. -/
def precedesPreparation (s : Status) : Bool := s.rank < preparing.rank

theorem rank_le (s : Status) : s.rank ≤ cancelled.rank := by cases s <;> decide

theorem rank_of_isTerminal {s : Status} (h : s.isTerminal = true) : s.rank = cancelled.rank := by
  revert h
  cases s <;> decide

theorem rank_lt_cancelled {s : Status} (h : (!s.hasLeftWarehouse && !s.isTerminal) = true) :
    s.rank < cancelled.rank := by
  revert h
  cases s <;> decide

theorem rank_lt_paymentTimeout {s : Status} (h : s.awaitsPayment = true) :
    s.rank < paymentTimeout.rank := by
  revert h
  cases s <;> decide

end Status

/-- An order can be cancelled exactly before it is shipped. -/
theorem Action.cancel_allowedIn_iff (reason : String) (s : Status) :
    (Action.cancel reason).allowedIn s = true ↔ s.rank < Status.shipped.rank := by
  rw [Action.cancel_allowedIn]
  cases s <;> decide

def Action.reserves : Action → Bool
  | .markStockReserved .. => true
  | _ => false

namespace Order

variable {o next last : Order} {a : Action} {now : Instant} {e : Event} {t : Transition}
  {ts : List Transition} {as : List (Action × Instant)}

/-! ## Accepted actions -/

/-- The actions that an order accepts, each with what happens then. -/
inductive Accepts (o : Order) (now : Instant) : Action → Event → Prop where
  | markStockReserved (reservation : ReservationId) (expiresAt : Instant)
      (status : o.status = .created) :
      Accepts o now (.markStockReserved reservation expiresAt)
        (.stockReserved reservation expiresAt now)
  | confirm (status : o.status = .created) : Accepts o now .confirm (.confirmed now)
  | linkPayment (payment : PaymentId) (status : o.status = .confirmed) (free : o.payment = none) :
      Accepts o now (.linkPayment payment) (.paymentLinked payment now)
  | completePayment (payment : PaymentId) (status : o.status = .paymentPending)
      (linked : ∀ expected, o.payment = some expected → expected = payment) :
      Accepts o now (.completePayment payment) (.paymentCompleted payment now)
  | prepare (status : o.status = .paymentCompleted) : Accepts o now .prepare (.prepared now)
  | ship (status : o.status = .preparing) : Accepts o now .ship (.shipped now)
  | deliver (status : o.status = .shipped) : Accepts o now .deliver (.delivered now)
  | cancel (reason : String) (status : (Action.cancel reason).allowedIn o.status = true) :
      Accepts o now (.cancel reason) (.cancelled reason now)
  | timeOut (status : o.status.awaitsPayment = true) :
      Accepts o now .timeOut (.paymentTimedOut o.expiresAt o.timeoutReason now)
  | refund (refund : RefundId) (reason : String) (status : o.status = .delivered) :
      Accepts o now (.refund refund reason) (.refundRequested refund reason now)
  | completeRefund (refund : RefundId) (status : o.status = .refundProcessing)
      (requested : o.refund = some refund) :
      Accepts o now .completeRefund (.refundCompleted refund now)

private theorem allowedIn_singleton {s : Status} (h : a.requires = [s])
    (hallowed : a.allowedIn o.status = true) : o.status = s := by
  simpa [Action.allowedIn, h] using hallowed

/-- An order decides for exactly the actions that it accepts. -/
theorem accepts_of_decide (h : o.decide a now = .ok e) : o.Accepts now a e := by
  have hallowed := allowedIn_of_decide h
  cases a with
  | markStockReserved reservation expiresAt =>
    cases (guarded_eq_ok_iff.1 h).2
    exact .markStockReserved _ _ (allowedIn_singleton rfl hallowed)
  | confirm =>
    cases (guarded_eq_ok_iff.1 h).2
    exact .confirm (allowedIn_singleton rfl hallowed)
  | linkPayment payment =>
    simp only [decide] at h
    split at h
    · cases h
    · cases (guarded_eq_ok_iff.1 h).2
      exact .linkPayment _ (allowedIn_singleton rfl hallowed) ‹_›
  | completePayment payment =>
    have houtcome := (guarded_eq_ok_iff.1 h).2
    have hstatus : o.status = .paymentPending := allowedIn_singleton rfl hallowed
    split at houtcome
    · split at houtcome
      · cases houtcome
        exact .completePayment _ hstatus (by simp_all)
      · cases houtcome
    · cases houtcome
      exact .completePayment _ hstatus (by simp_all)
  | prepare =>
    cases (guarded_eq_ok_iff.1 h).2
    exact .prepare (allowedIn_singleton rfl hallowed)
  | ship =>
    cases (guarded_eq_ok_iff.1 h).2
    exact .ship (allowedIn_singleton rfl hallowed)
  | deliver =>
    cases (guarded_eq_ok_iff.1 h).2
    exact .deliver (allowedIn_singleton rfl hallowed)
  | cancel reason =>
    cases (guarded_eq_ok_iff.1 h).2
    exact .cancel _ hallowed
  | timeOut =>
    cases (guarded_eq_ok_iff.1 h).2
    refine .timeOut ?_
    revert hallowed
    cases o.status <;> decide
  | refund refund reason =>
    cases (guarded_eq_ok_iff.1 h).2
    exact .refund _ _ (allowedIn_singleton rfl hallowed)
  | completeRefund =>
    have houtcome := (guarded_eq_ok_iff.1 h).2
    split at houtcome
    · cases houtcome
      exact .completeRefund _ (allowedIn_singleton rfl hallowed) ‹_›
    · cases houtcome

/-- An accepted action leads to the order that its event makes. -/
theorem accepts_of_transition (h : o.transition a now = .ok (next, t)) :
    ∃ e, o.Accepts now a e ∧ next = o.apply e ∧ t = ⟨o.status, next.status, e⟩ := by
  unfold transition at h
  split at h
  · cases h
  · cases h
    exact ⟨_, accepts_of_decide ‹_›, rfl, rfl⟩

/-- Whatever an order accepts, its event is applied. -/
theorem transition_of_accepts (h : o.Accepts now a e) :
    o.transition a now = .ok (o.apply e, ⟨o.status, (o.apply e).status, e⟩) := by
  cases h with
  | markStockReserved _ _ hstatus | confirm hstatus | prepare hstatus | ship hstatus
  | deliver hstatus | refund _ _ hstatus =>
    simp [transition, decide, guarded, Action.allowedIn, Action.requires, hstatus]
  | linkPayment _ hstatus hfree =>
    simp [transition, decide, guarded, Action.allowedIn, Action.requires, hstatus, hfree]
  | completePayment payment hstatus hlinked =>
    cases hp : o.payment with
    | none => simp [transition, decide, guarded, Action.allowedIn, Action.requires, hstatus, hp]
    | some expected =>
      simp [transition, decide, guarded, Action.allowedIn, Action.requires, hstatus, hp,
        hlinked expected hp]
  | cancel _ hstatus => simp [transition, decide, guarded, hstatus]
  | timeOut hstatus =>
    have hallowed : Action.timeOut.allowedIn o.status = true := by
      revert hstatus
      cases o.status <;> decide
    simp [transition, decide, guarded, hallowed]
  | completeRefund _ hstatus hrequested =>
    simp [transition, decide, guarded, Action.allowedIn, Action.requires, hstatus, hrequested]

/-- Several actions are accepted if the first is, and then the others in turn. -/
theorem transitionAll_cons (h : o.transitionAll ((a, now) :: as) = .ok (last, ts)) :
    ∃ next t ts', o.transition a now = .ok (next, t) ∧ next.transitionAll as = .ok (last, ts') ∧
      ts = t :: ts' := by
  unfold transitionAll at h
  split at h
  · cases h
  · split at h
    · cases h
    · cases h
      exact ⟨_, _, _, ‹_›, ‹_›, rfl⟩

theorem transitionAll_cons_of (h : o.transition a now = .ok (next, t))
    (hrest : next.transitionAll as = .ok (last, ts)) :
    o.transitionAll ((a, now) :: as) = .ok (last, t :: ts) := by
  simp [transitionAll, h, hrest]

theorem transitionAll_singleton (h : o.transition a now = .ok (next, t)) :
    o.transitionAll [(a, now)] = .ok (next, [t]) := by
  simp [transitionAll, h]

/-- What each accepted action keeps is kept by all of them together. -/
theorem transitionAll_keeps {motive : Order → Prop} (h : o.transitionAll as = .ok (last, ts))
    (step : ∀ {a now o next t}, (a, now) ∈ as → o.transition a now = .ok (next, t) → motive o →
      motive next) (init : motive o) : motive last := by
  induction as generalizing o ts with
  | nil =>
    cases h
    exact init
  | cons first rest ih =>
    obtain ⟨next, t, ts', hfirst, hrest, -⟩ := transitionAll_cons h
    refine ih hrest (fun ha => step (List.mem_cons_of_mem _ ha)) ?_
    exact step (List.mem_cons_self ..) hfirst init

/-! ## What actions keep -/

/-- What an order was placed with. -/
structure SamePlacement (o o' : Order) : Prop where
  id : o'.id = o.id
  number : o'.number = o.number
  user : o'.user = o.user
  store : o'.store = o.store
  lines : o'.lines = o.lines
  createdAt : o'.createdAt = o.createdAt

theorem SamePlacement.refl (o : Order) : SamePlacement o o := ⟨rfl, rfl, rfl, rfl, rfl, rfl⟩

theorem SamePlacement.symm {o o' : Order} (h : SamePlacement o o') : SamePlacement o' o :=
  ⟨h.id.symm, h.number.symm, h.user.symm, h.store.symm, h.lines.symm, h.createdAt.symm⟩

theorem SamePlacement.trans {o₁ o₂ o₃ : Order} (h : SamePlacement o₁ o₂)
    (h' : SamePlacement o₂ o₃) : SamePlacement o₁ o₃ where
  id := h'.id.trans h.id
  number := h'.number.trans h.number
  user := h'.user.trans h.user
  store := h'.store.trans h.store
  lines := h'.lines.trans h.lines
  createdAt := h'.createdAt.trans h.createdAt

theorem samePlacement_of_transition (h : o.transition a now = .ok (next, t)) :
    SamePlacement o next := by
  obtain ⟨e, he, rfl, -⟩ := accepts_of_transition h
  cases he <;> exact ⟨rfl, rfl, rfl, rfl, rfl, rfl⟩

theorem version_of_transition (h : o.transition a now = .ok (next, t)) :
    next.version = o.version := by
  obtain ⟨e, -, rfl, -⟩ := accepts_of_transition h
  exact version_apply o e

theorem samePlacement_of_transitionAll (h : o.transitionAll as = .ok (last, ts)) :
    SamePlacement o last :=
  transitionAll_keeps (motive := SamePlacement o) h
    (fun _ ht hm => hm.trans (samePlacement_of_transition ht)) (.refl o)

theorem version_of_transitionAll (h : o.transitionAll as = .ok (last, ts)) :
    last.version = o.version :=
  transitionAll_keeps (motive := fun x => x.version = o.version) h
    (fun _ ht hm => (version_of_transition ht).trans hm) rfl

/-- Only marking stock as reserved sets the reservation. -/
theorem reservation_of_transition (ha : a.reserves = false)
    (h : o.transition a now = .ok (next, t)) : next.reservation = o.reservation := by
  obtain ⟨e, he, rfl, -⟩ := accepts_of_transition h
  cases he with
  | markStockReserved => cases ha
  | _ => rfl

theorem expiresAt_of_transition (ha : a.reserves = false)
    (h : o.transition a now = .ok (next, t)) : next.expiresAt = o.expiresAt := by
  obtain ⟨e, he, rfl, -⟩ := accepts_of_transition h
  cases he with
  | markStockReserved => cases ha
  | _ => rfl

/-- Only preparing sets the instant of the confirmation. -/
theorem confirmedAt_of_transition (ha : a ≠ .prepare) (h : o.transition a now = .ok (next, t)) :
    next.confirmedAt = o.confirmedAt := by
  obtain ⟨e, he, rfl, -⟩ := accepts_of_transition h
  cases he with
  | prepare => exact absurd rfl ha
  | _ => rfl

/-! ## How far an order is -/

/-- Every accepted action leads further. -/
theorem rank_lt_of_transition (h : o.transition a now = .ok (next, t)) :
    o.status.rank < next.status.rank := by
  obtain ⟨e, he, rfl, -⟩ := accepts_of_transition h
  cases he with
  | cancel reason hs =>
    rw [Action.cancel_allowedIn] at hs
    exact Status.rank_lt_cancelled hs
  | timeOut hs => exact Status.rank_lt_paymentTimeout hs
  | markStockReserved _ _ hs | confirm hs | linkPayment _ hs | completePayment _ hs | prepare hs
  | ship hs | deliver hs | refund _ _ hs | completeRefund _ hs => simp [hs, apply, Status.rank]

theorem rank_le_of_transitionAll (h : o.transitionAll as = .ok (last, ts)) :
    o.status.rank ≤ last.status.rank := by
  refine transitionAll_keeps (motive := fun x => o.status.rank ≤ x.status.rank) h ?_ (Nat.le_refl _)
  intro a now x next t _ ht hx
  have hlt := rank_lt_of_transition ht
  omega

theorem rank_lt_of_transitionAll (hne : as ≠ []) (h : o.transitionAll as = .ok (last, ts)) :
    o.status.rank < last.status.rank := by
  cases as with
  | nil => exact absurd rfl hne
  | cons first rest =>
    obtain ⟨next, t, ts', hfirst, hrest, -⟩ := transitionAll_cons h
    exact Nat.lt_of_lt_of_le (rank_lt_of_transition hfirst) (rank_le_of_transitionAll hrest)

/-- Each of several accepted actions was accepted somewhere on the way. -/
theorem exists_of_mem_transitionAll (h : o.transitionAll as = .ok (last, ts)) (ha : (a, now) ∈ as) :
    ∃ (before after : Order) (t : Transition), o.status.rank ≤ before.status.rank ∧
      before.transition a now = .ok (after, t) ∧ after.status.rank ≤ last.status.rank := by
  induction as generalizing o ts with
  | nil => cases ha
  | cons first rest ih =>
    obtain ⟨next, t, ts', hfirst, hrest, -⟩ := transitionAll_cons h
    rcases List.mem_cons.1 ha with rfl | ha
    · exact ⟨o, next, t, Nat.le_refl _, hfirst, rank_le_of_transitionAll hrest⟩
    · obtain ⟨before, after, t', hle, hstep, hle'⟩ := ih hrest ha
      have hlt := rank_lt_of_transition hfirst
      exact ⟨before, after, t', by omega, hstep, hle'⟩

/-- An order whose preparation is still to come has not been prepared. -/
def PreparedOnce (o : Order) : Prop := o.status.precedesPreparation = true → o.confirmedAt = none

/-- No accepted action lets an order be prepared again. -/
theorem preparedOnce_of_transition (ho : o.PreparedOnce) (h : o.transition a now = .ok (next, t)) :
    next.PreparedOnce := by
  intro hnext
  have hrank := rank_lt_of_transition h
  have hprecedes : o.status.precedesPreparation = true := by
    simp only [Status.precedesPreparation, decide_eq_true_eq] at hnext ⊢
    omega
  rw [confirmedAt_of_transition ?_ h, ho hprecedes]
  rintro rfl
  obtain ⟨e, he, rfl, -⟩ := accepts_of_transition h
  cases he
  cases hnext

end Order
end Fulfilment
