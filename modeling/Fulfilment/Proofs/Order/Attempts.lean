import Fulfilment.Proofs.Order.Lifecycle

/-!
# Attempts

What becomes of an order that is asked for one thing after the other, by whoever asks. What it
refuses changes nothing (`Order.tryAll`). So an order keeps whatever every accepted action keeps,
and each attempt that succeeds leads it further on.
-/
namespace Fulfilment
namespace Order

/-- Asks the order to do several things in turn, each at its own instant, and goes on after those
that it refuses. Answers the order as it is then and the actions that were accepted. -/
def tryAll (o : Order) : List (Action × Instant) → Order × List Transition
  | [] => (o, [])
  | (a, now) :: rest =>
    match o.transition a now with
    | .error _ => o.tryAll rest
    | .ok (next, t) => ((next.tryAll rest).1, t :: (next.tryAll rest).2)

variable {o next : Order} {a : Action} {now : Instant} {t : Transition}
  {as : List (Action × Instant)}

theorem tryAll_of_error {rejection : Rejection} (h : o.transition a now = .error rejection) :
    o.tryAll ((a, now) :: as) = o.tryAll as := by
  simp only [tryAll, h]

/-- An accepted action goes before those that are tried after it. -/
theorem tryAll_of_ok (h : o.transition a now = .ok (next, t)) :
    o.tryAll ((a, now) :: as) = ((next.tryAll as).1, t :: (next.tryAll as).2) := by
  simp only [tryAll, h]

theorem tryAll_append (o : Order) (as bs : List (Action × Instant)) :
    o.tryAll (as ++ bs) =
      (((o.tryAll as).1.tryAll bs).1, (o.tryAll as).2 ++ ((o.tryAll as).1.tryAll bs).2) := by
  induction as generalizing o with
  | nil => rfl
  | cons first rest ih =>
    obtain ⟨a, now⟩ := first
    rw [List.cons_append]
    cases h : o.transition a now with
    | error rejection => rw [tryAll_of_error h, tryAll_of_error h, ih]
    | ok moved => rw [tryAll_of_ok h, tryAll_of_ok h, ih, List.cons_append]

/-- What each accepted action keeps is kept by any attempts. -/
theorem tryAll_keeps {motive : Order → Prop} (as : List (Action × Instant))
    (step : ∀ {a now o next t}, o.transition a now = .ok (next, t) → motive o → motive next)
    (init : motive o) : motive (o.tryAll as).1 := by
  induction as generalizing o with
  | nil => exact init
  | cons first rest ih =>
    obtain ⟨a, now⟩ := first
    cases h : o.transition a now with
    | error rejection =>
      rw [tryAll_of_error h]
      exact ih init
    | ok moved =>
      rw [tryAll_of_ok h]
      exact ih (step h init)

/-! ## Progress -/

theorem target_of_transition (h : o.transition a now = .ok (next, t)) : t.target = next.status := by
  obtain ⟨e, -, -, rfl⟩ := accepts_of_transition h
  rfl

/-- Every accepted action leads at least one step further. -/
theorem rank_add_length_le (o : Order) (as : List (Action × Instant)) :
    o.status.rank + (o.tryAll as).2.length ≤ (o.tryAll as).1.status.rank := by
  induction as generalizing o with
  | nil => exact Nat.le_refl _
  | cons first rest ih =>
    obtain ⟨a, now⟩ := first
    cases h : o.transition a now with
    | error rejection =>
      rw [tryAll_of_error h]
      exact ih o
    | ok moved =>
      obtain ⟨next, t⟩ := moved
      have hrank := rank_lt_of_transition h
      have hrest := ih next
      simp only [tryAll_of_ok h, List.length_cons]
      omega

/-- The statuses that attempts bring an order to, its own first. -/
def visited (o : Order) (as : List (Action × Instant)) : List Status :=
  o.status :: (o.tryAll as).2.map Transition.target

/-- Each status that is visited is further on than those before. -/
theorem pairwise_visited (o : Order) (as : List (Action × Instant)) :
    (o.visited as).Pairwise fun s s' => s.rank < s'.rank := by
  induction as generalizing o with
  | nil => exact List.pairwise_singleton ..
  | cons first rest ih =>
    obtain ⟨a, now⟩ := first
    cases h : o.transition a now with
    | error rejection =>
      rw [visited, tryAll_of_error h]
      exact ih o
    | ok moved =>
      obtain ⟨next, t⟩ := moved
      have hrank := rank_lt_of_transition h
      have hrest := ih next
      rw [visited, tryAll_of_ok h, List.map_cons, target_of_transition h]
      refine List.pairwise_cons.2 ⟨fun s hs => ?_, hrest⟩
      rcases List.mem_cons.1 hs with rfl | hs
      · exact hrank
      · exact Nat.lt_trans hrank ((List.pairwise_cons.1 hrest).1 s hs)

theorem transition_of_isTerminal (h : o.status.isTerminal = true) (a : Action) (now : Instant) :
    ∃ rejection, o.transition a now = .error rejection := by
  cases ht : o.transition a now with
  | error rejection => exact ⟨rejection, rfl⟩
  | ok moved =>
    have hrank := rank_lt_of_transition ht
    have hmost := moved.1.status.rank_le
    rw [Status.rank_of_isTerminal h] at hrank
    omega

theorem eq_ofRequest_of_place {request : NewOrder} {e : Event}
    (h : place request now = .ok (o, e)) : o = ofRequest request now := by
  unfold place at h
  split at h
  · cases h
  · cases h
    rfl

/-! ## An order that is refunded -/

/-- A request for one lamp. -/
def lampRequest : NewOrder where
  id := ⟨.ofNat 1⟩
  number := ⟨"ORD-19700101-LAMP00"⟩
  user := ⟨.ofNat 2⟩
  store := ⟨"store"⟩
  lines := [⟨⟨"lamp"⟩, "Lamp", 1, ⟨100⟩⟩]

/-- The lamp comes all the way to a refund, second by second. It cannot be shipped before its
payment, nor cancelled in the end. -/
def lampLife : List (Action × Instant) :=
  [(.markStockReserved ⟨"reservation"⟩ (.ofSecond 60), .ofSecond 1),
    (.linkPayment ⟨"payment"⟩, .ofSecond 2), (.ship, .ofSecond 3),
    (.completePayment ⟨"payment"⟩, .ofSecond 4), (.prepare, .ofSecond 5), (.ship, .ofSecond 6),
    (.deliver, .ofSecond 7), (.refund ⟨"refund"⟩ "too dark", .ofSecond 8),
    (.completeRefund, .ofSecond 9), (.cancel "too late", .ofSecond 10)]

theorem place_lampRequest :
    place lampRequest (.ofSecond 0) =
      .ok (ofRequest lampRequest (.ofSecond 0), .placed lampRequest (.ofSecond 0)) := by
  have hlines : placementObjection lampRequest.lines = none := by decide +kernel
  rw [place, hlines]

end Order
end Fulfilment
