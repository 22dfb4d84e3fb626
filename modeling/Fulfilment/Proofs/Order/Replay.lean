import Fulfilment.Proofs.Order.Attempts

/-!
# Replay

An order is the fold of its events. Deciding looks at the order, applying does not ask whether the
event was allowed, and so a history can be applied to any order at all: the placing event replaces
everything but the version, and no event reads the version. What the run ended with is what the
replay ends with.
-/
namespace Fulfilment
namespace Order

variable {o next last : Order} {a : Action} {now : Instant} {t : Transition}
  {ts : List Transition} {as : List (Action × Instant)}

/-! ## Events and versions -/

def withVersion (o : Order) (v : Int) : Order := { o with version := v }

/-- No event reads the version. -/
theorem apply_withVersion (o : Order) (v : Int) (e : Event) :
    (o.withVersion v).apply e = (o.apply e).withVersion v := by
  cases e <;> rfl

theorem applyAll_withVersion (o : Order) (v : Int) (es : List Event) :
    (o.withVersion v).applyAll es = (o.applyAll es).withVersion v := by
  induction es generalizing o with
  | nil => rfl
  | cons e es ih => rw [applyAll_cons, applyAll_cons, apply_withVersion, ih]

/-- A placing event leaves nothing of an order but its version. -/
theorem apply_placed (base : Order) (request : NewOrder) (placedAt : Instant) :
    base.apply (.placed request placedAt) =
      (ofRequest request placedAt).withVersion base.version := rfl

theorem applyAll_append (o : Order) (es es' : List Event) :
    o.applyAll (es ++ es') = (o.applyAll es).applyAll es' := List.foldl_append

theorem event_of_place {request : NewOrder} {placedAt : Instant} {e : Event}
    (h : place request placedAt = .ok (o, e)) : e = .placed request placedAt := by
  unfold place at h
  split at h
  · cases h
  · cases h
    rfl

/-! ## The events of a run -/

/-- What happened in some accepted actions. -/
def eventsOf (ts : List Transition) : List Event := ts.map Transition.event

@[simp] theorem eventsOf_cons (t : Transition) (ts : List Transition) :
    eventsOf (t :: ts) = t.event :: eventsOf ts := rfl

@[simp] theorem eventsOf_append (ts ts' : List Transition) :
    eventsOf (ts ++ ts') = eventsOf ts ++ eventsOf ts' := List.map_append

theorem apply_event_of_transition (h : o.transition a now = .ok (next, t)) :
    o.apply t.event = next := by
  obtain ⟨e, -, rfl, rfl⟩ := accepts_of_transition h
  rfl

/-- The events of actions that were accepted together lead where these did. -/
theorem applyAll_eventsOf_transitionAll (h : o.transitionAll as = .ok (last, ts)) :
    o.applyAll (eventsOf ts) = last := by
  induction as generalizing o ts with
  | nil =>
    cases h
    rfl
  | cons first rest ih =>
    obtain ⟨next, t, ts', hfirst, hrest, rfl⟩ := transitionAll_cons h
    rw [eventsOf_cons, applyAll_cons, apply_event_of_transition hfirst]
    exact ih hrest

/-! ## Groups -/

/-- Asks the order for several groups of things in turn, each group all or nothing, and goes on
after those that it refuses. Answers the order as it is then and the actions that were accepted. -/
def tryGroups (o : Order) : List (List (Action × Instant)) → Order × List Transition
  | [] => (o, [])
  | as :: rest =>
    match o.transitionAll as with
    | .error _ => o.tryGroups rest
    | .ok (last, ts) => ((last.tryGroups rest).1, ts ++ (last.tryGroups rest).2)

theorem tryGroups_singletons (o : Order) (as : List (Action × Instant)) :
    o.tryGroups (as.map fun a => [a]) = o.tryAll as := by
  induction as generalizing o with
  | nil => rfl
  | cons first rest ih =>
    obtain ⟨a, now⟩ := first
    cases h : o.transition a now with
    | error rejection => simp only [List.map_cons, tryGroups, tryAll, transitionAll, h, ih]
    | ok moved =>
      simp only [List.map_cons, tryGroups, tryAll, transitionAll, h, ih, List.singleton_append]

/-- The events of groups lead where the groups did. -/
theorem applyAll_eventsOf_tryGroups (o : Order) (groups : List (List (Action × Instant))) :
    o.applyAll (eventsOf (o.tryGroups groups).2) = (o.tryGroups groups).1 := by
  induction groups generalizing o with
  | nil => rfl
  | cons as rest ih =>
    cases h : o.transitionAll as with
    | error rejection =>
      simp only [tryGroups, h]
      exact ih o
    | ok moved =>
      obtain ⟨last, ts⟩ := moved
      simp only [tryGroups, h, eventsOf_append, applyAll_append,
        applyAll_eventsOf_transitionAll h]
      exact ih last

/-- The events of attempts lead where the attempts did. -/
theorem applyAll_eventsOf_tryAll (o : Order) (as : List (Action × Instant)) :
    o.applyAll (eventsOf (o.tryAll as).2) = (o.tryAll as).1 := by
  rw [← tryGroups_singletons]
  exact applyAll_eventsOf_tryGroups o _

/-! ## Replay on any order -/

/-- A history that begins with placing an order makes that order of any other, and its events then
lead where they lead from there. Only the version stays. -/
theorem applyAll_of_place {request : NewOrder} {placedAt : Instant} {e : Event}
    (h : place request placedAt = .ok (o, e)) (base : Order) (es : List Event) :
    base.applyAll (e :: es) = (o.applyAll es).withVersion base.version := by
  rw [event_of_place h, eq_ofRequest_of_place h, applyAll_cons, apply_placed, applyAll_withVersion]

/--
The events of an order rebuild it.

An order was placed and then asked for anything, one by one or in groups that are accepted as a
whole or not at all. Its placing event and then the events of all that it accepted, applied to any
order whatsoever, give the order as it is in the end, with the version of the one that they were
applied to.
-/
theorem replay_rebuilds_order {request : NewOrder} {placedAt : Instant} {e : Event}
    (h : place request placedAt = .ok (o, e)) (base : Order) :
    (∀ as, base.applyAll (e :: eventsOf (o.tryAll as).2) =
        { (o.tryAll as).1 with version := base.version }) ∧
      ∀ groups, base.applyAll (e :: eventsOf (o.tryGroups groups).2) =
        { (o.tryGroups groups).1 with version := base.version } := by
  constructor
  · intro as
    rw [applyAll_of_place h, applyAll_eventsOf_tryAll]
    rfl
  · intro groups
    rw [applyAll_of_place h, applyAll_eventsOf_tryGroups]
    rfl

/-- A vase that was saved seven times, paid and cancelled. -/
def lostVase : Order where
  id := ⟨.ofNat 3⟩
  number := ⟨"ORD-19700101-VASE00"⟩
  version := 7
  user := ⟨.ofNat 4⟩
  store := ⟨"other"⟩
  status := .cancelled
  lines := [⟨⟨"vase"⟩, "Vase", 2, ⟨50⟩⟩]
  payment := some ⟨"other payment"⟩
  createdAt := .ofSecond 20
  updatedAt := .ofSecond 21
  cancelledAt := some (.ofSecond 21)
  failureReason := some "broken"

/-- The whole life of the lamp, replayed on the vase, gives the refunded lamp with the vase's
version. So it is with the shipped lamp, which was asked for its steps in groups of which two were
refused. -/
theorem replay_of_refunded_lamp :
    let lamp := ofRequest lampRequest (.ofSecond 0)
    let placed := Event.placed lampRequest (.ofSecond 0)
    let groups := [lampLife.take 2, [(.prepare, .ofSecond 3)],
      [(.completePayment ⟨"payment"⟩, .ofSecond 4), (.prepare, .ofSecond 5),
        (.deliver, .ofSecond 6)],
      [(.completePayment ⟨"payment"⟩, .ofSecond 7), (.prepare, .ofSecond 7), (.ship, .ofSecond 7)]]
    place lampRequest (.ofSecond 0) = .ok (lamp, placed) ∧
      (lamp.tryAll lampLife).1.status = .refundCompleted ∧
      (lostVase.applyAll (placed :: eventsOf (lamp.tryAll lampLife).2) =
        { (lamp.tryAll lampLife).1 with version := 7 }) ∧
      (lamp.tryGroups groups).1.status = .shipped ∧
      lostVase.applyAll (placed :: eventsOf (lamp.tryGroups groups).2) =
        { (lamp.tryGroups groups).1 with version := 7 } := by
  have hreplay := replay_rebuilds_order place_lampRequest lostVase
  exact ⟨place_lampRequest, by decide +kernel, hreplay.1 lampLife, by decide +kernel, hreplay.2 _⟩

end Order
end Fulfilment
