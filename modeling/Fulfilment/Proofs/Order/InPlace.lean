import Fulfilment.Order.InPlace
import Fulfilment.Proofs.Lists
import Fulfilment.Proofs.Order.Replay
import Mathlib.Data.List.Chain

/-!
# Decisions all together

Decisions can be carried out one by one, each about the order that the one before left. A refusal in
their midst then leaves an order on which some of them were carried out. All together they come to
the same if none is refused (`on_carryOutAll`), since working through the rest of them on a copy
does what carrying out the rest does (`workThrough_eq`); and otherwise the order is not touched.
-/
namespace Fulfilment

variable {o last : Order} {d : Decision} {ds : List Decision} {done : List Advance}
  {events : List Event} {rejection : Rejection}

/-! ## One decision -/

/-- A decision that does not refuse is carried out on the order, and a refused one leaves it. -/
theorem Decision.on_carryOut (d : Decision) (o : Order) :
    d.carryOut.on o =
      match d o with
      | .ok events => (.ok ⟨o.status, (o.applyAll events).status, events⟩, o.applyAll events)
      | .error rejection => (.error rejection, o) := by
  simp only [carryOut, InPlace.on_bind, InPlace.on_get]
  cases d o <;> simp only [InPlace.on_bind, InPlace.on_get, InPlace.on_set, InPlace.on_pure,
    InPlace.on_throw]

theorem Decision.on_carryOut_of_ok (h : d o = .ok events) :
    d.carryOut.on o =
      (.ok ⟨o.status, (o.applyAll events).status, events⟩, o.applyAll events) := by
  rw [on_carryOut, h]

theorem Decision.on_carryOut_of_error (h : d o = .error rejection) :
    d.carryOut.on o = (.error rejection, o) := by
  rw [on_carryOut, h]

/-! ## One by one -/

/-- Carries out decisions one after another, and stops at the first that is refused. -/
def carryOutEach (ds : List Decision) : InPlace (List Advance) := ds.mapM Decision.carryOut

@[simp] theorem on_carryOutEach_nil (o : Order) : (carryOutEach []).on o = (.ok [], o) := rfl

/-- The first decision is carried out before the others, on the order as it is. -/
theorem on_carryOutEach_cons (d : Decision) (ds : List Decision) (o : Order) :
    (carryOutEach (d :: ds)).on o =
      match d o with
      | .error rejection => (.error rejection, o)
      | .ok events =>
        match (carryOutEach ds).on (o.applyAll events) with
        | (.ok done, last) => (.ok (⟨o.status, (o.applyAll events).status, events⟩ :: done), last)
        | (.error rejection, last) => (.error rejection, last) := by
  rw [carryOutEach, List.mapM_cons, InPlace.on_bind]
  cases h : d o with
  | error rejection => rw [Decision.on_carryOut_of_error h]
  | ok events =>
    rw [Decision.on_carryOut_of_ok h]
    simp only [InPlace.on_bind, carryOutEach]
    rcases (ds.mapM Decision.carryOut).on (o.applyAll events) with ⟨_ | _, last⟩ <;> simp

/-! ## All together -/

/-- Working through decisions on a copy does to the copy what carrying them out does. -/
theorem workThrough_eq (copy : Order) (done : List Advance) (ds : List Decision) :
    workThrough copy done ds =
      match (carryOutEach ds).on copy with
      | (.ok more, last) => .ok (last, done ++ more)
      | (.error rejection, _) => .error rejection := by
  induction ds generalizing copy done with
  | nil => simp [workThrough]
  | cons d ds ih =>
    rw [workThrough, on_carryOutEach_cons, Decision.on_carryOut]
    cases d copy with
    | error rejection => rfl
    | ok events =>
      dsimp only
      rw [ih]
      rcases (carryOutEach ds).on (copy.applyAll events) with ⟨_ | more, last⟩ <;> simp

/-- The copy takes the order's place once all decisions were worked through. -/
theorem on_carryOutAll_eq_workThrough (ds : List Decision) (o : Order) :
    (carryOutAll ds).on o =
      match workThrough o [] ds with
      | .ok (copy, done) => (.ok done, copy)
      | .error rejection => (.error rejection, o) := by
  simp only [carryOutAll, InPlace.on_bind, InPlace.on_get]
  rcases workThrough o [] ds with _ | ⟨copy, done⟩ <;>
    simp only [InPlace.on_bind, InPlace.on_set, InPlace.on_pure, InPlace.on_throw]

/-- All together decisions do what they do one by one, unless one is refused. -/
theorem on_carryOutAll (ds : List Decision) (o : Order) :
    (carryOutAll ds).on o =
      match (carryOutEach ds).on o with
      | (.ok done, last) => (.ok done, last)
      | (.error rejection, _) => (.error rejection, o) := by
  rw [on_carryOutAll_eq_workThrough, workThrough_eq]
  rcases (carryOutEach ds).on o with ⟨_ | done, last⟩ <;> rfl

/-! ## From the old order to the new one -/

/-- What came of some decisions leads from one order to another. -/
structure Leads (o : Order) (done : List Advance) (last : Order) : Prop where
  first : ∀ a ∈ done.head?, a.source = o.status
  linked : done.IsChain fun a b => a.target = b.source
  final : ∀ a ∈ done.getLast?, a.target = last.status
  replayed : o.applyAll (done.flatMap Advance.events) = last

theorem Leads.refl (o : Order) : Leads o [] o where
  first := by simp
  linked := .nil
  final := by simp
  replayed := rfl

/-- One more advance leads up to where the others begin. -/
theorem Leads.cons (h : Leads (o.applyAll events) done last) :
    Leads o (⟨o.status, (o.applyAll events).status, events⟩ :: done) last where
  first := by simp
  linked := List.isChain_cons.2 ⟨fun a ha => (h.first a ha).symm, h.linked⟩
  final a ha := by
    cases done with
    | nil =>
      obtain rfl := Option.some.inj ha
      exact congrArg Order.status h.replayed
    | cons b rest => exact h.final a (by rwa [List.getLast?_cons_cons] at ha)
  replayed := by
    rw [List.flatMap_cons, Order.applyAll_append]
    exact h.replayed

/-- What came of decisions one by one leads from the order before them to the order after them. -/
theorem leads_of_carryOutEach (h : (carryOutEach ds).on o = (.ok done, last)) :
    done.length = ds.length ∧ Leads o done last := by
  induction ds generalizing o done with
  | nil =>
    cases h
    exact ⟨rfl, .refl _⟩
  | cons d ds ih =>
    rw [on_carryOutEach_cons] at h
    split at h
    · cases h
    · next events hd =>
      split at h
      · next more next hmore =>
        cases h
        obtain ⟨hlength, hleads⟩ := ih hmore
        exact ⟨congrArg Nat.succ hlength, hleads.cons⟩
      · cases h

/-! ## Refusals -/

/-- The decision is refused once those before it were carried out. -/
def RefusedAfter (o : Order) (before : List Decision) (d : Decision) (rejection : Rejection) :
    Prop :=
  ∃ done next, (carryOutEach before).on o = (.ok done, next) ∧ d next = .error rejection

theorem refusedAfter_nil : RefusedAfter o [] d rejection ↔ d o = .error rejection := by
  simp [RefusedAfter]

theorem not_refusedAfter_of_error {e : Decision} {before : List Decision} {r : Rejection}
    (h : e o = .error r) : ¬ RefusedAfter o (e :: before) d rejection := by
  rintro ⟨done, next, hbefore, -⟩
  rw [on_carryOutEach_cons, h] at hbefore
  cases hbefore

/-- A decision that is not refused changes the order for those after it. -/
theorem refusedAfter_cons {e : Decision} {before : List Decision} (h : e o = .ok events) :
    RefusedAfter o (e :: before) d rejection ↔
      RefusedAfter (o.applyAll events) before d rejection := by
  unfold RefusedAfter
  rw [on_carryOutEach_cons, h]
  dsimp only
  rcases (carryOutEach before).on (o.applyAll events) with ⟨_ | done, next⟩ <;> simp

/-- Decisions one by one fail with the rejection of the first that is refused. -/
theorem carryOutEach_fails_iff :
    ((carryOutEach ds).on o).1 = .error rejection ↔
      ∃ before d after, ds = before ++ d :: after ∧ RefusedAfter o before d rejection := by
  induction ds generalizing o with
  | nil => simp
  | cons d ds ih =>
    rw [exists_cut_cons, refusedAfter_nil, on_carryOutEach_cons]
    cases h : d o with
    | error r => simp [not_refusedAfter_of_error h]
    | ok events =>
      simp only [refusedAfter_cons h, ← ih, reduceCtorEq, false_or]
      rcases (carryOutEach ds).on (o.applyAll events) with ⟨_ | done, next⟩ <;> simp

/-! ## All together or not at all -/

/--
**Decisions all together are carried out one by one or not at all.**

Several decisions are taken together about an order, whatever each of them reads and whichever
events it answers. They succeed exactly if none is refused when they are carried out one after
another, and then the order afterwards is the same, and so is the list of what came of them. In it
there is one advance for each decision. The first starts with the old status of the order, each of
the others with the status that the one before ended with, and the last ends with the new status.
The events of all of them applied to the old order give the new one.

If a decision is refused, that of the first such decision is the rejection, and the order stays as
it was.
-/
theorem carried_out_together_or_not_at_all (o : Order) (ds : List Decision) :
    (∀ done last,
      (carryOutAll ds).on o = (.ok done, last) ↔ (carryOutEach ds).on o = (.ok done, last)) ∧
    (∀ done last, (carryOutAll ds).on o = (.ok done, last) →
      done.length = ds.length ∧ Leads o done last) ∧
    (∀ rejection next, (carryOutAll ds).on o = (.error rejection, next) ↔
      next = o ∧
        ∃ before d after, ds = before ++ d :: after ∧ RefusedAfter o before d rejection) := by
  have heach : ∀ done last,
      (carryOutAll ds).on o = (.ok done, last) ↔ (carryOutEach ds).on o = (.ok done, last) := by
    intro done last
    rw [on_carryOutAll]
    rcases (carryOutEach ds).on o with ⟨_ | _, next⟩ <;> simp
  refine ⟨heach, fun done last h => leads_of_carryOutEach ((heach done last).1 h),
    fun rejection next => ?_⟩
  rw [← carryOutEach_fails_iff, on_carryOutAll]
  rcases (carryOutEach ds).on o with ⟨_ | _, last⟩
  · simp [and_comm, eq_comm]
  · simp

/-- An order for a cup. -/
def cupOrder : Order :=
  .ofRequest ⟨⟨.ofNat 1⟩, ⟨"first"⟩, ⟨.ofNat 2⟩, ⟨"store"⟩, [⟨⟨"cup"⟩, "Cup", 1, ⟨100⟩⟩]⟩
    (.ofSecond 0)

/-- The order for a cup can be confirmed and then get a payment. It stays as it was if, once
confirmed, it is to be prepared without one. -/
theorem cup_is_confirmed_with_payment_or_not_at_all :
    let confirm := Action.confirm.decision (.ofSecond 1)
    let pay := (Action.linkPayment ⟨"payment"⟩).decision (.ofSecond 2)
    let prepare := Action.prepare.decision (.ofSecond 2)
    (∃ done last, (carryOutAll [confirm, pay]).on cupOrder = (.ok done, last) ∧
      done.length = 2 ∧ Leads cupOrder done last ∧ last.status = .paymentPending) ∧
    (carryOutAll [confirm, prepare]).on cupOrder =
      (.error (.invalidState .confirmed [.paymentCompleted] "confirm order"), cupOrder) := by
  intro confirm pay prepare
  obtain ⟨-, hsuccess, -⟩ := carried_out_together_or_not_at_all cupOrder [confirm, pay]
  obtain ⟨-, -, hfailure⟩ := carried_out_together_or_not_at_all cupOrder [confirm, prepare]
  constructor
  · obtain ⟨hlength, hleads⟩ := hsuccess _ _ rfl
    exact ⟨_, _, rfl, hlength, hleads, rfl⟩
  · exact (hfailure _ _).2 ⟨rfl, [confirm], prepare, [], rfl, _, _, rfl, rfl⟩

end Fulfilment
