import Fulfilment.Order.Transition

/-!
# Orders in place

A `Decision` looks at an order and says what happens to it, or refuses. `Decision.carryOut` takes it
about the order at hand and applies what happens to that order. `carryOutAll` works through several
decisions on a copy, which takes the order's place once none was refused.
-/
namespace Fulfilment

/-- What happens to an order, by how the order stands. -/
abbrev Decision := Order → Except Rejection (List Event)

/-- The decision about an action. -/
def Action.decision (a : Action) (now : Instant) : Decision := fun o => (o.decide a now).map ([·])

/-- What came of a decision: the statuses before and after it, and what happened. -/
structure Advance where
  source : Status
  target : Status
  events : List Event
deriving DecidableEq, Repr

/-- Nothing happened. -/
def Advance.isNoop (a : Advance) : Bool := a.events.isEmpty

/-- What came of the decision about an accepted action. -/
def Transition.advance (t : Transition) : Advance := ⟨t.source, t.target, [t.event]⟩

/-- Work on an order, which can change the order and fail. -/
abbrev InPlace := ExceptT Rejection (StateM Order)

namespace InPlace

variable {α β : Type}

/-- What comes of the work, and the order after it. -/
def on (work : InPlace α) (o : Order) : Except Rejection α × Order := work.run o

@[simp] theorem on_pure (a : α) (o : Order) : (pure a : InPlace α).on o = (.ok a, o) := rfl

@[simp] theorem on_get (o : Order) : (get : InPlace Order).on o = (.ok o, o) := rfl

@[simp] theorem on_set (next o : Order) : (set next : InPlace PUnit).on o = (.ok ⟨⟩, next) := rfl

@[simp] theorem on_throw (r : Rejection) (o : Order) :
    (throw r : InPlace α).on o = (.error r, o) := rfl

/-- Work that goes on after other work starts with the order that the other left. It does not start
if the other failed. -/
@[simp] theorem on_bind (work : InPlace α) (more : α → InPlace β) (o : Order) :
    (work >>= more).on o =
      match work.on o with
      | (.ok a, next) => (more a).on next
      | (.error r, next) => (.error r, next) := by
  change (ExceptT.bindCont more (work.on o).1).run (work.on o).2 = _
  rcases work.on o with ⟨_ | _, next⟩ <;> rfl

end InPlace

/-- Takes a decision about the order and applies what happens. -/
def Decision.carryOut (d : Decision) : InPlace Advance := do
  let o ← get
  match d o with
  | .error r => throw r
  | .ok events =>
    set (o.applyAll events)
    return ⟨o.status, (← get).status, events⟩

/-- Works through decisions on a copy, after others that `done` came of. -/
def workThrough (copy : Order) (done : List Advance) :
    List Decision → Except Rejection (Order × List Advance)
  | [] => .ok (copy, done)
  | d :: ds =>
    match d.carryOut.on copy with
    | (.ok a, next) => workThrough next (done ++ [a]) ds
    | (.error r, _) => .error r

/-- Takes several decisions in turn and applies what happens, unless one is refused. -/
def carryOutAll (ds : List Decision) : InPlace (List Advance) := do
  match workThrough (← get) [] ds with
  | .error r => throw r
  | .ok (copy, done) =>
    set copy
    return done

end Fulfilment
