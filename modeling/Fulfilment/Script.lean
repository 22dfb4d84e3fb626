/-!
# Scripts

A `Script` is an operation on shared stores, written down call by call: each step makes one call,
which a store answers as one atomic action, and goes on with the reply. The stores are not part of a
script, so one script can be run alone (`run`), under a failing store, or in steps between those of
other scripts (`step`). Running a sequence of scripts is running them in turn (`run_bind`).

An operation that cannot go on where it stands breaks off. That is not a failure it answers with:
whoever asked for it gets no answer, and nothing of what it has done is undone. The result of such
an operation is an `Ending`.
-/
namespace Fulfilment

/-- How an operation ends that may break off. -/
inductive Ending (α : Type) where
  | answered (answer : α)
  | brokeOff
deriving DecidableEq, Repr

/-- The calls that stores understand, and what they reply to each. -/
structure Interface where
  Call : Type
  Reply : Call → Type

/-- An operation that makes calls and ends with a result. -/
inductive Script (I : Interface) (α : Type) where
  | done (result : α)
  | call (request : I.Call) (next : I.Reply request → Script I α)

/-- How stores in a state of type `σ` answer calls. -/
def Interface.Handler (I : Interface) (σ : Type) : Type :=
  (request : I.Call) → σ → I.Reply request × σ

namespace Script

variable {I : Interface} {α β γ σ : Type}

/-- Makes one call and ends with its reply. -/
def ask (I : Interface) (request : I.Call) : Script I (I.Reply request) := .call request .done

/-- One script and then another, which may depend on the result of the first. -/
def bind : Script I α → (α → Script I β) → Script I β
  | .done a, f => f a
  | .call request next, f => .call request fun reply => (next reply).bind f

instance : Monad (Script I) where
  pure := .done
  bind := bind

@[simp] theorem pure_eq (a : α) : (Pure.pure a : Script I α) = .done a := rfl

@[simp] theorem done_bind (a : α) (f : α → Script I β) : (.done a : Script I α) >>= f = f a := rfl

@[simp] theorem call_bind (request : I.Call) (next : I.Reply request → Script I α)
    (f : α → Script I β) :
    .call request next >>= f = .call request fun reply => next reply >>= f := rfl

/-- Ending a script with its own result changes nothing. -/
theorem bind_done (p : Script I α) : p >>= Script.done = p := by
  induction p with
  | done a => rfl
  | call request next ih => simp only [call_bind, ih]

/-- Three scripts in turn, however they are grouped. -/
theorem bind_assoc (p : Script I α) (f : α → Script I β) (g : β → Script I γ) :
    p >>= f >>= g = p >>= fun a => f a >>= g := by
  induction p with
  | done a => rfl
  | call request next ih => simp only [call_bind, ih]

instance : LawfulMonad (Script I) :=
  .mk' _ bind_done (fun _ _ => rfl) bind_assoc

/-- Runs a script alone to its end. -/
def run (answer : I.Handler σ) : Script I α → σ → α × σ
  | .done a, s => (a, s)
  | .call request next, s =>
    let (reply, s) := answer request s
    (next reply).run answer s

@[simp] theorem run_done (answer : I.Handler σ) (a : α) (s : σ) :
    (Script.done a).run answer s = (a, s) := rfl

@[simp] theorem run_call (answer : I.Handler σ) (request : I.Call)
    (next : I.Reply request → Script I α) (s : σ) :
    (Script.call request next).run answer s =
      (next (answer request s).1).run answer (answer request s).2 := rfl

/-- A sequence runs its parts in turn. -/
@[simp] theorem run_bind (answer : I.Handler σ) (p : Script I α) (f : α → Script I β) (s : σ) :
    (p >>= f).run answer s = (f (p.run answer s).1).run answer (p.run answer s).2 := by
  induction p generalizing s with
  | done a => rfl
  | call request next ih => simp only [call_bind, run_call, ih]

/-- Makes the next call of a script, if it has one. -/
def step (answer : I.Handler σ) : Script I α → σ → Script I α × σ
  | .done a, s => (.done a, s)
  | .call request next, s =>
    let (reply, s) := answer request s
    (next reply, s)

end Script
end Fulfilment
