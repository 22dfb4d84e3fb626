import Fulfilment.Proofs.Alone
import Fulfilment.Proofs.Protocol

/-!
# Scripts that may fail

Of a sequence of scripts that may fail, the first failure is the outcome of the whole (`goOn`). So
what such a sequence ends with, and which protocol it obeys, is checked part by part, as it is for
scripts that cannot fail.
-/
namespace Fulfilment
namespace Script

variable {I : Interface} {α β ε σ : Type}

/-- How a sequence goes on after a part that may have failed. -/
def goOn (f : α → ExceptT ε (Script I) β) : Except ε α → Script I (Except ε β)
  | .ok a => (f a).run
  | .error e => .done (.error e)

@[simp] theorem goOn_ok (f : α → ExceptT ε (Script I) β) (a : α) : goOn f (.ok a) = (f a).run := rfl

@[simp] theorem goOn_error (f : α → ExceptT ε (Script I) β) (e : ε) :
    goOn f (.error e) = .done (.error e) := rfl

variable {p : ExceptT ε (Script I) α} {q : Script I α} {f : α → ExceptT ε (Script I) β}

/-- A sequence goes on after its first part, unless that has failed. -/
theorem run_bind_eq_goOn : (p >>= f).run = p.run >>= goOn f := by
  rw [ExceptT.run_bind]
  congr 1
  funext r
  cases r <;> rfl

/-- A part that cannot fail is always gone on from. -/
theorem run_lift_bind : ((liftM q : ExceptT ε (Script I) α) >>= f).run = q >>= fun a => (f a).run :=
  ExceptT.run_bind_lift q f

section Yields

variable {answer : I.Handler σ} {s : σ} {ends : Except ε β → σ → Prop}

theorem yields_run_bind :
    (p >>= f).run.Yields answer ends s ↔
      p.run.Yields answer (fun r s => (goOn f r).Yields answer ends s) s := by
  rw [run_bind_eq_goOn, yields_bind]

theorem yields_run_lift :
    ((liftM q : ExceptT ε (Script I) α) >>= f).run.Yields answer ends s ↔
      q.Yields answer (fun a s => (f a).run.Yields answer ends s) s := by
  rw [run_lift_bind, yields_bind]

end Yields

section Obeys

variable {P : Protocol I} {log : List (Exchange I)} {ends : Except ε β → List (Exchange I) → Prop}

theorem obeys_run_bind :
    (p >>= f).run.Obeys P ends log ↔
      p.run.Obeys P (fun r log => (goOn f r).Obeys P ends log) log := by
  rw [run_bind_eq_goOn, obeys_bind]

theorem obeys_run_lift :
    ((liftM q : ExceptT ε (Script I) α) >>= f).run.Obeys P ends log ↔
      q.Obeys P (fun a log => (f a).run.Obeys P ends log) log := by
  rw [run_lift_bind, obeys_bind]

/-- A sequence makes only calls of some kind if its parts do. -/
theorem only_run_bind {kind : I.Call → Prop} (hp : p.run.Only kind)
    (hf : ∀ a, (f a).run.Only kind) : (p >>= f).run.Only kind := by
  rw [run_bind_eq_goOn]
  refine only_bind hp fun r => ?_
  cases r with
  | ok a => exact hf a
  | error e => trivial

end Obeys

end Script
end Fulfilment
