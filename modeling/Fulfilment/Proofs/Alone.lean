import Fulfilment.Script

/-!
# Running alone

What a script that runs alone ends with. `Yields` is read backwards through a script: a call has to
be answered so that the rest ends well (`yields_call`), and of two parts in turn the first has to
end where the second ends well (`yields_bind`).
-/
namespace Fulfilment
namespace Script

variable {I : Interface} {α β σ : Type} {answer : I.Handler σ} {s : σ}

/-- Run alone, the script ends with a result and stores of this kind. -/
def Yields (answer : I.Handler σ) (ends : α → σ → Prop) (p : Script I α) (s : σ) : Prop :=
  ends (p.run answer s).1 (p.run answer s).2

@[simp] theorem yields_done {ends : α → σ → Prop} {a : α} :
    (Script.done a : Script I α).Yields answer ends s ↔ ends a s := Iff.rfl

@[simp] theorem yields_call {ends : α → σ → Prop} {request : I.Call}
    {next : I.Reply request → Script I α} :
    (Script.call request next).Yields answer ends s ↔
      (next (answer request s).1).Yields answer ends (answer request s).2 := Iff.rfl

@[simp] theorem yields_ask {request : I.Call} {ends : I.Reply request → σ → Prop} :
    (ask I request).Yields answer ends s ↔ ends (answer request s).1 (answer request s).2 := Iff.rfl

/-- A sequence ends well if its first part ends where the second does. -/
@[simp] theorem yields_bind {ends : β → σ → Prop} {p : Script I α} {f : α → Script I β} :
    (p >>= f).Yields answer ends s ↔
      p.Yields answer (fun a s => (f a).Yields answer ends s) s := by
  rw [Yields, run_bind]
  rfl

@[simp] theorem yields_map {ends : β → σ → Prop} {p : Script I α} {f : α → β} :
    (f <$> p).Yields answer ends s ↔ p.Yields answer (fun a s => ends (f a) s) s := by
  rw [map_eq_pure_bind, yields_bind]
  rfl

/-- What every call keeps, every script keeps. -/
theorem run_keeps {motive : σ → Prop}
    (step : ∀ {s} request, motive s → motive (answer request s).2) (p : Script I α)
    (h : motive s) : motive (p.run answer s).2 := by
  induction p generalizing s with
  | done a => exact h
  | call request next ih => exact ih _ (step request h)

/-- A script that ends well for one purpose ends well for any weaker one. -/
theorem Yields.mono {ends ends' : α → σ → Prop} {p : Script I α} (h : p.Yields answer ends s)
    (himp : ∀ a s, ends a s → ends' a s) : p.Yields answer ends' s := himp _ _ h

end Script
end Fulfilment
