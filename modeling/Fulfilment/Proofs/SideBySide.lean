import Fulfilment.Proofs.Fallible

/-!
# Running side by side

One script, run alone in each of two states. `Agrees` says that both runs end with one result, and
how the states they end in are related. It is read forwards: both runs go on from one reply with the
same rest of the script, so a sequence agrees if its first part does and the second does from there
(`Agrees.bind`), and what every script of a list keeps, the list keeps (`agrees_mapM`).
-/
namespace Fulfilment
namespace Script

variable {I : Interface} {α β ε σ : Type} {answer : I.Handler σ} {s t : σ}

/-- Run in both states, the script ends with one result and with states that are related so. -/
def Agrees (answer : I.Handler σ) (ends : α → σ → σ → Prop) (p : Script I α) (s t : σ) : Prop :=
  (p.run answer s).1 = (p.run answer t).1 ∧
    ends (p.run answer s).1 (p.run answer s).2 (p.run answer t).2

@[simp] theorem agrees_done {ends : α → σ → σ → Prop} {a : α} :
    (Script.done a : Script I α).Agrees answer ends s t ↔ ends a s t :=
  and_iff_right rfl

/-- Scripts that agree for one purpose agree for any weaker one. -/
theorem Agrees.mono {ends ends' : α → σ → σ → Prop} {p : Script I α}
    (h : p.Agrees answer ends s t) (himp : ∀ a s t, ends a s t → ends' a s t) :
    p.Agrees answer ends' s t := ⟨h.1, himp _ _ _ h.2⟩

/-- A sequence agrees if the second part agrees wherever the first one ends. -/
theorem Agrees.bind {ends : β → σ → σ → Prop} {p : Script I α} {f : α → Script I β}
    (h : p.Agrees answer (fun a s t => (f a).Agrees answer ends s t) s t) :
    (p >>= f).Agrees answer ends s t := by
  obtain ⟨hresult, hrest⟩ := h
  rw [Agrees, run_bind, run_bind, ← hresult]
  exact hrest

theorem Agrees.map {ends : β → σ → σ → Prop} {p : Script I α} {f : α → β}
    (h : p.Agrees answer (fun a => ends (f a)) s t) : (f <$> p).Agrees answer ends s t := by
  rw [map_eq_pure_bind]
  exact (h.mono fun _ _ _ ha => agrees_done.2 ha).bind

/-- What each script of a list keeps of two states, all of them in turn keep, with the same results.
-/
theorem agrees_mapM {motive : σ → σ → Prop} {f : α → Script I β}
    (step : ∀ a s t, motive s t → (f a).Agrees answer (fun _ => motive) s t) (as : List α)
    (h : motive s t) : (as.mapM f).Agrees answer (fun _ => motive) s t := by
  induction as generalizing s t with
  | nil => exact agrees_done.2 h
  | cons a as ih =>
    rw [List.mapM_cons]
    refine ((step a s t h).mono fun b s t hb => ?_).bind
    exact Agrees.bind (f := fun bs => .done (b :: bs))
      ((ih hb).mono fun _ _ _ hbs => agrees_done.2 hbs)

/-! ## Scripts that may fail -/

variable {ends : Except ε β → σ → σ → Prop} {f : α → ExceptT ε (Script I) β}

theorem agrees_run_bind {p : ExceptT ε (Script I) α}
    (h : p.run.Agrees answer (fun r s t => (goOn f r).Agrees answer ends s t) s t) :
    (p >>= f).run.Agrees answer ends s t := by
  rw [run_bind_eq_goOn]
  exact h.bind

theorem agrees_run_lift {q : Script I α}
    (h : q.Agrees answer (fun a s t => (f a).run.Agrees answer ends s t) s t) :
    ((liftM q : ExceptT ε (Script I) α) >>= f).run.Agrees answer ends s t := by
  rw [run_lift_bind]
  exact h.bind

end Script
end Fulfilment
