import Fulfilment.Proofs.Alone
import Fulfilment.Proofs.Pool

/-!
# Protocols

A `Protocol` says which calls a script may make after what it has said and heard, and which
exchanges it can rely on. A script that `Obeys` a protocol makes no other call, whatever the
expected replies are, and ends with a result that suits its exchanges. Obeying is checked piece by
piece (`Script.obeys_bind`), and tasks of a pool keep to their protocols as long as the stores give
what is expected (`System.run_obeys`).
-/
namespace Fulfilment

/-- Which calls a script may make after some exchanges, and which exchanges it relies on. -/
structure Protocol (I : Interface) where
  allows : List (Exchange I) → I.Call → Prop
  expects : Exchange I → Prop := fun _ => True

/-- Allows every call and relies on nothing. -/
def Protocol.free {I : Interface} : Protocol I where
  allows _ _ := True

variable {I : Interface} {α β : Type}

namespace Script

/-- After the exchanges of a log, the script makes only allowed calls, whatever the expected replies
are, and ends with a result that suits the exchanges by then. -/
def Obeys (P : Protocol I) (ends : α → List (Exchange I) → Prop) :
    Script I α → List (Exchange I) → Prop
  | .done a, log => ends a log
  | .call request next, log =>
    P.allows log request ∧
      ∀ reply, P.expects ⟨request, reply⟩ → (next reply).Obeys P ends (log ++ [⟨request, reply⟩])

variable {P : Protocol I} {log : List (Exchange I)}

@[simp] theorem obeys_done {ends : α → List (Exchange I) → Prop} {a : α} :
    (Script.done a : Script I α).Obeys P ends log ↔ ends a log := Iff.rfl

@[simp] theorem obeys_call {ends : α → List (Exchange I) → Prop} {request : I.Call}
    {next : I.Reply request → Script I α} :
    (Script.call request next).Obeys P ends log ↔
      P.allows log request ∧ ∀ reply, P.expects ⟨request, reply⟩ →
        (next reply).Obeys P ends (log ++ [⟨request, reply⟩]) := Iff.rfl

@[simp] theorem obeys_ask {request : I.Call} {ends : I.Reply request → List (Exchange I) → Prop} :
    (ask I request).Obeys P ends log ↔
      P.allows log request ∧ ∀ reply, P.expects ⟨request, reply⟩ →
        ends reply (log ++ [⟨request, reply⟩]) := Iff.rfl

/-- A sequence obeys a protocol if its first part ends where the second can go on. -/
@[simp] theorem obeys_bind {ends : β → List (Exchange I) → Prop} {p : Script I α}
    {f : α → Script I β} :
    (p >>= f).Obeys P ends log ↔ p.Obeys P (fun a log => (f a).Obeys P ends log) log := by
  induction p generalizing log with
  | done a => rfl
  | call request next ih => simp only [call_bind, obeys_call, ih]

@[simp] theorem obeys_map {ends : β → List (Exchange I) → Prop} {p : Script I α} {f : α → β} :
    (f <$> p).Obeys P ends log ↔ p.Obeys P (fun a log => ends (f a) log) log := by
  rw [map_eq_pure_bind, obeys_bind]
  rfl

/-- A script that ends well for one purpose ends well for any weaker one. -/
theorem Obeys.mono {ends ends' : α → List (Exchange I) → Prop} {p : Script I α}
    (h : p.Obeys P ends log) (himp : ∀ a log, ends a log → ends' a log) :
    p.Obeys P ends' log := by
  induction p generalizing log with
  | done a => exact himp a log h
  | call request next ih => exact ⟨h.1, fun reply hr => ih reply (h.2 reply hr)⟩

/-- The script makes only calls of some kind, whatever the replies are. -/
def Only (kind : I.Call → Prop) : Script I α → Prop
  | .done _ => True
  | .call request next => kind request ∧ ∀ reply, (next reply).Only kind

variable {kind : I.Call → Prop}

theorem only_ask {request : I.Call} (h : kind request) : (ask I request).Only kind :=
  ⟨h, fun _ => trivial⟩

/-- A sequence makes only calls of some kind if its parts do. -/
theorem only_bind {p : Script I α} {f : α → Script I β} (hp : p.Only kind)
    (hf : ∀ a, (f a).Only kind) : (p >>= f).Only kind := by
  induction p with
  | done a => exact hf a
  | call request next ih => exact ⟨hp.1, fun reply => ih reply (hp.2 reply)⟩

/-- A script that makes only calls of some kind makes only calls of any wider one. -/
theorem Only.mono {kind' : I.Call → Prop} {p : Script I α} (h : p.Only kind)
    (himp : ∀ {request}, kind request → kind' request) : p.Only kind' := by
  induction p with
  | done a => trivial
  | call request next ih => exact ⟨himp h.1, fun reply => ih reply (h.2 reply)⟩

/-- Calls of a kind that is always allowed keep what each of them keeps. -/
theorem Only.obeys {p : Script I α} (h : p.Only kind) {motive : List (Exchange I) → Prop}
    (allowed : ∀ {log request}, motive log → kind request → P.allows log request)
    (kept : ∀ {log request} reply, motive log → kind request → motive (log ++ [⟨request, reply⟩]))
    (init : motive log) : p.Obeys P (fun _ log => motive log) log := by
  induction p generalizing log with
  | done a => exact init
  | call request next ih =>
    exact ⟨allowed init h.1, fun reply _ => ih reply (h.2 reply) (kept reply init h.1)⟩

/-- What each call of a kind keeps of the stores, a script of such calls keeps when it runs
alone. -/
theorem Only.yields {σ : Type} {answer : I.Handler σ} {s : σ} {p : Script I α} (h : p.Only kind)
    {motive : σ → Prop}
    (kept : ∀ {s request}, kind request → motive s → motive (answer request s).2)
    (init : motive s) : p.Yields answer (fun _ s => motive s) s := by
  induction p generalizing s with
  | done a => exact init
  | call request next ih => exact ih _ (h.2 _) (kept h.1 init)

/-! ## What a script says alone -/

/-- The exchanges of a script that runs alone. -/
def transcript {σ : Type} (answer : I.Handler σ) : Script I α → σ → List (Exchange I)
  | .done _, _ => []
  | .call request next, s =>
    ⟨request, (answer request s).1⟩ ::
      (next (answer request s).1).transcript answer (answer request s).2

section Transcript

variable {σ : Type} {answer : I.Handler σ} {s : σ} {ends : α → List (Exchange I) → Prop}
  {p : Script I α}

@[simp] theorem transcript_done {a : α} :
    (Script.done a : Script I α).transcript answer s = [] := rfl

@[simp] theorem transcript_call {request : I.Call} {next : I.Reply request → Script I α} :
    (Script.call request next).transcript answer s =
      ⟨request, (answer request s).1⟩ ::
        (next (answer request s).1).transcript answer (answer request s).2 := rfl

/-- Of a sequence the parts are heard in turn. -/
@[simp] theorem transcript_bind {f : α → Script I β} :
    (p >>= f).transcript answer s =
      p.transcript answer s ++
        (f (p.run answer s).1).transcript answer (p.run answer s).2 := by
  induction p generalizing s with
  | done a => rfl
  | call request next ih => simp only [call_bind, transcript_call, run_call, ih, List.cons_append]

/-- A script that obeys a protocol and runs alone ends with a result that suits its exchanges. -/
theorem Obeys.ends_run (h : p.Obeys P ends log)
    (expected : ∀ request s, P.expects ⟨request, (answer request s).1⟩) :
    ends (p.run answer s).1 (log ++ p.transcript answer s) := by
  induction p generalizing log s with
  | done a =>
    rw [transcript, List.append_nil]
    exact h
  | call request next ih =>
    have hrest := ih _ (s := (answer request s).2) (h.2 _ (expected request s))
    rw [List.append_assoc, List.singleton_append] at hrest
    exact hrest

/-- A script that obeys a protocol and runs alone makes every call where it is allowed. -/
theorem Obeys.allows_of_transcript (h : p.Obeys P ends log)
    (expected : ∀ request s, P.expects ⟨request, (answer request s).1⟩)
    {before after : List (Exchange I)} {e : Exchange I}
    (heq : p.transcript answer s = before ++ e :: after) : P.allows (log ++ before) e.request := by
  induction p generalizing log s before with
  | done a => simp [transcript] at heq
  | call request next ih =>
    rw [transcript] at heq
    cases before with
    | nil =>
      obtain ⟨rfl, -⟩ := List.cons.inj heq
      rw [List.append_nil]
      exact h.1
    | cons first before =>
      obtain ⟨rfl, htail⟩ := List.cons.inj heq
      have hrest := ih _ (h.2 _ (expected request s)) htail
      rwa [List.append_assoc, List.singleton_append] at hrest

/-- Run alone, the script ends with a result, stores and exchanges of this kind. -/
def Leaves (answer : I.Handler σ) (ends : α → σ → List (Exchange I) → Prop) (p : Script I α)
    (s : σ) : Prop :=
  ends (p.run answer s).1 (p.run answer s).2 (p.transcript answer s)

section Leaves

variable {left : α → σ → List (Exchange I) → Prop}

@[simp] theorem leaves_done {a : α} :
    (Script.done a : Script I α).Leaves answer left s ↔ left a s [] := Iff.rfl

@[simp] theorem leaves_call {request : I.Call} {next : I.Reply request → Script I α} :
    (Script.call request next).Leaves answer left s ↔
      (next (answer request s).1).Leaves answer
        (fun a s' log => left a s' (⟨request, (answer request s).1⟩ :: log))
        (answer request s).2 := Iff.rfl

@[simp] theorem leaves_ask {request : I.Call}
    {left : I.Reply request → σ → List (Exchange I) → Prop} :
    (ask I request).Leaves answer left s ↔
      left (answer request s).1 (answer request s).2 [⟨request, (answer request s).1⟩] := Iff.rfl

/-- A sequence leaves the exchanges of its parts. -/
@[simp] theorem leaves_bind {left : β → σ → List (Exchange I) → Prop} {f : α → Script I β} :
    (p >>= f).Leaves answer left s ↔
      p.Leaves answer (fun a s' log =>
        (f a).Leaves answer (fun b t more => left b t (log ++ more)) s') s := by
  rw [Leaves, run_bind, transcript_bind]
  rfl

@[simp] theorem leaves_map {left : β → σ → List (Exchange I) → Prop} {f : α → β} :
    (f <$> p).Leaves answer left s ↔
      p.Leaves answer (fun a s' log => left (f a) s' log) s := by
  rw [map_eq_pure_bind, leaves_bind]
  simp only [pure_eq, leaves_done, List.append_nil]

theorem Leaves.mono {left' : α → σ → List (Exchange I) → Prop} (h : p.Leaves answer left s)
    (himp : ∀ a s' log, left a s' log → left' a s' log) : p.Leaves answer left' s :=
  himp _ _ _ h

/-- What a script ends with alone, and what its exchanges come to by a protocol. -/
theorem Yields.leaves {yields : α → σ → Prop} (h : p.Yields answer yields s)
    (hends : p.Obeys P ends [])
    (expected : ∀ request s, P.expects ⟨request, (answer request s).1⟩) :
    p.Leaves answer (fun a s' log => yields a s' ∧ ends a log) s :=
  ⟨h, hends.ends_run expected⟩

end Leaves

end Transcript

end Script

namespace System

variable {σ ω μ ρ : Type} {S : System I σ ω μ ρ}

/-- If every job starts out by obeying its protocol, and the stores answer allowed calls as expected
while an invariant holds, then the invariant is kept and no task leaves its protocol. -/
theorem run_obeys {P : ω → Protocol I} {ends : ω → ρ → List (Exchange I) → Prop}
    {Inv : Pool I σ ω ρ → Prop} {s : Pool I σ ω ρ} {acts : List (Act ω μ)} (idle : s.tasks = [])
    (init : Inv s)
    (begins : ∀ job, .start job ∈ acts → (S.script job).Obeys (P job) (ends job) [])
    (start : ∀ s job, .start job ∈ acts → Inv s →
      Inv { s with tasks := s.tasks ++ [S.begun job] })
    (proceed : ∀ stores before t after trace request next, t.script = .call request next →
      (P t.job).allows t.log request → Inv ⟨stores, before ++ t :: after, trace⟩ →
      (P t.job).expects (S.exchange request stores) ∧
      Inv
        { stores := (S.answer request stores).2
          tasks :=
            before ++ t.tell (S.exchange request stores) (next (S.answer request stores).1) :: after
          trace := trace ++ [S.exchange request stores] })
    (disturb : ∀ s change, .disturb change ∈ acts → Inv s →
      Inv { s with stores := S.disturb change s.stores }) :
    Inv (S.run s acts) ∧
      ∀ t ∈ (S.run s acts).tasks, t.script.Obeys (P t.job) (ends t.job) t.log := by
  refine run_induction (motive := fun s => Inv s ∧
    ∀ t ∈ s.tasks, t.script.Obeys (P t.job) (ends t.job) t.log) ⟨init, by simp [idle]⟩ ?_ ?_ ?_
  · intro s job hjob hkept
    obtain ⟨hinv, htasks⟩ := hkept
    refine ⟨start s job hjob hinv, fun t ht => ?_⟩
    rcases List.mem_append.1 ht with ht | ht
    · exact htasks t ht
    · obtain rfl := List.mem_singleton.1 ht
      exact begins job hjob
  · intro stores before t after trace request next hcall hkept
    obtain ⟨hinv, htasks⟩ := hkept
    have ht : t.script.Obeys (P t.job) (ends t.job) t.log := htasks t (by simp)
    rw [hcall, Script.obeys_call] at ht
    obtain ⟨hallowed, hnext⟩ := ht
    obtain ⟨hexpected, hinv⟩ := proceed stores before t after trace request next hcall hallowed hinv
    refine ⟨hinv, fun u hu => ?_⟩
    simp only [List.mem_append, List.mem_cons] at hu
    rcases hu with hu | rfl | hu
    · exact htasks u (by simp [hu])
    · exact hnext _ hexpected
    · exact htasks u (by simp [hu])
  · intro s change hchange hkept
    obtain ⟨hinv, htasks⟩ := hkept
    exact ⟨disturb s change hchange hinv, htasks⟩

end System
end Fulfilment
