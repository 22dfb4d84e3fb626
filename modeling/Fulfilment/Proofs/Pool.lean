import Fulfilment.Script

/-!
# Pools of tasks

Several operations run at the same time on shared stores. A `Pool` keeps what each of them has still
to do, and a schedule says what happens next: a job is started, a task makes its next call, or the
surroundings change the stores. A call is one atomic step, and anything may happen between two calls
of a task. What has been said is kept as well: by each task the exchanges that it made itself, and
by the pool those of all tasks in their order.

* `System.run_induction` — an invariant of all schedules, from one case for each kind of act.
-/
namespace Fulfilment

/-- A call that has been made, with its reply. -/
structure Exchange (I : Interface) where
  request : I.Call
  reply : I.Reply request

/-- A job that has been started: its exchanges so far, oldest first, and what it goes on with. -/
structure Task (I : Interface) (ω ρ : Type) where
  job : ω
  log : List (Exchange I) := []
  script : Script I ρ

/-- The shared stores, the tasks that were started on them, and the exchanges of all tasks. -/
structure Pool (I : Interface) (σ ω ρ : Type) where
  stores : σ
  tasks : List (Task I ω ρ) := []
  trace : List (Exchange I) := []

/-- How stores answer calls, which script a job is, and how the surroundings change the stores. -/
structure System (I : Interface) (σ ω μ ρ : Type) where
  answer : I.Handler σ
  script : ω → Script I ρ
  disturb : μ → σ → σ

/-- One act of a schedule. A task is named by its place in the order of starting. -/
inductive Act (ω μ : Type) where
  | start (job : ω)
  | proceed (task : Nat)
  | disturb (change : μ)

variable {I : Interface} {σ ω μ ρ : Type}

namespace Task

/-- What the task has ended with, if it has ended. -/
def result? (t : Task I ω ρ) : Option ρ :=
  match t.script with
  | .done a => some a
  | .call .. => none

theorem script_of_result? {t : Task I ω ρ} {a : ρ} (h : t.result? = some a) :
    t.script = .done a := by
  unfold result? at h
  split at h
  · cases h
    assumption
  · cases h

/-- The task has calls left to make. -/
def isRunning (t : Task I ω ρ) : Bool := t.result?.isNone

/-- The task after an exchange. -/
def tell (t : Task I ω ρ) (e : Exchange I) (rest : Script I ρ) : Task I ω ρ :=
  { t with log := t.log ++ [e], script := rest }

@[simp] theorem job_tell (t : Task I ω ρ) (e : Exchange I) (rest : Script I ρ) :
    (t.tell e rest).job = t.job := rfl

@[simp] theorem log_tell (t : Task I ω ρ) (e : Exchange I) (rest : Script I ρ) :
    (t.tell e rest).log = t.log ++ [e] := rfl

@[simp] theorem script_tell (t : Task I ω ρ) (e : Exchange I) (rest : Script I ρ) :
    (t.tell e rest).script = rest := rfl

/-- After an exchange of one task the others are as before. -/
theorem mem_of_mem_tell {before after : List (Task I ω ρ)} {t u : Task I ω ρ} {e : Exchange I}
    {rest : Script I ρ} (hu : u ∈ before ++ t.tell e rest :: after) :
    u = t.tell e rest ∨ u ∈ before ++ t :: after := by
  simp only [List.mem_append, List.mem_cons] at hu ⊢
  rcases hu with hu | hu | hu
  · exact .inr (.inl hu)
  · exact .inl hu
  · exact .inr (.inr (.inr hu))

end Task

namespace System

variable (S : System I σ ω μ ρ)

/-- The task of a job that has not made a call yet. -/
def begun (job : ω) : Task I ω ρ := { job := job, script := S.script job }

/-- The exchange of a call with the stores as they are. -/
def exchange (request : I.Call) (stores : σ) : Exchange I := ⟨request, (S.answer request stores).1⟩

/-- A task makes its next call. Nothing happens if there is no such task or it has ended. -/
def proceed (s : Pool I σ ω ρ) (i : Nat) : Pool I σ ω ρ :=
  match s.tasks[i]? with
  | none => s
  | some t =>
    match t.script with
    | .done _ => s
    | .call request next =>
      { stores := (S.answer request s.stores).2
        tasks :=
          s.tasks.set i
            (t.tell (S.exchange request s.stores) (next (S.answer request s.stores).1))
        trace := s.trace ++ [S.exchange request s.stores] }

/-- One act of a schedule. -/
def act (s : Pool I σ ω ρ) : Act ω μ → Pool I σ ω ρ
  | .start job => { s with tasks := s.tasks ++ [S.begun job] }
  | .proceed i => S.proceed s i
  | .disturb change => { s with stores := S.disturb change s.stores }

/-- The pool after a schedule. -/
def run (s : Pool I σ ω ρ) (acts : List (Act ω μ)) : Pool I σ ω ρ := acts.foldl S.act s

@[simp] theorem run_nil (s : Pool I σ ω ρ) : S.run s [] = s := rfl

@[simp] theorem run_cons (s : Pool I σ ω ρ) (a : Act ω μ) (acts : List (Act ω μ)) :
    S.run s (a :: acts) = S.run (S.act s a) acts := rfl

/-- One schedule and then another. -/
theorem run_append (s : Pool I σ ω ρ) (acts more : List (Act ω μ)) :
    S.run s (acts ++ more) = S.run (S.run s acts) more := List.foldl_append

/-- Proceeding leaves the pool as it is, or makes the next call of one task. -/
theorem proceed_cases (s : Pool I σ ω ρ) (i : Nat) :
    S.proceed s i = s ∨
      ∃ before t after request next, s.tasks = before ++ t :: after ∧
        t.script = .call request next ∧
        S.proceed s i =
          { stores := (S.answer request s.stores).2
            tasks :=
              before ++
                t.tell (S.exchange request s.stores) (next (S.answer request s.stores).1) :: after
            trace := s.trace ++ [S.exchange request s.stores] } := by
  cases ht : s.tasks[i]? with
  | none => exact .inl (by simp only [proceed, ht])
  | some t =>
    cases hs : t.script with
    | done a => exact .inl (by simp only [proceed, ht, hs])
    | call request next =>
      obtain ⟨hi, hget⟩ := List.getElem?_eq_some_iff.1 ht
      refine .inr ⟨s.tasks.take i, t, s.tasks.drop (i + 1), request, next, ?_, hs, ?_⟩
      · rw [← hget, List.getElem_cons_drop, List.take_append_drop]
      · simp only [proceed, ht, hs, List.set_eq_take_append_cons_drop, if_pos hi]

/-- A task that proceeds has ended and nothing happens, or it makes its next call. -/
theorem proceed_task {s : Pool I σ ω ρ} {i : Nat} {t : Task I ω ρ}
    (h : (S.proceed s i).tasks[i]? = some t) :
    (S.proceed s i = s ∧ s.tasks[i]? = some t ∧ t.isRunning = false) ∨
      ∃ t₀ request next, s.tasks[i]? = some t₀ ∧ t₀.script = .call request next ∧
        t = t₀.tell (S.exchange request s.stores) (next (S.answer request s.stores).1) ∧
        (S.proceed s i).stores = (S.answer request s.stores).2 := by
  cases ht : s.tasks[i]? with
  | none => simp [proceed, ht] at h
  | some t₀ =>
    obtain ⟨hlt, -⟩ := List.getElem?_eq_some_iff.1 ht
    cases hs : t₀.script with
    | done a =>
      have hsame : S.proceed s i = s := by simp only [proceed, ht, hs]
      rw [hsame, ht] at h
      cases h
      exact .inl ⟨hsame, rfl, by simp [Task.isRunning, Task.result?, hs]⟩
    | call request next =>
      have hstep : S.proceed s i =
          { stores := (S.answer request s.stores).2
            tasks := s.tasks.set i
              (t₀.tell (S.exchange request s.stores) (next (S.answer request s.stores).1))
            trace := s.trace ++ [S.exchange request s.stores] } := by
        simp only [proceed, ht, hs]
      rw [hstep, List.getElem?_set_self hlt] at h
      cases h
      exact .inr ⟨t₀, request, next, rfl, hs, rfl, by rw [hstep]⟩

variable {S} in
/-- What holds at the start and is kept by each kind of act holds after every schedule. -/
theorem run_induction {motive : Pool I σ ω ρ → Prop} {s : Pool I σ ω ρ} {acts : List (Act ω μ)}
    (init : motive s)
    (start : ∀ s job, .start job ∈ acts → motive s →
      motive { s with tasks := s.tasks ++ [S.begun job] })
    (proceed : ∀ (stores : σ) before t after trace request next, t.script = .call request next →
      motive ⟨stores, before ++ t :: after, trace⟩ →
      motive
        { stores := (S.answer request stores).2
          tasks :=
            before ++ t.tell (S.exchange request stores) (next (S.answer request stores).1) :: after
          trace := trace ++ [S.exchange request stores] })
    (disturb : ∀ s change, .disturb change ∈ acts → motive s →
      motive { s with stores := S.disturb change s.stores }) :
    motive (S.run s acts) := by
  induction acts generalizing s with
  | nil => exact init
  | cons a acts ih =>
    have later : ∀ {b}, b ∈ acts → b ∈ a :: acts := List.mem_cons_of_mem a
    refine ih ?_ (fun s job h => start s job (later h)) (fun s m h => disturb s m (later h))
    cases a with
    | start job => exact start s job (List.mem_cons_self ..) init
    | disturb change => exact disturb s change (List.mem_cons_self ..) init
    | proceed i =>
      rcases S.proceed_cases s i with hs | ⟨before, t, after, request, next, ht, hcall, hs⟩
      · exact (congrArg motive hs).mpr init
      · refine (congrArg motive hs).mpr
          (proceed s.stores before t after s.trace request next hcall ?_)
        rw [← ht]
        exact init

/-- The exchanges of the pool are those of all tasks. -/
theorem trace_perm (s : Pool I σ ω ρ) (acts : List (Act ω μ))
    (h : s.trace.Perm (s.tasks.flatMap Task.log)) :
    (S.run s acts).trace.Perm ((S.run s acts).tasks.flatMap Task.log) := by
  refine run_induction (motive := fun s => s.trace.Perm (s.tasks.flatMap Task.log)) h ?_ ?_ ?_
  · intro s job _ hs
    simpa [begun] using hs
  · intro stores before t after trace request next _ hs
    simp only [List.flatMap_append, List.flatMap_cons, Task.log_tell, List.append_assoc] at hs ⊢
    refine (hs.append_right _).trans ?_
    simp only [List.append_assoc]
    exact (List.perm_append_comm.append_left _).append_left _
  · exact fun _ _ _ hs => hs

end System
end Fulfilment
