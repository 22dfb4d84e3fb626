import Fulfilment.Proofs.Service.Moving

/-!
# Attempts at a signal

What the handling of a signal says to the stores, whatever they reply: each attempt loads the order
once and saves it once at most, and only a save that was outrun leads to another attempt. Nothing is
recorded, told or done to the stock before a save has succeeded, and none is tried after it
(`contending`).
-/
namespace Fulfilment
namespace Saga

open Script Service

variable {α : Type} {log log' : List (Exchange Shop.calls)}

/-! ## Loads, saves and what follows -/

/-- How often an order was loaded. -/
def loads (log : List (Exchange Shop.calls)) : Nat :=
  log.countP fun e => match e.request with
    | .load _ => true
    | _ => false

/-- What the saves were answered with, one after the other. -/
def saves (log : List (Exchange Shop.calls)) : List (Except BookError Int) :=
  log.filterMap fun
    | ⟨.save _, reply⟩ => some reply
    | _ => none

/-- Someone else saved the order first. -/
def IsOutrun : Except BookError Int → Prop
  | .error e => e.isConflict = true
  | .ok _ => False

/-- The call does what follows a save: it is on the ledger and does not only ask for the time, or it
records or tells something. -/
def FollowsSave : Shop.Call → Prop
  | .stock request => request ≠ .now
  | .record _ | .publish _ => True
  | _ => False

@[simp] theorem loads_append (log log' : List (Exchange Shop.calls)) :
    loads (log ++ log') = loads log + loads log' := List.countP_append

@[simp] theorem saves_append (log log' : List (Exchange Shop.calls)) :
    saves (log ++ log') = saves log ++ saves log' := List.filterMap_append

/-- Loading and saving come before the one save that succeeds, and all that follows a save comes
after it. -/
def contending : Protocol Shop.calls where
  allows log request :=
    match request with
    | .load _ | .save _ => commits log = []
    | _ => FollowsSave request → ∃ o, commits log = [o]

/-- Calls that trail a save neither load nor save. -/
structure Trailed (log log' : List (Exchange Shop.calls)) : Prop where
  commits_eq : commits log' = commits log
  loads_eq : loads log' = loads log
  saves_eq : saves log' = saves log

theorem Trailed.refl (log : List (Exchange Shop.calls)) : Trailed log log := ⟨rfl, rfl, rfl⟩

/-- A call that trails a save neither loads nor saves. -/
theorem Trailed.append (h : Trailed log log') {request : Shop.Call} (htrails : Trails request)
    (reply : Shop.calls.Reply request) : Trailed log (log' ++ [⟨request, reply⟩]) := by
  cases request with
  | stock | record | publish =>
    refine ⟨?_, ?_, ?_⟩
    · rw [commits_append, h.commits_eq]
      exact List.append_nil _
    · rw [loads_append, h.loads_eq]
      rfl
    · rw [saves_append, h.saves_eq]
      exact List.append_nil _
  | _ => exact htrails.elim

/-- Once a save has succeeded, anything can be done that trails it. -/
theorem obeys_of_trails {p : Script Shop.calls α} (h : p.Only Trails) {o : Order}
    (hsaved : commits log = [o]) :
    p.Obeys contending (fun _ log' => Trailed log log') log := by
  refine h.obeys (motive := Trailed log) ?_ ?_ (.refl log)
  · intro log' request hlog htrails
    cases request with
    | stock | record | publish =>
      intro _
      exact ⟨o, hlog.commits_eq.trans hsaved⟩
    | _ => exact htrails.elim
  · intro log' request reply hlog htrails
    exact hlog.append htrails reply

theorem obeys_now : Shop.now.Obeys contending (fun _ log' => Trailed log log') log := by
  refine ⟨fun hfollows => absurd rfl hfollows, fun reply _ => ?_⟩
  have htime : Trails (.stock .now) := trivial
  exact (Trailed.refl log).append htime reply

/-- The answer that tells of so many attempts in vain. -/
abbrev gaveUp (s : Signal) (attempts : Nat) : Except SagaError Handled :=
  .error (.conflictRetriesExhausted s.order attempts)

/-- What an attempt has said that need not be repeated. -/
structure Settled (log log' : List (Exchange Shop.calls)) : Prop where
  loads_eq : loads log' = loads log + 1
  saves_eq : ∃ replies, saves log' = saves log ++ replies ∧ replies.length ≤ 1 ∧
    ∀ reply ∈ replies, ¬ IsOutrun reply
  commits_le : (commits log').length ≤ 1

/-- What an attempt has said that has to be repeated. -/
structure Outrun (log log' : List (Exchange Shop.calls)) : Prop where
  loads_eq : loads log' = loads log + 1
  saves_eq : ∃ reply, saves log' = saves log ++ [reply] ∧ IsOutrun reply
  commits_eq : commits log' = []

/-- Saving saves once. It has to be repeated if it was outrun, and then nothing else was said. -/
theorem obeys_commit_contending (desk : HoldDesk) (s : Signal) (loaded : Status) (a : Applied)
    (hfresh : commits log = []) :
    (commit desk s loaded a).Obeys contending
      (fun r log' => loads log' = loads log ∧ ∃ reply, saves log' = saves log ++ [reply] ∧
        match r with
        | some outcome => ¬ IsOutrun reply ∧ (commits log').length ≤ 1 ∧
            ∀ attempts, outcome ≠ gaveUp s attempts
        | none => IsOutrun reply ∧ commits log' = []) log := by
  refine obeys_bind.2 ⟨hfresh, fun saved _ => ?_⟩
  have hloads : loads (log ++ [⟨.save a.order, saved⟩]) = loads log := loads_append ..
  have hsaves : saves (log ++ [⟨.save a.order, saved⟩]) = saves log ++ [saved] := saves_append ..
  have hcommits : commits (log ++ [⟨.save a.order, saved⟩]) =
      (stored? ⟨.save a.order, saved⟩).toList := by
    rw [commits_append, hfresh]
    cases saved <;> rfl
  cases saved with
  | ok version =>
    refine obeys_bind.2 ((obeys_of_trails (only_trails_afterSave desk s a) hcommits).mono ?_)
    intro _ log₁ hlog
    refine ⟨hlog.loads_eq.trans hloads, _, hlog.saves_eq.trans hsaves, id, ?_, by simp⟩
    rw [hlog.commits_eq, hcommits]
    exact Nat.le_refl 1
  | error e =>
    refine ⟨hloads, _, hsaves, ?_⟩
    cases he : e.isConflict with
    | true => exact ⟨he, hcommits⟩
    | false =>
      refine ⟨by simp [IsOutrun, he], ?_, by simp⟩
      rw [hcommits]
      exact Nat.zero_le 1

/-- One attempt loads once and saves once at most. -/
theorem obeys_attempt_contending (desk : HoldDesk) (s : Signal) (hfresh : commits log = []) :
    (attempt desk s).Obeys contending
      (fun r log' => match r with
        | some outcome => Settled log log' ∧ ∀ attempts, outcome ≠ gaveUp s attempts
        | none => Outrun log log') log := by
  refine obeys_bind.2 ⟨hfresh, fun reply _ => ?_⟩
  -- Until the save nothing has happened but the loading.
  have hcommits : commits (log ++ [⟨.load s.order, reply⟩]) = [] := by
    rw [commits_append, hfresh]
    rfl
  have hloads : loads (log ++ [⟨.load s.order, reply⟩]) = loads log + 1 := loads_append ..
  have hsaves : saves (log ++ [⟨.load s.order, reply⟩]) = saves log := by
    rw [saves_append]
    exact List.append_nil _
  have unsaved : ∀ {log'}, Trailed (log ++ [⟨.load s.order, reply⟩]) log' → Settled log log' := by
    intro log' hlog
    refine ⟨hlog.loads_eq.trans hloads, ⟨[], ?_, by simp, by simp⟩, ?_⟩
    · rw [hlog.saves_eq, hsaves, List.append_nil]
    · rw [hlog.commits_eq, hcommits]
      exact Nat.zero_le 1
  rcases reply with e | _ | o
  · exact ⟨unsaved (.refl _), by simp⟩
  · exact ⟨unsaved (.refl _), by simp⟩
  · refine obeys_bind.2 (obeys_now.mono fun now log₁ hnow => ?_)
    cases o.react s now with
    | error rejection => exact ⟨unsaved hnow, by simp⟩
    | ok reaction =>
      cases reaction with
      | duplicate shown => exact ⟨unsaved hnow, by simp⟩
      | apply a =>
        have hfresh₁ : commits log₁ = [] := hnow.commits_eq.trans hcommits
        refine (obeys_commit_contending desk s o.status a hfresh₁).mono ?_
        rintro tried log₂ ⟨hloads₂, saved, hsaves₂, hends⟩
        rw [hnow.loads_eq, hloads] at hloads₂
        rw [hnow.saves_eq, hsaves] at hsaves₂
        cases tried with
        | none => exact ⟨hloads₂, ⟨saved, hsaves₂, hends.1⟩, hends.2⟩
        | some outcome =>
          obtain ⟨hkept, hone, hnever⟩ := hends
          exact ⟨⟨hloads₂, ⟨[saved], hsaves₂, by simp, by simpa using hkept⟩, hone⟩, hnever⟩

/-- What handling says in as many attempts as are left. It gives up exactly if it was outrun in all
of them. -/
structure Contends (left : Nat) (givesUp : Prop) (log log' : List (Exchange Shop.calls)) :
    Prop where
  loads_le : loads log' ≤ loads log + left
  saves_eq : ∃ replies, saves log' = saves log ++ replies ∧ replies.length ≤ left ∧
    (givesUp ↔ replies.length = left ∧ ∀ reply ∈ replies, IsOutrun reply)
  commits_le : (commits log').length ≤ 1

/-- An attempt that need not be repeated ends the handling. -/
theorem Settled.contends (h : Settled log log') (left : Nat) :
    Contends (left + 1) False log log' := by
  obtain ⟨replies, hsaves, hlength, hnone⟩ := h.saves_eq
  refine ⟨?_, ⟨replies, hsaves, by omega, ?_⟩, h.commits_le⟩
  · rw [h.loads_eq]
    omega
  · refine ⟨False.elim, fun hall => ?_⟩
    cases replies with
    | nil => simp at hall
    | cons reply rest => exact hnone reply List.mem_cons_self (hall.2 reply List.mem_cons_self)

/-- After an attempt that has to be repeated it matters what the others do. -/
theorem Outrun.contends {left : Nat} {givesUp : Prop} {log'' : List (Exchange Shop.calls)}
    (h : Outrun log log') (hrest : Contends left givesUp log' log'') :
    Contends (left + 1) givesUp log log'' := by
  obtain ⟨reply, hsaves, houtrun⟩ := h.saves_eq
  obtain ⟨replies, hsaves', hlength, hgives⟩ := hrest.saves_eq
  refine ⟨?_, ⟨reply :: replies, ?_, ?_, ?_⟩, hrest.commits_le⟩
  · have hfirst := h.loads_eq
    have hlater := hrest.loads_le
    omega
  · rw [hsaves', hsaves, List.append_assoc, List.singleton_append]
  · rw [List.length_cons]
    omega
  · rw [hgives, List.length_cons, Nat.add_right_cancel_iff, List.forall_mem_cons]
    simp [houtrun]

/-- Handling keeps to the order of loading, saving and what follows, however often it is tried. -/
theorem obeys_handleWithin_contending (desk : HoldDesk) (s : Signal) (attempts left : Nat)
    (hfresh : commits log = []) :
    (handleWithin desk s attempts left).Obeys contending
      (fun r log' => Contends left (r = gaveUp s attempts) log log') log := by
  induction left generalizing log with
  | zero =>
    refine ⟨Nat.le_refl _, ⟨[], (List.append_nil _).symm, Nat.le_refl 0, by simp⟩, ?_⟩
    rw [hfresh]
    exact Nat.zero_le 1
  | succ left ih =>
    refine obeys_bind.2 ((obeys_attempt_contending desk s hfresh).mono ?_)
    intro tried log₁ htried
    cases tried with
    | none => exact (ih htried.commits_eq).mono fun _ _ hrest => htried.contends hrest
    | some outcome =>
      obtain ⟨hsettled, hnever⟩ := htried
      simp only [obeys_done, pure_eq, hnever attempts]
      exact hsettled.contends left

end Saga
end Fulfilment
