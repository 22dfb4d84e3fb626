import Fulfilment.Proofs.Service.Moving
import Fulfilment.Saga.Delivery

/-!
# Handling a signal alone

How the handling of a signal ends when nobody else acts meanwhile. There are five ways (`Handles`),
and which of them it is can be read off the stored order: how it reacts to the signal, and whether
the book objects to the outcome. In four of them the world is as it was before; in the fifth the
order is stored as it has reacted.
-/
namespace Fulfilment
namespace Saga

open Script Service

variable {w : World} {s : Signal}

/-- How the handling of a signal ends, and in which world. -/
inductive Handles (s : Signal) (w : World) : Except SagaError Handled → World → Prop where
  | missing (unknown : w.book.get? s.order = none) :
      Handles s w (.error (.orderNotFound s.order)) w
  | rejected {o : Order} {rejection : Rejection} (stored : w.book.get? s.order = some o)
      (reacts : o.react s w.clock = .error rejection) : Handles s w (.error (.order rejection)) w
  | duplicate {o : Order} {shown : Shown} (stored : w.book.get? s.order = some o)
      (reacts : o.react s w.clock = .ok (.duplicate shown)) : Handles s w (.ok .duplicate) w
  | refused {o : Order} {a : Applied} {cause : BookError} {e : SagaError}
      (stored : w.book.get? s.order = some o) (reacts : o.react s w.clock = .ok (.apply a))
      (objection : w.book.objection a.order = some cause) (retryable : e.isRetryable = true) :
      Handles s w (.error e) w
  | saved {o : Order} {a : Applied} {w' : World} (stored : w.book.get? s.order = some o)
      (reacts : o.react s w.clock = .ok (.apply a)) (accepted : w.book.objection a.order = none)
      (book : w'.book = w.book.store a.order) :
      Handles s w (.ok (.transitioned (a.source?.getD o.status) a.order.status)) w'

/-- How one attempt ends. It may have to be repeated, in the world as it was. -/
inductive Attempts (s : Signal) (w : World) : Option (Except SagaError Handled) → World → Prop where
  | answered {r : Except SagaError Handled} {w' : World} (handles : Handles s w r w') :
      Attempts s w (some r) w'
  | outrun {o : Order} {a : Applied} {cause : BookError} (stored : w.book.get? s.order = some o)
      (reacts : o.react s w.clock = .ok (.apply a))
      (objection : w.book.objection a.order = some cause) : Attempts s w none w

theorem book_answer_of_plain {request : Shop.Call} (h : Plain request) (w : World) :
    (World.answer request w).2.book = w.book := by
  cases request with
  | save => exact h.elim
  | _ => rfl

theorem yields_afterSave (desk : HoldDesk) (s : Signal) (a : Applied) :
    (afterSave desk s a).Yields World.answer (fun _ w' => w'.book = w.book) w := by
  refine (only_plain_afterSave desk s a).yields (fun {w' request} hplain hbook => ?_) rfl
  rw [book_answer_of_plain hplain, hbook]

/-- One attempt at a signal. -/
theorem yields_attempt (desk : HoldDesk) (s : Signal) (w : World) :
    (attempt desk s).Yields World.answer (Attempts s w) w := by
  rw [attempt, yields_bind, Shop.yields_load]
  cases ho : w.book.get? s.order with
  | none => exact .answered (.missing ho)
  | some o =>
    dsimp only
    rw [yields_bind, Shop.yields_now]
    cases hreact : o.react s w.clock with
    | error rejection => exact .answered (.rejected ho hreact)
    | ok reaction =>
      cases reaction with
      | duplicate shown => exact .answered (.duplicate ho hreact)
      | apply a =>
        refine yields_bind.2 (Shop.yields_save_of (fun cause hcause => ?_) fun haccepted => ?_)
        · cases cause with
          | conflict => exact .outrun ho hreact hcause
          | _ => exact .answered (.refused ho hreact hcause rfl)
        · refine yields_bind.2 ((yields_afterSave desk s a).mono fun _ w' hbook => ?_)
          exact .answered (.saved ho hreact haccepted hbook)

theorem yields_handleWithin (desk : HoldDesk) (s : Signal) (w : World) (attempts left : Nat) :
    (handleWithin desk s attempts (left + 1)).Yields World.answer (Handles s w) w := by
  -- An attempt that has to be repeated has changed nothing, so all of them end in the same way.
  induction left with
  | zero =>
    refine yields_bind.2 ((yields_attempt desk s w).mono fun r w' h => ?_)
    cases h with
    | answered handles => exact handles
    | outrun stored reacts objection => exact .refused stored reacts objection rfl
  | succ left ih =>
    refine yields_bind.2 ((yields_attempt desk s w).mono fun r w' h => ?_)
    cases h with
    | answered handles => exact handles
    | outrun => exact ih

theorem yields_handle (desk : HoldDesk) (retries : ConflictRetries) (s : Signal) (w : World) :
    (handle desk retries s).Yields World.answer (Handles s w) w :=
  yields_handleWithin desk s w _ retries.count

/-- A delivery is answered by the outcome of its signal. -/
theorem process_of_signal {payload : ByteArray} (h : signalOf? payload = some s) (desk : HoldDesk)
    (retries : ConflictRetries) :
    process desk retries payload = Acknowledgement.ofOutcome <$> handle desk retries s := by
  rw [process, h]
  rfl

/-- A delivery is parked only for a rejection. -/
theorem Handles.of_deadLetter {r : Except SagaError Handled} {w' : World} (h : Handles s w r w')
    (hr : Acknowledgement.ofOutcome r = .deadLetter) :
    ∃ o rejection, w.book.get? s.order = some o ∧ o.react s w.clock = .error rejection := by
  cases h with
  | rejected stored reacts => exact ⟨_, _, stored, reacts⟩
  | refused _ _ _ retryable => simp [Acknowledgement.ofOutcome, retryable] at hr
  | _ => cases hr

/-- A failure leaves the world as it was. -/
theorem Handles.eq_of_error {e : SagaError} {w' : World} (h : Handles s w (.error e) w') :
    w' = w := by
  cases h <;> rfl

end Saga
end Fulfilment
