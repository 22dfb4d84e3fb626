import Fulfilment.Proofs.Saga.Reaction
import Fulfilment.Proofs.Service.Traffic
import Fulfilment.Proofs.Shop.Alone

/-!
# Moving orders on

What the commands that move orders on say to the stores, whatever is replied. An order is saved only
as accepted actions have made it of an order that was loaded before, keys are never touched, and the
answer tells what was saved: an order that is answered was saved last and nothing else was, after an
error nothing was, nor by a command that broke off, and a scan counts its saves.
-/
namespace Fulfilment
namespace Service

open Script Operation

/-- The order is what accepted actions make of an order that has been loaded. -/
def Moved (log : List (Exchange Shop.calls)) (o : Order) : Prop :=
  ∃ id loaded as ts, Loaded log id loaded ∧ as ≠ [] ∧ loaded.transitionAll as = .ok (o, ts)

/-- Only moved orders are saved, and keys are not touched. -/
def moving : Protocol Shop.calls where
  allows log
    | .save o => Moved log o
    | .claim _ | .complete .. | .release _ => False
    | _ => True

/-- The orders whose storing an answer tells of. -/
def Answer.Tells : Answer → List Order → Prop
  | .order (.ok o), cs => cs = [o]
  | .order (.error _), cs => cs = []
  | .handled (.ok (.transitioned _ target)), cs => ∃ o, cs = [o] ∧ o.status = target
  | .handled _, cs => cs = []
  | .scanned (.ok n), cs => cs.length = n
  | .scanned (.error _), cs => cs = []
  | .brokeOff, cs => cs = []

/-- Some exchanges go on as others that store these orders. -/
structure Adds (log : List (Exchange Shop.calls)) (cs : List Order)
    (log' : List (Exchange Shop.calls)) : Prop where
  isPrefix : log <+: log'
  commits_eq : commits log' = commits log ++ cs

variable {log log₁ log₂ : List (Exchange Shop.calls)} {cs ds : List Order} {α β : Type}

namespace Adds

theorem refl (log : List (Exchange Shop.calls)) : Adds log [] log :=
  ⟨List.prefix_rfl, (List.append_nil _).symm⟩

theorem trans (h : Adds log cs log₁) (h' : Adds log₁ ds log₂) : Adds log (cs ++ ds) log₂ :=
  ⟨h.isPrefix.trans h'.isPrefix, by rw [h'.commits_eq, h.commits_eq, List.append_assoc]⟩

theorem loaded (h : Adds log cs log₁) {id : OrderId} {o : Order} (ho : Loaded log id o) :
    Loaded log₁ id o :=
  h.isPrefix.subset ho

theorem append (log : List (Exchange Shop.calls)) (e : Exchange Shop.calls) :
    Adds log (stored? e).toList (log ++ [e]) := by
  refine ⟨List.prefix_append .., ?_⟩
  cases h : stored? e <;> simp [commits, h]

theorem append_plain (log : List (Exchange Shop.calls)) (request : Shop.Call) (h : Plain request)
    (reply : Shop.calls.Reply request) : Adds log [] (log ++ [⟨request, reply⟩]) := by
  have happend := append log ⟨request, reply⟩
  rwa [stored?_of_plain h] at happend

end Adds

/-! ## Parts of commands -/

theorem obeys_of_plain {p : Script Shop.calls α} (h : p.Only Plain) :
    p.Obeys moving (fun _ log' => Adds log [] log') log := by
  refine h.obeys (motive := Adds log []) ?_ ?_ (.refl log)
  · intro l request _ hplain
    cases request <;> trivial
  · intro l request reply hl hplain
    exact hl.trans (.append_plain l request hplain reply)

theorem obeys_then_plain {p : Script Shop.calls α} (h : p.Only Plain) (hlog : Adds log cs log₁) :
    p.Obeys moving (fun _ log' => Adds log cs log') log₁ := by
  refine (obeys_of_plain h).mono fun _ log₂ hl => ?_
  have hboth := hlog.trans hl
  rwa [List.append_nil] at hboth

theorem obeys_loadOrder (id : OrderId) :
    (loadOrder id).run.Obeys moving
      (fun r log' => Adds log [] log' ∧
        ∀ o, r = .ok o → Loaded log' id o) log := by
  rw [loadOrder, obeys_run_bind, call_run, obeys_bind]
  refine ⟨trivial, fun reply _ => ?_⟩
  have hadds := Adds.append_plain log (.load id) trivial reply
  rcases reply with e | _ | o <;> refine ⟨hadds, fun o' ho => ?_⟩ <;> cases ho
  exact List.mem_concat_self

/-- Loading for the owner stores nothing and answers what was loaded. -/
theorem obeys_loadOwned (id : OrderId) (user : UserId) :
    (loadOwned id user).run.Obeys moving
      (fun r log' => Adds log [] log' ∧
        ∀ o, r = .ok o → Loaded log' id o) log := by
  rw [loadOwned, obeys_run_bind]
  refine (obeys_loadOrder id).mono ?_
  intro result log' hresult
  obtain ⟨hadds, ho⟩ := hresult
  cases result with
  | error e =>
    refine ⟨hadds, fun o ho => ?_⟩
    cases ho
  | ok o =>
    rw [goOn_ok]
    split
    · exact ⟨hadds, ho⟩
    · refine ⟨hadds, fun o ho => ?_⟩
      cases ho

/-- A moved order is saved and answered as it is stored, or it is refused. -/
theorem obeys_saveOrder {o : Order} (h : Moved log o) :
    (saveOrder o).run.Obeys moving (fun r log' => Adds log r.toOption.toList log') log := by
  rw [saveOrder, obeys_run_bind, call_run, obeys_bind]
  refine ⟨h, fun reply _ => ?_⟩
  have hadds := Adds.append log ⟨.save o, reply⟩
  cases reply <;> exact hadds

theorem moved_of_transition {id : OrderId} {loaded o : Order} {a : Action} {now : Instant}
    {t : Transition} (hload : Loaded log id loaded)
    (ht : loaded.transition a now = .ok (o, t)) : Moved log o :=
  ⟨id, loaded, [(a, now)], [t], hload, List.cons_ne_nil _ _, Order.transitionAll_singleton ht⟩

theorem only_trails_publish? (n : Option Notice) : (Shop.publish? n).Only Trails := by
  cases n with
  | none => trivial
  | some n => exact ⟨trivial, fun _ => trivial⟩

theorem only_plain_publish? (n : Option Notice) : (Shop.publish? n).Only Plain :=
  (only_trails_publish? n).mono Trails.plain

theorem only_onLedger_releaseStock (o : Order) : (releaseStock o).Only OnLedger := by
  unfold releaseStock
  split
  · refine only_bind (only_onLedger_onStock _) fun r => ?_
    cases r <;> trivial
  · trivial

theorem only_plain_releaseStock (o : Order) : (releaseStock o).Only Plain :=
  (only_onLedger_releaseStock o).mono fun h => h.trails.plain

/-- An operation that answers an order and stores nothing. -/
def Closes (p : Operation Order) (o : Order) : Prop :=
  ∀ log, p.run.Obeys moving (fun r log' => r = .ok o ∧ Adds log [] log') log

namespace Closes

theorem pure (o : Order) : Closes (Pure.pure o) o := fun log => ⟨rfl, .refl log⟩

theorem lift_bind {q : Script Shop.calls α} {f : α → Operation Order} {o : Order}
    (hq : q.Only Plain) (hf : ∀ a, Closes (f a) o) : Closes (liftM q >>= f) o := by
  intro log
  refine obeys_run_lift.2 ((obeys_of_plain hq).mono fun a log₁ hlog => (hf a log₁).mono ?_)
  intro r log₂ hdone
  obtain ⟨hr, hlog'⟩ := hdone
  exact ⟨hr, hlog.trans hlog'⟩

end Closes

/-- An order that was loaded is asked for an action and saved: what is answered was stored, and
nothing else was. -/
theorem obeys_acceptAndSave {id : OrderId} {o : Order} {a : Action} {now : Instant}
    {rest : Order × Transition → Order → Operation Order}
    (hload : Loaded log id o)
    (hrest : ∀ moved saved, Closes (rest moved saved) saved) :
    (accept o a now >>= fun moved => saveOrder moved.1 >>= rest moved).run.Obeys moving
      (fun r log' => Adds log r.toOption.toList log') log := by
  rw [obeys_run_bind, accept, require_run, obeys_done]
  cases ht : o.transition a now with
  | error rejection => exact .refl log
  | ok moved =>
    refine obeys_run_bind.2 ((obeys_saveOrder (moved_of_transition hload ht)).mono ?_)
    intro result log₁ hlog
    cases result with
    | error e => exact hlog
    | ok saved =>
      refine (hrest moved saved log₁).mono ?_
      intro answered log₂ hdone
      obtain ⟨rfl, hlog'⟩ := hdone
      exact hlog.trans hlog'

/-! ## Commands of customers and other services -/

/-- A command of another service answers the order that it stores. -/
theorem obeys_moveOn (id : OrderId) (name : String) (a : Action) :
    (moveOn id name a).run.Obeys moving (fun r log' => Adds log r.toOption.toList log') log := by
  refine obeys_run_lift.2 ((obeys_of_plain (only_plain_onStock _)).mono fun now log₁ hlog => ?_)
  refine obeys_run_bind.2 ((obeys_loadOrder id).mono ?_)
  intro result log₂ hresult
  obtain ⟨hlog', ho⟩ := hresult
  cases result with
  | error e => exact hlog.trans hlog'
  | ok o =>
    refine Obeys.mono (obeys_acceptAndSave (ho o rfl) fun moved saved => ?_) fun r log₃ hlog'' => ?_
    · refine .lift_bind (only_plain_onStock _) fun recordedAt => ?_
      exact .lift_bind (only_ask trivial) fun _ => .pure saved
    · exact (hlog.trans hlog').trans hlog''

theorem obeys_cancelOrder (id : OrderId) (user : UserId) (reason : Option String) :
    (cancelOrder id user reason).run.Obeys moving
      (fun r log' => Adds log r.toOption.toList log') log := by
  refine obeys_run_bind.2 ((obeys_loadOwned id user).mono ?_)
  intro result log₁ hresult
  obtain ⟨hlog, ho⟩ := hresult
  cases result with
  | error e => exact hlog
  | ok o =>
    rw [goOn_ok, obeys_run_bind, require_run, obeys_done]
    cases o.permitOwnerCancel with
    | error rejection => exact hlog
    | ok _ =>
      refine obeys_run_lift.2 ((obeys_of_plain (only_plain_onStock _)).mono fun now log₂ hnow => ?_)
      refine (obeys_acceptAndSave (hnow.loaded (ho o rfl)) fun moved saved => ?_).mono
        fun r log₃ hsaved => (hlog.trans hnow).trans hsaved
      refine .lift_bind (only_plain_releaseStock saved) fun released => ?_
      refine .lift_bind (only_ask trivial) fun _ => ?_
      exact .lift_bind (only_ask trivial) fun _ => .pure saved

/-- A request for a refund answers the order that it stores. -/
theorem obeys_refundOrder (id : OrderId) (user : UserId) (reason : Option String)
    (refund : RefundId) :
    (refundOrder id user reason refund).run.Obeys moving
      (fun r log' => Adds log r.toOption.toList log') log := by
  refine obeys_run_bind.2 ((obeys_loadOwned id user).mono ?_)
  intro result log₁ hresult
  obtain ⟨hlog, ho⟩ := hresult
  cases result with
  | error e => exact hlog
  | ok o =>
    rw [goOn_ok, obeys_run_bind, require_run, obeys_done]
    cases o.permitOwnerRefund with
    | error rejection => exact hlog
    | ok _ =>
      refine obeys_run_lift.2 ((obeys_of_plain (only_plain_onStock _)).mono fun now log₂ hnow => ?_)
      refine (obeys_acceptAndSave (hnow.loaded (ho o rfl)) fun moved saved => ?_).mono
        fun r log₃ hsaved => (hlog.trans hnow).trans hsaved
      refine .lift_bind (only_ask trivial) fun _ => ?_
      exact .lift_bind (only_plain_publish? _) fun _ => .pure saved

/-! ## Signals -/

open Saga

theorem moved_of_react {s : Signal} {o : Order} {now : Instant} {a : Applied}
    (hload : Loaded log s.order o)
    (h : o.react s now = .ok (.apply a)) : Moved log a.order := by
  rcases Order.react_cases h with ⟨act, t, -, ht, -⟩ | ⟨payment, hts, -⟩
  · exact moved_of_transition hload ht
  · refine ⟨_, o, _, _, hload, ?_, hts⟩
    unfold Reaction.paymentActions
    split <;> exact List.cons_ne_nil _ _

theorem only_trails_recordAll (es : List AuditEntry) : (recordAll es).Only Trails := by
  induction es with
  | nil => trivial
  | cons e es ih => exact ⟨trivial, fun _ => ih⟩

/-- What becomes of the stock happens on the ledger, or it is told. -/
theorem only_trails_settleStock (desk : HoldDesk) (o : Order) (now : Instant) (f : FollowUp) :
    (settleStock desk o now f).Only Trails := by
  cases f with
  | leave => trivial
  | settle id =>
    refine only_bind (only_trails_onStock _) fun r => ?_
    split
    · exact ⟨trivial, fun _ => trivial⟩
    · trivial
  | release id => exact only_bind (only_trails_onStock _) fun _ => trivial

/-- What follows a saved reaction happens on the ledger, or it is told. -/
theorem only_trails_afterSave (desk : HoldDesk) (s : Signal) (a : Applied) :
    (afterSave desk s a).Only Trails := by
  refine only_bind (only_trails_onStock _) fun now => ?_
  refine only_bind (only_trails_recordAll _) fun _ => ?_
  exact only_bind (only_trails_publish? _) fun _ => only_trails_settleStock ..

theorem only_plain_afterSave (desk : HoldDesk) (s : Signal) (a : Applied) :
    (afterSave desk s a).Only Plain :=
  (only_trails_afterSave desk s a).mono Trails.plain

/-- An attempt stores one order exactly if it tells of a transition, which led there. -/
theorem obeys_attempt (desk : HoldDesk) (s : Signal) :
    (attempt desk s).Obeys moving
      (fun r log' => match r with
        | some outcome => ∃ cs, Adds log cs log' ∧ (Answer.handled outcome).Tells cs
        | none => Adds log [] log') log := by
  refine obeys_bind.2 ⟨trivial, fun reply _ => ?_⟩
  have hload := Adds.append_plain log (.load s.order) trivial reply
  rcases reply with e | _ | o
  · exact ⟨[], hload, rfl⟩
  · exact ⟨[], hload, rfl⟩
  · refine obeys_bind.2 ((obeys_of_plain (only_plain_onStock _)).mono fun now log₁ hnow => ?_)
    have hlog := hload.trans hnow
    cases hreact : o.react s now with
    | error rejection => exact ⟨[], hlog, rfl⟩
    | ok reaction =>
      cases reaction with
      | duplicate shown => exact ⟨[], hlog, rfl⟩
      | apply a =>
        have hmoved := moved_of_react (hnow.loaded List.mem_concat_self) hreact
        refine obeys_bind.2 ⟨hmoved, fun saved _ => ?_⟩
        have hsaved := hlog.trans (.append log₁ ⟨.save a.order, saved⟩)
        cases saved with
        | ok version =>
          refine obeys_bind.2 ((obeys_then_plain (only_plain_afterSave desk s a) hsaved).mono ?_)
          exact fun _ _ hdone => ⟨_, hdone, _, rfl, rfl⟩
        | error e =>
          simp only [obeys_done, pure_eq]
          cases e.isConflict with
          | true => exact hsaved
          | false => exact ⟨[], hsaved, rfl⟩

/-- Handling stores one order exactly if it tells of a transition, however often it is tried. -/
theorem obeys_handleWithin (desk : HoldDesk) (s : Signal) (attempts left : Nat) :
    (handleWithin desk s attempts left).Obeys moving
      (fun r log' => ∃ cs, Adds log cs log' ∧ (Answer.handled r).Tells cs) log := by
  induction left generalizing log with
  | zero => exact ⟨[], .refl log, rfl⟩
  | succ left ih =>
    refine obeys_bind.2 ((obeys_attempt desk s).mono ?_)
    intro tried log₁ hlog
    cases tried with
    | none =>
      refine ih.mono ?_
      intro r log₂ hdone
      obtain ⟨cs, hlog', htells⟩ := hdone
      exact ⟨cs, hlog.trans hlog', htells⟩
    | some outcome => exact hlog

/-! ## Deadlines -/

theorem only_plain_afterTimeOut (desk : HoldDesk) (o : Order) (t : Transition) (now : Instant) :
    (afterTimeOut desk o t now).Only Plain := by
  refine only_bind (only_ask trivial) fun _ => ?_
  refine only_bind (only_ask trivial) fun _ => ?_
  split
  · exact only_bind (only_plain_onStock _) fun _ => trivial
  · trivial

/-- Timing an order out stores one order exactly if it says so. -/
theorem obeys_timeOut (desk : HoldDesk) (id : OrderId) :
    (timeOut desk id).Obeys moving
      (fun r log' => match r with
        | .ok true => ∃ o, Adds log [o] log'
        | _ => Adds log [] log') log := by
  refine obeys_bind.2 ⟨trivial, fun reply _ => ?_⟩
  have hload := Adds.append_plain log (.load id) trivial reply
  rcases reply with e | _ | o
  · exact hload
  · exact hload
  · refine obeys_bind.2 ((obeys_of_plain (only_plain_onStock _)).mono fun now log₁ hnow => ?_)
    have hlog := hload.trans hnow
    by_cases hdue : o.isOverdue now = true
    · rw [if_pos hdue]
      cases ht : o.transition .timeOut now with
      | error rejection => exact hlog
      | ok moved =>
        obtain ⟨next, t⟩ := moved
        have hmoved := moved_of_transition (hnow.loaded List.mem_concat_self) ht
        refine obeys_bind.2 ⟨hmoved, fun saved _ => ?_⟩
        have hsaved := hlog.trans (.append log₁ ⟨.save next, saved⟩)
        cases saved with
        | ok version =>
          refine obeys_bind.2
            ((obeys_then_plain (only_plain_afterTimeOut desk next t now) hsaved).mono ?_)
          exact fun _ _ hdone => ⟨_, hdone⟩
        | error e =>
          simp only [obeys_done, pure_eq]
          cases e.isConflict <;> exact hsaved
    · rw [if_neg hdue]
      exact hlog

/-- Timing several orders out counts the orders that are stored. -/
theorem obeys_timeOutAll (desk : HoldDesk) (count : Nat) (ids : List OrderId) :
    (timeOutAll desk count ids).Obeys moving
      (fun n log' => ∃ cs, Adds log cs log' ∧ n = count + cs.length) log := by
  induction ids generalizing log count with
  | nil => exact ⟨[], .refl log, rfl⟩
  | cons id ids ih =>
    have passed : ∀ {log₁}, Adds log [] log₁ → (timeOutAll desk count ids).Obeys moving
        (fun n log' => ∃ cs, Adds log cs log' ∧ n = count + cs.length) log₁ := by
      intro log₁ hlog
      refine (ih count).mono ?_
      intro n log₂ hdone
      obtain ⟨cs, hlog', rfl⟩ := hdone
      exact ⟨cs, hlog.trans hlog', rfl⟩
    refine obeys_bind.2 ((obeys_timeOut desk id).mono ?_)
    intro result log₁ hlog
    cases result with
    | error e => exact passed hlog
    | ok timedOut =>
      cases timedOut with
      | false => exact passed hlog
      | true =>
        obtain ⟨o, hlog⟩ := hlog
        refine (ih (count + 1)).mono ?_
        intro n log₂ hdone
        obtain ⟨cs, hlog', rfl⟩ := hdone
        refine ⟨o :: cs, hlog.trans hlog', ?_⟩
        rw [List.length_cons]
        omega

/-- A scan counts the orders that it stores. -/
theorem obeys_scan (desk : HoldDesk) (batch : BatchSize) :
    (scan desk batch).Obeys moving
      (fun r log' => ∃ cs, Adds log cs log' ∧ (Answer.scanned r).Tells cs) log := by
  refine obeys_bind.2 ((obeys_of_plain (only_plain_onStock _)).mono fun now log₁ hnow => ?_)
  refine obeys_bind.2 ⟨trivial, fun reply _ => ?_⟩
  have hlog := hnow.trans (.append_plain log₁ (.overdue now batch.count) trivial reply)
  cases reply with
  | error e => exact ⟨[], hlog, rfl⟩
  | ok ids =>
    refine obeys_bind.2 ((obeys_timeOutAll desk 0 ids).mono ?_)
    intro n log₂ hdone
    obtain ⟨cs, hlog', rfl⟩ := hdone
    exact ⟨cs, hlog.trans hlog', (Nat.zero_add _).symm⟩

end Service
end Fulfilment
