import Fulfilment.Proofs.Saga.Arrival
import Fulfilment.Proofs.Saga.Attempts

/-!
# Contention

Several writers can load the same order, and one of them saves it first. Handling a signal meets
this at the save: whoever wrote the order since it was loaded has left a higher version, so the save
is refused and the handling starts anew. An attempt that is outrun leaves nothing behind, and so the
attempt that is not outrun does what it would have done alone, after the others (`EndsAfter`).
-/
namespace Fulfilment

open Script Service

variable {α : Type} {s : Signal}

/-! ## Rival writes -/

namespace OrderBook

variable {b : OrderBook} {id : OrderId} {o x : Order} {xs ys : List Order}

/-- The book after several saves, of which some may be refused. -/
def saveAll (b : OrderBook) (xs : List Order) : OrderBook := xs.foldl (fun b x => (b.save x).2) b

/-- The orders are values of one order that can all be stored, one after the other. -/
def Commits (b : OrderBook) (id : OrderId) : List Order → Prop
  | [] => True
  | x :: xs => x.id = id ∧ b.objection x = none ∧ (b.store x).Commits id xs

theorem saveAll_cons (h : b.objection x = none) (xs : List Order) :
    b.saveAll (x :: xs) = (b.store x).saveAll xs := by
  simp only [saveAll, List.foldl_cons, save, h]

theorem saveAll_append (b : OrderBook) (xs ys : List Order) :
    b.saveAll (xs ++ ys) = (b.saveAll xs).saveAll ys := List.foldl_append

theorem Commits.of_append (h : b.Commits id (xs ++ ys)) :
    b.Commits id xs ∧ (b.saveAll xs).Commits id ys := by
  induction xs generalizing b with
  | nil => exact ⟨trivial, h⟩
  | cons x xs ih =>
    obtain ⟨hid, haccepted, hrest⟩ := h
    obtain ⟨hfirst, hlater⟩ := ih hrest
    refine ⟨⟨hid, haccepted, hfirst⟩, ?_⟩
    rwa [saveAll_cons haccepted]

theorem WellKept.saveAll (h : b.WellKept) (xs : List Order) : (b.saveAll xs).WellKept := by
  induction xs generalizing b with
  | nil => exact h
  | cons x xs ih => exact ih (h.save x)

theorem failing_saveAll (b : OrderBook) (xs : List Order) : (b.saveAll xs).failing = b.failing := by
  induction xs generalizing b with
  | nil => rfl
  | cons x xs ih =>
    have hfirst : (b.save x).2.failing = b.failing := by
      rw [save]
      split <;> rfl
    exact (ih _).trans hfirst

theorem failing_of_accepted (h : b.objection x = none) : b.failing = false := by
  cases hfailing : b.failing with
  | false => rfl
  | true => simp [objection, hfailing] at h

/-- Every value that is stored counts. -/
theorem Commits.get?_saveAll (h : b.Commits id xs) (hkept : b.WellKept)
    (ho : b.get? id = some o) :
    ∃ o', (b.saveAll xs).get? id = some o' ∧ o'.version = o.version + xs.length := by
  induction xs generalizing b o with
  | nil => exact ⟨o, ho, by simp⟩
  | cons x xs ih =>
    obtain ⟨hid, haccepted, hrest⟩ := h
    have hnext : (b.store x).get? id = some { x with version := x.version + 1 } := by
      rw [get?_store, if_pos hid.symm]
    have hversion : x.version = o.version := by
      by_cases hnew : x.version = 0
      · have hnone := get?_eq_none_of_new haccepted hnew
        rw [hid, ho] at hnone
        cases hnone
      · obtain ⟨stored, hstored, hsame⟩ := get?_of_known haccepted hnew
        rw [hid, ho] at hstored
        cases hstored
        exact hsame.symm
    have hkept' := hkept.save x
    rw [save, haccepted] at hkept'
    obtain ⟨o', ho', hlast⟩ := ih hrest hkept' hnext
    refine ⟨o', ?_, ?_⟩
    · rwa [saveAll_cons haccepted]
    · rw [hlast, hversion, List.length_cons]
      push_cast
      omega

/-- After rival writes an order that was loaded before is refused for the conflict. -/
theorem Commits.objection_saveAll (h : b.Commits id xs) (hkept : b.WellKept) (hne : xs ≠ [])
    (ho : b.get? id = some o) (hid : x.id = id) (hversion : x.version = o.version) :
    ∃ e, (b.saveAll xs).objection x = some e ∧ e.isConflict = true := by
  obtain ⟨o', ho', hcount⟩ := h.get?_saveAll hkept ho
  have hpositive := (hkept id o ho).2
  have hfailing : (b.saveAll xs).failing = false := by
    rw [failing_saveAll]
    cases xs with
    | nil => exact absurd rfl hne
    | cons y ys => exact failing_of_accepted h.2.1
  have hlength : 0 < xs.length := List.length_pos_iff.2 hne
  have hknown : x.version ≠ 0 := by omega
  have hstale : o'.version ≠ x.version := by omega
  refine ⟨.conflict x.id x.version o'.version, ?_, rfl⟩
  simp [objection, hfailing, hid, ho', hknown, hstale]

theorem WellKept.not_conflict (hkept : b.WellKept) (ho : b.get? id = some o) (hid : x.id = id)
    (hversion : x.version = o.version) {e : BookError} (he : b.objection x = some e) :
    e.isConflict = false := by
  cases hfailing : b.failing with
  | true =>
    rw [objection, if_pos hfailing] at he
    cases he
    rfl
  | false =>
    rw [objection_eq_none hfailing ho hid hversion (hkept id o ho).2] at he
    cases he

end OrderBook

/-- The world after rival writes. -/
def World.overtaken (w : World) (xs : List Order) : World := { w with book := w.book.saveAll xs }

namespace Saga

/-- A world in which rivals write to an order. Their writes come in groups, one for each save of the
handling, before which they land; those that have landed are kept. Between a load and its save the
handling only asks for the time, so it does not matter when they land in between. -/
structure Contended where
  world : World
  rivals : List (List Order)
  landed : List Order := []

/-- The rivals whose turn it is write. -/
def Contended.land (c : Contended) : Contended where
  world := c.world.overtaken (c.rivals.headD [])
  rivals := c.rivals.tail
  landed := c.landed ++ c.rivals.headD []

/-- The world of a contended one answers a call. -/
def Contended.reply (c : Contended) (request : Shop.Call) : request.Reply × Contended :=
  ((World.answer request c.world).1, { c with world := (World.answer request c.world).2 })

/-- A contended world answers a call. -/
def contend : Shop.calls.Handler Contended
  | .save o, c => c.land.reply (.save o)
  | request, c => c.reply request

variable {c : Contended}

theorem contend_of_plain {request : Shop.Call} (h : Plain request) (c : Contended) :
    contend request c = c.reply request := by
  cases request with
  | save => exact h.elim
  | _ => rfl

theorem run_contend_of_plain {p : Script Shop.calls α} (h : p.Only Plain) (c : Contended) :
    p.run contend c =
      ((p.run World.answer c.world).1, { c with world := (p.run World.answer c.world).2 }) := by
  induction p generalizing c with
  | done a => rfl
  | call request next ih =>
    rw [run_call, run_call, contend_of_plain h.1]
    exact ih _ (h.2 _) _

/-- Those who have written are the rivals of the saves that were made. -/
theorem landed_run_contend (p : Script Shop.calls α) (c : Contended) :
    (p.run contend c).2.landed =
      c.landed ++ (c.rivals.take (saves (p.transcript contend c)).length).flatten := by
  induction p generalizing c with
  | done a =>
    rw [transcript]
    exact (List.append_nil _).symm
  | call request next ih =>
    rw [run_call, ih, transcript]
    cases request with
    | save o =>
      have hsaves : ∀ reply log, saves (⟨.save o, reply⟩ :: log) = reply :: saves log :=
        fun _ _ => rfl
      rw [hsaves, List.length_cons]
      cases hrivals : c.rivals with
      | nil => simp [contend, Contended.reply, Contended.land, hrivals]
      | cons group rest => simp [contend, Contended.reply, Contended.land, hrivals]
    | _ => rfl

/-! ## One attempt -/

/-- What an attempt goes on with, once it knows the stored order and the time. -/
def judge (desk : HoldDesk) (s : Signal) (now : Instant) :
    Option Order → Script Shop.calls (Option (Except SagaError Handled))
  | none => .done (some (.error (.orderNotFound s.order)))
  | some o =>
    match o.react s now with
    | .error rejection => .done (some (.error (.order rejection)))
    | .ok (.duplicate _) => .done (some (.ok .duplicate))
    | .ok (.apply a) => commit desk s o.status a

/-- An attempt loads the order and asks for the time, and then judges. -/
theorem run_attempt {σ : Type} {answer : Shop.calls.Handler σ} {world : σ} {stored : Option Order}
    {now : Instant} (hload : answer (.load s.order) world = (.ok stored, world))
    (hnow : answer (.stock .now) world = (now, world)) (desk : HoldDesk) :
    (attempt desk s).run answer world = (judge desk s now stored).run answer world := by
  have hload : (Shop.load s.order).run answer world = (.ok stored, world) := hload
  have hnow : Shop.now.run answer world = (now, world) := hnow
  rw [attempt, run_bind, hload]
  cases stored with
  | none => rfl
  | some o =>
    dsimp only
    rw [run_bind, hnow, judge]
    cases o.react s now with
    | error rejection => rfl
    | ok reaction => cases reaction <;> rfl

/-- Judging ends the handling, or there is a reaction to be saved. -/
theorem judge_cases (desk : HoldDesk) (s : Signal) (now : Instant) (stored : Option Order) :
    (∃ outcome, judge desk s now stored = .done (some outcome) ∧
      ∀ attempts, outcome ≠ gaveUp s attempts) ∨
    ∃ o a, stored = some o ∧ o.react s now = .ok (.apply a) ∧
      judge desk s now stored = commit desk s o.status a := by
  cases stored with
  | none => exact .inl ⟨_, rfl, by simp⟩
  | some o =>
    rw [judge]
    cases hreact : o.react s now with
    | error rejection => exact .inl ⟨_, rfl, by simp⟩
    | ok reaction =>
      cases reaction with
      | duplicate shown => exact .inl ⟨_, rfl, by simp⟩
      | apply a => exact .inr ⟨o, a, rfl, hreact, rfl⟩

/-- An attempt whose outcome is refused has to be repeated if the reason is a conflict. -/
theorem run_commit_of_refused {w : World} {a : Applied} {e : BookError}
    (h : w.book.objection a.order = some e) (desk : HoldDesk) (s : Signal) (loaded : Status) :
    (commit desk s loaded a).run World.answer w =
      (if e.isConflict then none else some (.error (.book e)), w) := by
  have hsave : (Shop.save a.order).run World.answer w = (.error e, w) := by
    simp only [Shop.save, ask, run_call, run_done, World.answer, OrderBook.save, h]
  rw [commit, run_bind, hsave]
  rfl

/-- An attempt whose outcome is accepted tells of the transition. -/
theorem run_commit_of_accepted {w : World} {a : Applied} (h : w.book.objection a.order = none)
    (desk : HoldDesk) (s : Signal) (loaded : Status) :
    ((commit desk s loaded a).run World.answer w).1 =
      some (.ok (.transitioned (a.source?.getD loaded) a.order.status)) := by
  have hsave : ((Shop.save a.order).run World.answer w).1 = .ok (a.order.version + 1) := by
    simp only [Shop.save, ask, run_call, run_done, World.answer, OrderBook.save, h]
  rw [commit, run_bind, hsave]
  dsimp only
  rw [run_bind]
  rfl

/-- Saving in a contended world is saving after the rivals whose turn it is. -/
theorem run_commit_contend (desk : HoldDesk) (s : Signal) (loaded : Status) (a : Applied)
    (c : Contended) :
    (commit desk s loaded a).run contend c =
      (((commit desk s loaded a).run World.answer c.land.world).1,
        { c.land with world := ((commit desk s loaded a).run World.answer c.land.world).2 }) := by
  have hsave : (Shop.save a.order).run contend c =
      (((Shop.save a.order).run World.answer c.land.world).1,
        { c.land with world := ((Shop.save a.order).run World.answer c.land.world).2 }) := rfl
  rw [commit, run_bind, run_bind, hsave]
  cases ((Shop.save a.order).run World.answer c.land.world).1 with
  | error e => rfl
  | ok version =>
    dsimp only
    rw [run_bind, run_bind, run_contend_of_plain (only_plain_afterSave desk s a)]
    rfl

/-- How an attempt ends in a contended world. -/
inductive Meets (desk : HoldDesk) (s : Signal) (c : Contended) :
    Option (Except SagaError Handled) × Contended → Prop where
  | alone {outcome : Except SagaError Handled} {w : World} (rivals : List (List Order))
      (same : (attempt desk s).run World.answer c.world = (some outcome, w))
      (goesOn : ∀ attempts, outcome ≠ gaveUp s attempts) :
      Meets desk s c (some outcome, ⟨w, rivals, c.landed⟩)
  | outrun : Meets desk s c (none, c.land)

/-- Saving alone ends the handling, since nobody else has written the order meanwhile. -/
theorem run_commit_alone {w : World} {id : OrderId} {o : Order} {a : Applied}
    (hkept : w.book.WellKept) (ho : w.book.get? id = some o) (hid : a.order.id = id)
    (hversion : a.order.version = o.version) (desk : HoldDesk) (s : Signal) (loaded : Status) :
    ∃ outcome, ((commit desk s loaded a).run World.answer w).1 = some outcome ∧
      ∀ attempts, outcome ≠ gaveUp s attempts := by
  cases he : w.book.objection a.order with
  | none => exact ⟨_, run_commit_of_accepted he desk s loaded, by simp⟩
  | some e =>
    have hconflict := hkept.not_conflict ho hid hversion he
    rw [run_commit_of_refused he, hconflict]
    exact ⟨_, rfl, by simp⟩

/-- An attempt is outrun and leaves nothing behind, or it ends as it would have ended alone. -/
theorem meets_attempt (desk : HoldDesk) (hkept : c.world.book.WellKept)
    (hrivals : c.world.book.Commits s.order (c.rivals.headD [])) :
    Meets desk s c ((attempt desk s).run contend c) := by
  have halone : (attempt desk s).run World.answer c.world =
      (judge desk s c.world.clock (c.world.book.get? s.order)).run World.answer c.world :=
    run_attempt rfl rfl desk
  have hcontend : (attempt desk s).run contend c =
      (judge desk s c.world.clock (c.world.book.get? s.order)).run contend c :=
    run_attempt rfl rfl desk
  rcases judge_cases desk s c.world.clock (c.world.book.get? s.order) with
    ⟨outcome, hjudge, hnever⟩ | ⟨o, a, ho, hreact, hjudge⟩
  · rw [hjudge, run_done] at halone hcontend
    rw [hcontend]
    exact .alone c.rivals halone hnever
  · rw [hjudge] at halone hcontend
    rw [hcontend, run_commit_contend]
    have hid : a.order.id = s.order :=
      (Order.samePlacement_of_react hreact).id.trans (hkept _ _ ho).1
    have hversion : a.order.version = o.version := Order.version_of_react hreact
    by_cases hnobody : c.rivals.headD [] = []
    · have hland : c.land = ⟨c.world, c.rivals.tail, c.landed⟩ := by
        rw [Contended.land, hnobody, List.append_nil]
        rfl
      obtain ⟨outcome, houtcome, hnever⟩ := run_commit_alone hkept ho hid hversion desk s o.status
      rw [hland, houtcome]
      refine .alone c.rivals.tail ?_ hnever
      rw [halone, ← houtcome]
    · obtain ⟨e, he, hconflict⟩ := hrivals.objection_saveAll hkept hnobody ho hid hversion
      have hrefused : (commit desk s o.status a).run World.answer c.land.world = _ :=
        run_commit_of_refused he desk s o.status
      rw [hrefused, hconflict]
      exact .outrun

/-! ## All attempts -/

section Attempts

variable {σ : Type} {answer : Shop.calls.Handler σ} {world world' : σ} {desk : HoldDesk}

theorem run_handleWithin_of_some {outcome : Except SagaError Handled}
    (h : (attempt desk s).run answer world = (some outcome, world')) (attempts left : Nat) :
    (handleWithin desk s attempts (left + 1)).run answer world = (outcome, world') := by
  rw [handleWithin, run_bind, h]
  rfl

theorem run_handleWithin_of_none (h : (attempt desk s).run answer world = (none, world'))
    (attempts left : Nat) :
    (handleWithin desk s attempts (left + 1)).run answer world =
      (handleWithin desk s attempts left).run answer world' := by
  rw [handleWithin, run_bind, h]

end Attempts

theorem overtaken_append (w : World) (xs ys : List Order) :
    w.overtaken (xs ++ ys) = (w.overtaken xs).overtaken ys := by
  simp only [World.overtaken, OrderBook.saveAll_append]

/-- Handling ends as if some rivals had written first and nobody after them: it gives up and leaves
nothing else behind, or it ends as it would have ended alone, with any attempts left. -/
structure EndsAfter (desk : HoldDesk) (s : Signal) (attempts : Nat) (c : Contended)
    (xs : List Order) (ended : Except SagaError Handled × Contended) : Prop where
  landed : ended.2.landed = c.landed ++ xs
  exhausted : ended.1 = gaveUp s attempts → ended.2.world = c.world.overtaken xs
  alone : ended.1 ≠ gaveUp s attempts → ∀ more,
    (handleWithin desk s attempts (more + 1)).run World.answer (c.world.overtaken xs) =
      (ended.1, ended.2.world)

/-- Handling in a contended world ends after some rivals. -/
theorem run_handleWithin_contend (desk : HoldDesk) (s : Signal) (attempts left : Nat)
    (hkept : c.world.book.WellKept) (hrivals : c.world.book.Commits s.order c.rivals.flatten) :
    ∃ xs, EndsAfter desk s attempts c xs ((handleWithin desk s attempts left).run contend c) := by
  induction left generalizing c with
  | zero =>
    have hend : (handleWithin desk s attempts 0).run contend c = (gaveUp s attempts, c) := rfl
    rw [hend]
    exact ⟨[], (List.append_nil _).symm, fun _ => rfl, fun hnot => absurd rfl hnot⟩
  | succ left ih =>
    have hgroups : c.rivals.flatten = c.rivals.headD [] ++ c.rivals.tail.flatten := by
      cases c.rivals <;> simp
    rw [hgroups] at hrivals
    obtain ⟨hfirst, hlater⟩ := hrivals.of_append
    have hmeets := meets_attempt desk hkept hfirst
    generalize hrun : (attempt desk s).run contend c = tried at hmeets
    cases hmeets with
    | alone rivals same goesOn =>
      rw [run_handleWithin_of_some hrun]
      refine ⟨[], (List.append_nil _).symm, fun hgives => absurd hgives (goesOn attempts), ?_⟩
      intro _ more
      exact run_handleWithin_of_some same attempts more
    | outrun =>
      rw [run_handleWithin_of_none hrun]
      obtain ⟨xs, hends⟩ := ih (c := c.land) (hkept.saveAll _) hlater
      refine ⟨c.rivals.headD [] ++ xs, ?_, ?_, ?_⟩
      · rw [hends.landed, Contended.land, List.append_assoc]
      · rw [overtaken_append]
        exact hends.exhausted
      · rw [overtaken_append]
        exact hends.alone

/--
Conflict retries are transparent.

A signal is handled while rivals write to its order: all their writes can be stored one after the
other, and they land in groups, each before one save of the handling. Then the handling loads and
saves as often as it may try, at most. If it does not give up, it ends with the same answer and in
the same world as if it had run alone after those rivals that have written. It gives up exactly if
all its saves were outrun, and then nothing is left but the rivals' writes. In any case one save
succeeds at most, and nothing is recorded, told or done to the stock but after that save.
-/
theorem conflict_retries_are_transparent (desk : HoldDesk) (retries : ConflictRetries)
    (s : Signal) {w : World} (hkept : w.book.WellKept) (rivals : List (List Order))
    (hrivals : w.book.Commits s.order rivals.flatten) :
    let log := (handle desk retries s).transcript contend ⟨w, rivals, []⟩
    let answer := ((handle desk retries s).run contend ⟨w, rivals, []⟩).1
    let after := ((handle desk retries s).run contend ⟨w, rivals, []⟩).2
    let exhausted := Except.error (.conflictRetriesExhausted s.order (retries.count + 1))
    loads log ≤ retries.count + 1 ∧ (saves log).length ≤ retries.count + 1 ∧
      after.landed = (rivals.take (saves log).length).flatten ∧
      (answer ≠ exhausted →
        (handle desk retries s).run World.answer (w.overtaken after.landed) =
          (answer, after.world)) ∧
      (answer = exhausted ↔
        (saves log).length = retries.count + 1 ∧ ∀ reply ∈ saves log, IsOutrun reply) ∧
      (answer = exhausted → after.world = w.overtaken after.landed) ∧
      (commits log).length ≤ 1 ∧
      ∀ before e later, log = before ++ e :: later → FollowsSave e.request →
        ∃ o, commits before = [o] := by
  intro log answer after exhausted
  have hobeys :=
    obeys_handleWithin_contending desk s (retries.count + 1) (retries.count + 1) commits_nil
  have hsays : Contends (retries.count + 1) (answer = exhausted) [] ([] ++ log) :=
    hobeys.ends_run fun _ _ => trivial
  obtain ⟨replies, hsaves, hlength, hgives⟩ := hsays.saves_eq
  have hsaves : saves log = replies := hsaves
  obtain ⟨xs, hends⟩ := run_handleWithin_contend desk s (retries.count + 1) (retries.count + 1)
    (c := ⟨w, rivals, []⟩) hkept hrivals
  have hlanded : after.landed = xs := hends.landed
  refine ⟨?_, ?_, landed_run_contend _ _, ?_, ?_, ?_, hsays.commits_le, ?_⟩
  · have hloads := hsays.loads_le
    exact Nat.le_trans hloads (Nat.le_of_eq (Nat.zero_add _))
  · rw [hsaves]
    exact hlength
  · intro hnot
    rw [hlanded]
    exact hends.alone hnot retries.count
  · rw [hsaves]
    exact hgives
  · rw [hlanded]
    exact hends.exhausted
  · intro before e later heq hfollows
    have hallowed := hobeys.allows_of_transcript (fun _ _ => trivial) heq
    rw [List.nil_append] at hallowed
    cases hrequest : e.request with
    | load | save =>
      rw [hrequest] at hfollows
      exact hfollows.elim
    | _ =>
      simp only [contending, hrequest] at hallowed
      exact hallowed (hrequest ▸ hfollows)

/-- The confirmed order of two widgets when a rival has linked its payment. -/
def linkedWidgets : Order :=
  { confirmedWidgets.apply (.paymentLinked ⟨"payment"⟩ widgetShop.clock) with version := 1 }

/-- The payment of the two widgets is handled while a rival links it. -/
def payWhileLinked (retries : ConflictRetries) : Except SagaError Handled × Contended :=
  (handle .direct retries widgetsPaid).run contend
    ⟨shopWith confirmedWidgets, [[linkedWidgets]], []⟩

/-- With one retry the widgets are paid for after the rival's write, as they would have been alone.
Without one the handling gives up, and only that write is left. -/
theorem widgets_are_paid_after_rival :
    let w := shopWith confirmedWidgets
    w.book.WellKept ∧ w.book.Commits confirmedWidgets.id [linkedWidgets] ∧
      (payWhileLinked (.ofNat 1)).1 = .ok (.transitioned .paymentPending .preparing) ∧
      (handle .direct (.ofNat 1) widgetsPaid).run World.answer (w.overtaken [linkedWidgets]) =
        ((payWhileLinked (.ofNat 1)).1, (payWhileLinked (.ofNat 1)).2.world) ∧
      (payWhileLinked (.ofNat 0)).1 = .error (.conflictRetriesExhausted confirmedWidgets.id 1) ∧
      (payWhileLinked (.ofNat 0)).2.world = w.overtaken [linkedWidgets] := by
  have hkept : (shopWith confirmedWidgets).book.WellKept :=
    (OrderBook.wellKept_of_empty rfl).store (by decide)
  have hrivals : (shopWith confirmedWidgets).book.Commits confirmedWidgets.id [linkedWidgets] :=
    ⟨rfl, by decide +kernel, trivial⟩
  have hpaid : (payWhileLinked (.ofNat 1)).1 = .ok (.transitioned .paymentPending .preparing) := by
    decide +kernel
  have hgaveUp : (payWhileLinked (.ofNat 0)).1 =
      .error (.conflictRetriesExhausted confirmedWidgets.id 1) := by decide +kernel
  have hlanded : (payWhileLinked (.ofNat 1)).2.landed = [linkedWidgets] := by decide +kernel
  have hlanded' : (payWhileLinked (.ofNat 0)).2.landed = [linkedWidgets] := by decide +kernel
  obtain ⟨-, -, -, halone, -⟩ :=
    conflict_retries_are_transparent .direct (.ofNat 1) widgetsPaid hkept [[linkedWidgets]] hrivals
  obtain ⟨-, -, -, -, -, hleft, -⟩ :=
    conflict_retries_are_transparent .direct (.ofNat 0) widgetsPaid hkept [[linkedWidgets]] hrivals
  have hnot : (payWhileLinked (.ofNat 1)).1 ≠
      .error (.conflictRetriesExhausted confirmedWidgets.id 2) := by
    rw [hpaid]
    exact nofun
  refine ⟨hkept, hrivals, hpaid, ?_, hgaveUp, ?_⟩
  · rw [← hlanded]
    exact halone hnot
  · rw [← hlanded']
    exact hleft hgaveUp

end Saga
end Fulfilment
