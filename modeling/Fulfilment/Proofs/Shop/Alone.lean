import Fulfilment.Proofs.Fallible
import Fulfilment.Service.Operation
import Fulfilment.Shop.World

/-!
# Calls on the shop, one at a time

What each call on the world does when a script runs alone, and what the parts of service operations
do: loading answers the stored order, and asking an order to do something touches no store.
-/
namespace Fulfilment

open Script

variable {w : World}

namespace Shop

/-- A script on the ledger does in the world what it does on the ledger. -/
theorem yields_onStock {α : Type} {p : Script Stock.calls α} {ends : α → World → Prop} :
    (Shop.onStock p).Yields World.answer ends w ↔
      p.Yields (Stock.answer w.clock) (fun a l => ends a { w with ledger := l }) w.ledger := by
  rw [Yields, World.run_onStock]
  rfl

theorem yields_now {ends : Instant → World → Prop} :
    Shop.now.Yields World.answer ends w ↔ ends w.clock w := Iff.rfl

theorem yields_load {id : OrderId} {ends : Except BookError (Option Order) → World → Prop} :
    (Shop.load id).Yields World.answer ends w ↔ ends (.ok (w.book.get? id)) w := Iff.rfl

theorem yields_save {o : Order} {ends : Except BookError Int → World → Prop} :
    (Shop.save o).Yields World.answer ends w ↔
      ends (w.book.save o).1 { w with book := (w.book.save o).2 } := Iff.rfl

/-- An order is refused for the book's objection, or stored. -/
theorem yields_save_of {o : Order} {ends : Except BookError Int → World → Prop}
    (refused : ∀ e, w.book.objection o = some e → ends (.error e) w)
    (saved : w.book.objection o = none →
      ends (.ok (o.version + 1)) { w with book := w.book.store o }) :
    (Shop.save o).Yields World.answer ends w := by
  rw [yields_save, OrderBook.save]
  cases h : w.book.objection o with
  | none => exact saved h
  | some e => exact refused e h

theorem yields_overdue {now : Instant} {limit : Nat}
    {ends : Except BookError (List OrderId) → World → Prop} :
    (Shop.overdue now limit).Yields World.answer ends w ↔
      ends (.ok (w.book.overdue now limit)) w := Iff.rfl

theorem yields_record {e : AuditEntry} {ends : Unit → World → Prop} :
    (Shop.record e).Yields World.answer ends w ↔ ends () { w with trail := w.trail.record e } :=
  Iff.rfl

theorem yields_publish {n : Notice} {ends : Unit → World → Prop} :
    (Shop.publish n).Yields World.answer ends w ↔ ends () { w with outbox := w.outbox.publish n } :=
  Iff.rfl

theorem yields_claim {k : RequestKey} {ends : Except KeyError Claim → World → Prop} :
    (Shop.claim k).Yields World.answer ends w ↔
      ends (w.keys.claim k).1 { w with keys := (w.keys.claim k).2 } := Iff.rfl

theorem yields_release {k : RequestKey} {ends : Unit → World → Prop} :
    (Shop.release k).Yields World.answer ends w ↔ ends () { w with keys := w.keys.release k } :=
  Iff.rfl

theorem yields_hasStore {s : StoreId} {ends : Except CatalogError Bool → World → Prop} :
    (Shop.hasStore s).Yields World.answer ends w ↔ ends (.ok (w.catalog.hasStore s)) w := Iff.rfl

theorem yields_sells {s : StoreId} {p : ProductId}
    {ends : Except CatalogError Bool → World → Prop} :
    (Shop.sells s p).Yields World.answer ends w ↔ ends (.ok (w.catalog.sells s p)) w := Iff.rfl

end Shop

namespace Operation

/-! ## Parts of operations -/

/-- A failed requirement is the outcome. -/
theorem require_run {α ε : Type} (cause : ε → ServiceError) (r : Except ε α) :
    (require cause r).run = .done (r.mapError cause) := by
  cases r <;> rfl

/-- A call that may fail is a call, whose failure is the outcome. -/
theorem call_run {α ε : Type} (cause : ε → ServiceError) (p : Script Shop.calls (Except ε α)) :
    (call cause p).run = p >>= fun r => .done (r.mapError cause) := by
  rw [call, run_lift_bind]
  simp only [require_run]

/-- Loading answers the stored order. -/
theorem yields_loadOrder (id : OrderId) :
    (loadOrder id).run.Yields World.answer
      (fun r w' => w' = w ∧ ∀ o, r = .ok o → w.book.get? id = some o) w := by
  rw [loadOrder, yields_run_bind, call_run, yields_bind, Shop.yields_load, yields_done]
  cases h : w.book.get? id with
  | none =>
    refine ⟨rfl, fun o ho => ?_⟩
    cases ho
  | some o =>
    refine ⟨rfl, fun _ ho => ?_⟩
    cases ho
    rfl

/-- Loading for the owner answers the stored order. -/
theorem yields_loadOwned (id : OrderId) (user : UserId) :
    (loadOwned id user).run.Yields World.answer
      (fun r w' => w' = w ∧ ∀ o, r = .ok o → w.book.get? id = some o) w := by
  rw [loadOwned, yields_run_bind]
  refine (yields_loadOrder id).mono ?_
  intro result w' hresult
  obtain ⟨rfl, ho⟩ := hresult
  cases result with
  | error e =>
    refine ⟨rfl, fun o ho => ?_⟩
    cases ho
  | ok o =>
    rw [goOn_ok]
    split
    · exact ⟨rfl, ho⟩
    · refine ⟨rfl, fun o ho => ?_⟩
      cases ho

/-- An accepted action leads to the order that the transition answers, and touches no store. -/
theorem yields_accept (o : Order) (act : Action) (now : Instant) :
    (accept o act now).run.Yields World.answer
      (fun r w' => w' = w ∧ ∀ next t, r = .ok (next, t) → o.transition act now = .ok (next, t))
      w := by
  rw [accept, require_run, yields_done]
  cases ht : o.transition act now with
  | error rejection =>
    refine ⟨rfl, fun next t h => ?_⟩
    cases h
  | ok moved =>
    refine ⟨rfl, fun next t h => ?_⟩
    cases h
    rfl

/-- Saving answers the order at its next version, unless it is refused. -/
theorem yields_saveOrder {o : Order} {ends : Except ServiceError Order → World → Prop}
    (refused : ∀ e, w.book.objection o = some e → ends (.error (.book e)) w)
    (saved : w.book.objection o = none →
      ends (.ok { o with version := o.version + 1 }) { w with book := w.book.store o }) :
    (saveOrder o).run.Yields World.answer ends w := by
  rw [saveOrder, yields_run_bind, call_run, yields_bind]
  exact Shop.yields_save_of refused saved

end Operation
end Fulfilment
