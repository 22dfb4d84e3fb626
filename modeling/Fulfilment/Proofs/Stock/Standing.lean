import Fulfilment.Proofs.Stock.Counters
import Fulfilment.Proofs.Stock.Sweeping

/-!
# Holds that stand

A hold stands from the exchange that added it until one that takes it, and `standing?` reads that
off the exchanges. Whatever goes on at a site, the list by deadline has exactly the holds that
stand. The primary record of a hold is less durable: it may be gone once the deadline has passed,
and only then, as long as the clock does not go back.
-/
namespace Fulfilment
namespace Stock

open Ledger

/-! ## Sites whose clock does not go back -/

/-- What may happen at such a site besides the calls of operations. -/
inductive Upkeep where
  | change (c : Site.Change)
  | setStock (product : ProductId) (available : Int)
deriving DecidableEq, Repr

/-- The site after upkeep. A clock that would be set back stands still. -/
def Site.keepUp : Upkeep → Site → Site
  | .change (.setClock now), s => if s.clock ≤ now then { s with clock := now } else s
  | .change c, s => Site.change c s
  | .setStock p available, s => { s with ledger := s.ledger.write p available }

/-- The system of operations on reservations while the clock does not go back. -/
def onwards : System calls Site Job Upkeep Outcome := ⟨Site.answer, Job.script, Site.keepUp⟩

theorem Site.clock_le_keepUp (s : Site) (u : Upkeep) : s.clock ≤ (s.keepUp u).clock := by
  cases u with
  | setStock p available => exact le_refl s.clock.rank
  | change c =>
    cases c with
    | setClock now =>
      simp only [keepUp]
      split
      · assumption
      · exact le_refl s.clock.rank
    | _ => exact le_refl s.clock.rank

/-! ## What stands -/

/-- The hold of a reservation after an exchange, if it was `held` before. -/
def standingAfter (id : ReservationId) (held : Option Hold) : Exchange calls → Option Hold
  | ⟨.insertHold h, true⟩ => if h.id = id then some h else held
  | ⟨.takeHold a, some _⟩ => if a = id then none else held
  | _ => held

/-- The hold that some exchanges have added for a reservation and not taken since. -/
def standing? (id : ReservationId) (trace : List (Exchange calls)) : Option Hold :=
  trace.foldl (standingAfter id) none

@[simp] theorem standing?_nil (id : ReservationId) : standing? id [] = none := rfl

@[simp] theorem standing?_append (id : ReservationId) (trace : List (Exchange calls))
    (e : Exchange calls) :
    standing? id (trace ++ [e]) = standingAfter id (standing? id trace) e := by
  simp [standing?]

/-- The hold that an exchange added. -/
def added? : Exchange calls → Option Hold
  | ⟨.insertHold h, true⟩ => some h
  | _ => none

theorem eq_of_added? {e : Exchange calls} {h : Hold} (hh : added? e = some h) :
    e = ⟨.insertHold h, true⟩ := by
  unfold added? at hh
  split at hh
  · cases hh
    rfl
  · cases hh

/-- The holds that some exchanges added, in their order. -/
def added (log : List (Exchange calls)) : List Hold := log.filterMap added?

@[simp] theorem added_append (log more : List (Exchange calls)) :
    added (log ++ more) = added log ++ added more := List.filterMap_append

theorem mem_added_append {log : List (Exchange calls)} {e : Exchange calls} {h : Hold}
    (hh : h ∈ added (log ++ [e])) : h ∈ added log ∨ added? e = some h := by
  simpa [added, List.filterMap_append] using hh

/-! ## What an operation adds -/

namespace Job

/-- The operation may add the hold. A reservation adds only what it is asked for; nothing is said of
other operations. -/
def Asks : Job → Hold → Prop
  | reserve _ store lines id _, h =>
    Reservation.objection lines = none ∧ h.id = id ∧ h.store = store ∧
      h.lines = StockLine.merge lines
  | _, _ => True

/-- A hold that the call adds is one that the operation may add. -/
def MayMake (j : Job) : Call → Prop
  | .insertHold h => j.Asks h
  | _ => True

section Reserve

open Script Reservation

variable (budget : RetryBudget) (store : StoreId) {lines : List StockLine} (id : ReservationId)
  (ttl : Span)

end Reserve

end Job

end Stock

/-! ## Ledgers that are up to date -/

namespace Ledger

/-- The two places of a hold agree, and only a hold whose deadline has passed lacks its primary
record. Increments work. -/
structure UpToDate (l : Ledger) (now : Instant) : Prop where
  consistent : l.Consistent
  increments : l.incrementsFail = false
  recorded : ∀ {id h}, l.listed? id = some h → now < h.expiresAt → l.holds.get? id = some h

/-- The list after a call is what stands after it. -/
theorem listed?_answer {l : Ledger} (c : l.Consistent) (now : Instant) (request : Stock.Call)
    (id : ReservationId) :
    (Stock.answer now request l).2.listed? id =
      Stock.standingAfter id (l.listed? id) ⟨request, (Stock.answer now request l).1⟩ := by
  cases request with
  | insertHold h =>
    rw [Stock.answer, insertHold_eq c]
    cases hfree : l.listed? h.id with
    | some _ => rfl
    | none =>
      simp only [Option.isSome_none, Bool.false_eq_true, if_false, Stock.standingAfter,
        listed?_withHold c hfree, eq_comm]
  | takeHold a =>
    rw [Stock.answer, takeHold_eq c]
    cases hheld : l.listed? a with
    | some h => simp only [Stock.standingAfter, listed?_withoutHold c, eq_comm]
    | none =>
      by_cases hid : id = a
      · subst hid
        simp [Stock.standingAfter, listed?_withoutHold c, hheld]
      · simp [Stock.standingAfter, listed?_withoutHold c, hid]
  | getHold a => exact listed?_getHold l now a id
  | compareAndSet p revision available => exact listed?_compareAndSet l p revision available id
  | increment p q => exact listed?_increment l p q id
  | _ => rfl

namespace UpToDate

variable {l m : Ledger} {now later : Instant}

theorem of_empty (hh : l.holds = ∅) (hi : l.index = ∅) (hd : l.deadlines = ∅)
    (hinc : l.incrementsFail = false) (now : Instant) : l.UpToDate now where
  consistent := consistent_of_empty hh hi hd
  increments := hinc
  recorded hl := by simp [listed?, hd] at hl

theorem of_eq (u : l.UpToDate now) (hh : m.holds = l.holds) (hi : m.index = l.index)
    (hd : m.deadlines = l.deadlines) (hinc : m.incrementsFail = l.incrementsFail) :
    m.UpToDate now where
  consistent := u.consistent.of_eq hh hi hd
  increments := hinc.trans u.increments
  recorded hl hlive := by
    rw [hh]
    simp only [listed?, hi, hd] at hl
    exact u.recorded hl hlive

theorem mono (u : l.UpToDate now) (h : now ≤ later) : l.UpToDate later where
  consistent := u.consistent
  increments := u.increments
  recorded hl hlive := u.recorded hl (Int.lt_of_le_of_lt h hlive)

/-- Adding a hold adds its primary record. -/
theorem insertHold (u : l.UpToDate now) (h : Hold) : (l.insertHold h).2.UpToDate now where
  consistent := u.consistent.insertHold h
  increments := by
    rw [insertHold_eq u.consistent]
    split <;> exact u.increments
  recorded {id held} hl hlive := by
    rw [insertHold_eq u.consistent] at hl ⊢
    cases hfree : l.listed? h.id with
    | some _ =>
      rw [hfree] at hl
      exact u.recorded hl hlive
    | none =>
      simp only [hfree, Option.isSome_none, Bool.false_eq_true, if_false,
        listed?_withHold u.consistent hfree] at hl ⊢
      by_cases hid : id = h.id
      · subst hid
        rw [if_pos rfl] at hl
        cases hl
        exact Table.get?_insert_self ..
      · rw [if_neg hid] at hl
        exact (Table.get?_insert_of_ne _ _ hid).trans (u.recorded hl hlive)

theorem takeHold (u : l.UpToDate now) (a : ReservationId) : (l.takeHold a).2.UpToDate now := by
  rw [takeHold_eq u.consistent]
  refine ⟨consistent_withoutHold u.consistent a, u.increments, fun {id h} hl hlive => ?_⟩
  rw [listed?_withoutHold u.consistent] at hl
  split at hl
  · cases hl
  · next hid => exact (Table.get?_erase_of_ne _ hid).trans (u.recorded hl hlive)

/-- Looking a hold up drops a primary record only if its deadline has passed. -/
theorem getHold (u : l.UpToDate now) (a : ReservationId) : (l.getHold now a).2.UpToDate now where
  consistent := u.consistent.getHold now a
  increments := by
    unfold Ledger.getHold
    split
    · split <;> exact u.increments
    · exact u.increments
  recorded {id h} hl hlive := by
    rw [listed?_getHold] at hl
    have hrecord := u.recorded hl hlive
    unfold Ledger.getHold
    split
    · next r hr =>
      split
      · exact hrecord
      · next hdue =>
        by_cases hid : id = a
        · subst hid
          rw [hrecord] at hr
          cases hr
          simp [Hold.isLive, hlive] at hdue
        · exact (Table.get?_erase_of_ne _ hid).trans hrecord
    · exact hrecord

theorem answer (u : l.UpToDate now) (request : Stock.Call) :
    (Stock.answer now request l).2.UpToDate now := by
  cases request with
  | insertHold h => exact u.insertHold h
  | takeHold a => exact u.takeHold a
  | getHold a => exact u.getHold a
  | compareAndSet p revision available =>
    rw [Stock.answer]
    rcases l.compareAndSet_result p revision available with h | ⟨n, h⟩ <;>
      (rw [h]; exact u.of_eq rfl rfl rfl rfl)
  | increment p q =>
    rw [Stock.answer]
    rcases l.increment_result p q with h | ⟨n, h⟩ <;> (rw [h]; exact u.of_eq rfl rfl rfl rfl)
  | _ => exact u

/-- Upkeep keeps the ledger up to date with the clock. -/
theorem keepUp {s : Stock.Site} (u : s.ledger.UpToDate s.clock) (m : Stock.Upkeep) :
    (s.keepUp m).ledger.UpToDate (s.keepUp m).clock := by
  suffices h : (s.keepUp m).ledger.UpToDate s.clock from h.mono (s.clock_le_keepUp m)
  cases m with
  | setStock p available => exact u.of_eq rfl rfl rfl rfl
  | change c =>
    cases c with
    | setClock now =>
      simp only [Stock.Site.keepUp]
      split <;> exact u
    | evict =>
      refine ⟨u.consistent.evict s.clock, u.increments, fun {id h} hl hlive => ?_⟩
      have hrecord := u.recorded hl hlive
      simp only [Stock.Site.keepUp, Stock.Site.change, Ledger.evict, Table.get?_filter, hrecord]
      simp [Hold.isLive, hlive]
    | _ => exact u.of_eq rfl rfl rfl rfl

end UpToDate

end Ledger

/-! ## Schedules -/

namespace Stock

open Ledger

namespace Traffic

/-- The list by deadline has the holds that stand, and operations added what they were asked for. -/
structure Tracked (s : Traffic) : Prop where
  upToDate : s.stores.ledger.UpToDate s.stores.clock
  listed : ∀ id, s.stores.ledger.listed? id = standing? id s.trace
  asked : ∀ t ∈ s.tasks, ∀ h ∈ added t.log, t.job.Asks h

theorem Tracked.start {s : Traffic} (k : Tracked s) (j : Job) :
    Tracked { s with tasks := s.tasks ++ [onwards.begun j] } where
  upToDate := k.upToDate
  listed := k.listed
  asked t ht h hh := by
    rcases List.mem_append.1 ht with ht | ht
    · exact k.asked t ht h hh
    · obtain rfl := List.mem_singleton.1 ht
      simp [System.begun, added] at hh

theorem Tracked.disturb {s : Traffic} (k : Tracked s) (m : Upkeep) :
    Tracked { s with stores := s.stores.keepUp m } where
  upToDate := k.upToDate.keepUp m
  listed id := by
    refine Eq.trans ?_ (k.listed id)
    cases m with
    | setStock p available => rfl
    | change c =>
      cases c with
      | setClock now =>
        simp only [Site.keepUp]
        split <;> rfl
      | _ => rfl
  asked := k.asked

/-- A call lists what it adds and strikes off what it takes. -/
theorem Tracked.proceed {site : Site} {before after : List (Task calls Job Outcome)}
    {t : Task calls Job Outcome} {trace : List (Exchange calls)} {request : Call}
    (k : Tracked ⟨site, before ++ t :: after, trace⟩) (hallowed : t.job.MayMake request)
    (rest : Script calls Outcome) :
    Tracked
      { stores := (onwards.answer request site).2
        tasks := before ++ t.tell (onwards.exchange request site) rest :: after
        trace := trace ++ [onwards.exchange request site] } where
  upToDate := k.upToDate.answer request
  listed id := by
    rw [standing?_append, ← k.listed id]
    exact listed?_answer k.upToDate.consistent site.clock request id
  asked u hu h hh := by
    rcases Task.mem_of_mem_tell hu with rfl | hu
    · rcases mem_added_append hh with hh | hh
      · exact k.asked t (by simp) h hh
      · have hrequest : request = .insertHold h := congrArg Exchange.request (eq_of_added? hh)
        subst hrequest
        exact hallowed
    · exact k.asked u hu h hh

end Traffic
end Stock
end Fulfilment
