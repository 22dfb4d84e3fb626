import Fulfilment.Proofs.Lists
import Fulfilment.Proofs.Stock.Standing
import Mathlib.Data.List.Induction
import Mathlib.Data.List.Nodup
import Mathlib.Data.List.Perm.Subperm

/-!
# The two places of a hold, call by call

A site is used call by call, and between the calls its clock moves, records are evicted, counters
are set and switches are thrown. Whatever is done, the two places of each hold agree, and the calls
that were answered say what is in them: the holds that were added are those that were taken and
those that are listed (`Traced`). What an eviction or a look-up may drop from one place is bounded
by the clock as long as it does not go back. That part was shown for ledgers whose increments
succeed, and carries over because no hold depends on increments
(`Ledger.Consistent.answer_working`).
-/
namespace Fulfilment
namespace Stock

open Ledger

/-! ## Steps -/

/-- What can be done at a site: a call, or something from outside. The clock may go back. -/
inductive Step where
  | call (request : Call)
  | change (c : Site.Change)
  | setStock (product : ProductId) (available : Int)
  | failIncrements (fails : Bool)

namespace Site

def step (s : Site) : Step → Site
  | .call request => (answer request s).2
  | .change c => change c s
  | .setStock p available => { s with ledger := s.ledger.write p available }
  | .failIncrements fails => { s with ledger := { s.ledger with incrementsFail := fails } }

/-- The exchange of a step that is a call. -/
def exchanged (s : Site) : Step → List (Exchange calls)
  | .call request => [⟨request, (answer request s).1⟩]
  | _ => []

/-- The site after some steps. -/
def follow (s : Site) (steps : List Step) : Site := steps.foldl step s

def log : Site → List Step → List (Exchange calls)
  | _, [] => []
  | s, x :: xs => s.exchanged x ++ (s.step x).log xs

/-- No step sets the clock back. -/
def Onwards : Site → List Step → Prop
  | _, [] => True
  | s, x :: xs => s.clock ≤ (s.step x).clock ∧ (s.step x).Onwards xs

instance Onwards.decidable : (s : Site) → (steps : List Step) → Decidable (s.Onwards steps)
  | _, [] => .isTrue trivial
  | s, x :: xs =>
    have := decidable (s.step x) xs
    inferInstanceAs (Decidable (s.clock ≤ (s.step x).clock ∧ (s.step x).Onwards xs))

end Site

/-! ## The holds that exchanges tell of -/

/-- The exchange adds a hold of the reservation or takes one. -/
def Concerns (id : ReservationId) : Exchange calls → Prop
  | ⟨.insertHold h, true⟩ => h.id = id
  | ⟨.takeHold a, some _⟩ => a = id
  | _ => False

theorem standingAfter_of_not_concerns {id : ReservationId} {held : Option Hold}
    {e : Exchange calls} (h : ¬ Concerns id e) : standingAfter id held e = held := by
  unfold standingAfter
  split
  · exact if_neg h
  · exact if_neg h
  · rfl

/-- After what concerns a reservation its hold stands if it was just added. -/
theorem standingAfter_eq_some_iff {id : ReservationId} {held : Option Hold} {e : Exchange calls}
    {h : Hold} (he : Concerns id e) :
    standingAfter id held e = some h ↔ e = ⟨.insertHold h, true⟩ ∧ h.id = id := by
  unfold Concerns at he
  split at he
  · next r =>
    simp only [standingAfter, if_pos he, Option.some.injEq]
    constructor
    · rintro rfl
      exact ⟨rfl, he⟩
    · rintro ⟨heq, -⟩
      cases heq
      rfl
  · next a r =>
    simp only [standingAfter, if_pos he, reduceCtorEq, false_iff]
    rintro ⟨heq, -⟩
    cases heq
  · exact he.elim

/-- The hold was added, and nothing has concerned its reservation since. -/
def Stands (log : List (Exchange calls)) (h : Hold) : Prop :=
  ∃ before after, log = before ++ ⟨.insertHold h, true⟩ :: after ∧ ∀ e ∈ after, ¬ Concerns h.id e

/-- After what concerns its reservation, a hold stands if it was just added. -/
theorem stands_append_of_concerns {log : List (Exchange calls)} {e : Exchange calls} {h : Hold}
    (he : Concerns h.id e) : Stands (log ++ [e]) h ↔ e = ⟨.insertHold h, true⟩ := by
  constructor
  · rintro ⟨before, after, heq, hafter⟩
    rcases concat_eq_append_cons heq with ⟨-, hlast⟩ | ⟨rest, rfl, -⟩
    · exact hlast
    · exact absurd he (hafter e (by simp))
  · rintro rfl
    exact ⟨log, [], rfl, by simp⟩

theorem stands_append_of_not_concerns {log : List (Exchange calls)} {e : Exchange calls} {h : Hold}
    (he : ¬ Concerns h.id e) : Stands (log ++ [e]) h ↔ Stands log h := by
  constructor
  · rintro ⟨before, after, heq, hafter⟩
    rcases concat_eq_append_cons heq with ⟨-, rfl⟩ | ⟨rest, rfl, hfront⟩
    · exact absurd rfl he
    · exact ⟨before, rest, hfront, fun d hd => hafter d (List.mem_append_left _ hd)⟩
  · rintro ⟨before, after, rfl, hafter⟩
    refine ⟨before, after ++ [e], by simp, fun d hd => ?_⟩
    rcases List.mem_append.1 hd with hd | hd
    · exact hafter d hd
    · exact List.mem_singleton.1 hd ▸ he

/-- The hold of a reservation that stands is the one that is left of all exchanges. -/
theorem standing?_eq_some_iff {id : ReservationId} {h : Hold} (log : List (Exchange calls)) :
    standing? id log = some h ↔ h.id = id ∧ Stands log h := by
  induction log using List.reverseRecOn with
  | nil => simp [Stands]
  | append_singleton log e ih =>
    rw [standing?_append]
    by_cases he : Concerns id e
    · rw [standingAfter_eq_some_iff he, and_comm]
      refine and_congr_right fun hid => ?_
      rw [stands_append_of_concerns (hid ▸ he)]
    · rw [standingAfter_of_not_concerns he, ih]
      refine and_congr_right fun hid => ?_
      rw [stands_append_of_not_concerns (hid ▸ he)]

end Stock

namespace Ledger

/-! ## Both places -/

/-- There are at most as many primary records as listed holds. -/
theorem Consistent.size_holds_le {l : Ledger} (c : l.Consistent) :
    l.holds.size ≤ l.index.size := by
  have hrecorded : ∀ h ∈ l.holds.values, h ∈ l.index.values := by
    intro h hh
    obtain ⟨⟨id, r⟩, hentry, rfl⟩ := List.mem_map.1 hh
    exact Table.mem_values (c.index_of_hold (Table.mem_toList_iff.1 hentry))
  have hnodup : l.holds.values.Nodup := by
    refine List.Nodup.map_on ?_ l.holds.nodup_toList
    rintro ⟨a, r⟩ ha ⟨b, r'⟩ hb (rfl : r = r')
    rw [← c.id_of_hold (Table.mem_toList_iff.1 ha), ← c.id_of_hold (Table.mem_toList_iff.1 hb)]
  have hlength := (hnodup.subperm hrecorded).length_le
  simpa [Table.values, Table.size] using hlength

/-- A reservation is not listed exactly if it has no entry at any deadline. -/
theorem Consistent.listed?_eq_none_iff_index {l : Ledger} (c : l.Consistent) {id : ReservationId} :
    l.listed? id = none ↔ ∀ t, l.index.get? ⟨t, id⟩ = none := by
  refine ⟨fun h => (c.unknown h).index, fun h => ?_⟩
  refine Option.eq_none_iff_forall_ne_some.2 fun r hr => ?_
  obtain ⟨rfl, hi⟩ := c.listed?_eq_some_iff.1 hr
  rw [Hold.expiry, h] at hi
  cases hi

@[simp] theorem index_getHold (l : Ledger) (now : Instant) (id : ReservationId) :
    (l.getHold now id).2.index = l.index := by
  unfold getHold
  split
  · split <;> rfl
  · rfl

/-- The holds that are listed and those that a call took are the holds that were listed and those
that the call added. -/
theorem Consistent.values_answer {l : Ledger} (c : l.Consistent) (now : Instant)
    (request : Stock.Call) :
    let e : Exchange Stock.calls := ⟨request, (Stock.answer now request l).1⟩
    (Stock.taken [e] ++ (Stock.answer now request l).2.index.values).Perm
      (Stock.added [e] ++ l.index.values) := by
  cases request with
  | insertHold h =>
    simp only [Stock.answer, insertHold_eq c]
    cases hfree : l.listed? h.id with
    | some _ => exact .refl _
    | none => exact Table.values_perm_insert h ((c.unknown hfree).index _)
  | takeHold id =>
    simp only [Stock.answer, takeHold_eq c, index_withoutHold c]
    cases hheld : l.listed? id with
    | some h => exact (Table.values_perm_erase (c.listed?_eq_some_iff.1 hheld).2).symm
    | none => exact .refl _
  | getHold id =>
    simp only [Stock.answer, index_getHold]
    exact .refl _
  | compareAndSet p revision available =>
    simp only [Stock.answer]
    rcases l.compareAndSet_result p revision available with h | ⟨n, h⟩ <;> rw [h] <;> exact .refl _
  | increment p q =>
    simp only [Stock.answer]
    rcases l.increment_result p q with h | ⟨n, h⟩ <;> rw [h] <;> exact .refl _
  | _ => exact .refl _

/-! ## Records and the clock -/

def working (l : Ledger) : Ledger := { l with incrementsFail := false }

/-- Calls do the same to the holds of a ledger whether increments fail or not. -/
theorem Consistent.answer_working {l : Ledger} (c : l.Consistent) (now : Instant)
    (request : Stock.Call) :
    let m := (Stock.answer now request l.working).2
    let m' := (Stock.answer now request l).2
    m'.holds = m.holds ∧ m'.index = m.index ∧ m'.deadlines = m.deadlines := by
  cases request with
  | insertHold h =>
    have c' : l.working.Consistent := c.of_eq rfl rfl rfl
    have hlisted : l.working.listed? h.id = l.listed? h.id := rfl
    simp only [Stock.answer, insertHold_eq c, insertHold_eq c', hlisted]
    cases l.listed? h.id <;> exact ⟨rfl, rfl, rfl⟩
  | getHold id =>
    simp only [Stock.answer, Ledger.getHold, working]
    cases l.holds.get? id with
    | none => exact ⟨rfl, rfl, rfl⟩
    | some h =>
      dsimp only
      split_ifs <;> exact ⟨rfl, rfl, rfl⟩
  | compareAndSet p revision available =>
    simp only [Stock.answer]
    rcases l.compareAndSet_result p revision available with h | ⟨n, h⟩ <;>
      rcases l.working.compareAndSet_result p revision available with h' | ⟨n', h'⟩ <;>
      rw [h, h'] <;> exact ⟨rfl, rfl, rfl⟩
  | increment p q =>
    simp only [Stock.answer]
    rcases l.increment_result p q with h | ⟨n, h⟩ <;>
      rcases l.working.increment_result p q with h' | ⟨n', h'⟩ <;>
      rw [h, h'] <;> exact ⟨rfl, rfl, rfl⟩
  | _ => exact ⟨rfl, rfl, rfl⟩

end Ledger

/-! ## Runs -/

namespace Stock
namespace Site

variable {s : Site} {trace : List (Exchange calls)}

/-- The two places of each hold agree, and have the holds that the exchanges tell of. -/
structure Traced (s : Site) (trace : List (Exchange calls)) : Prop where
  consistent : s.ledger.Consistent
  listed : ∀ id, s.ledger.listed? id = standing? id trace
  balance : (added trace).Perm (taken trace ++ s.ledger.index.values)

theorem traced_init (start : Instant) : Traced ⟨start, {}⟩ [] where
  consistent := Ledger.consistent_of_empty rfl rfl rfl
  listed _ := rfl
  balance := .refl _

/-- A step adds and takes what its exchange says. -/
theorem Traced.step (h : s.Traced trace) (x : Step) :
    (s.step x).Traced (trace ++ s.exchanged x) := by
  have silent : ∀ {s' : Site}, s'.ledger.Consistent →
      (∀ id, s'.ledger.listed? id = s.ledger.listed? id) → s'.ledger.index = s.ledger.index →
      s'.Traced (trace ++ []) := by
    intro s' c hlisted hindex
    rw [List.append_nil]
    exact ⟨c, fun id => (hlisted id).trans (h.listed id), hindex ▸ h.balance⟩
  cases x with
  | call request =>
    refine ⟨h.consistent.answer s.clock request, fun id => ?_, ?_⟩
    · rw [exchanged, standing?_append, ← h.listed id]
      exact Ledger.listed?_answer h.consistent s.clock request id
    · have hcall := h.consistent.values_answer s.clock request
      simp only [exchanged, added_append, taken_append]
      refine (h.balance.append_right _).trans ?_
      rw [List.append_assoc, List.append_assoc]
      exact (List.perm_append_comm.trans hcall.symm).append_left _
  | change c =>
    exact silent (h.consistent.change c) (fun id => Ledger.listed?_change s c id)
      (by cases c <;> rfl)
  | setStock p available => exact silent (h.consistent.of_eq rfl rfl rfl) (fun _ => rfl) rfl
  | failIncrements fails => exact silent (h.consistent.of_eq rfl rfl rfl) (fun _ => rfl) rfl

theorem Traced.follow (h : s.Traced trace) (steps : List Step) :
    (s.follow steps).Traced (trace ++ s.log steps) := by
  induction steps generalizing s trace with
  | nil =>
    rw [log, List.append_nil]
    exact h
  | cons x xs ih =>
    rw [log, ← List.append_assoc]
    exact ih (h.step x)

/-- A step that does not set the clock back keeps the records of holds whose deadline is to come. -/
theorem upToDate_step (u : s.ledger.working.UpToDate s.clock) {x : Step}
    (h : s.clock ≤ (s.step x).clock) :
    (s.step x).ledger.working.UpToDate (s.step x).clock := by
  cases x with
  | call request =>
    have c : s.ledger.Consistent := u.consistent.of_eq rfl rfl rfl
    obtain ⟨hholds, hindex, hdeadlines⟩ := c.answer_working s.clock request
    have hanswer := u.answer request
    exact hanswer.of_eq hholds hindex hdeadlines hanswer.increments.symm
  | change c =>
    cases c with
    | setClock now => exact u.mono h
    | evict => exact u.keepUp (s := ⟨s.clock, s.ledger.working⟩) (.change .evict)
    | _ => exact u.of_eq rfl rfl rfl rfl
  | setStock p available => exact u.of_eq rfl rfl rfl rfl
  | failIncrements fails => exact u.of_eq rfl rfl rfl rfl

theorem upToDate_follow (u : s.ledger.working.UpToDate s.clock) {steps : List Step}
    (h : s.Onwards steps) :
    (s.follow steps).ledger.working.UpToDate (s.follow steps).clock := by
  induction steps generalizing s with
  | nil => exact u
  | cons x xs ih => exact ih (upToDate_step u h.1) h.2

end Site

/--
**The two places of a hold agree after any calls.**

A ledger begins empty. Then calls are made on it in any order, at instants of a clock that may be
set forth and back, and counters are set, stores open and close, records are evicted, and both
switches are thrown. A reservation has a deadline exactly if it is listed there, it is listed at one
deadline only, and what is listed is a hold of this reservation with this deadline. Each primary
record repeats the listed hold, so there are no more of them than entries in the list.

A hold is added exactly if its reservation has no entry. What a call takes is the hold that was
added for the reservation, if nothing has been added or taken for it since. So each hold that was
added is taken once or still listed. As long as the clock does not go back, only holds whose
deadline has passed are listed without a primary record.
-/
theorem places_agree_after_calls (start : Instant) (steps : List Step) :
    let site : Site := ⟨start, {}⟩
    let log := site.log steps
    let now := (site.follow steps).clock
    let l := (site.follow steps).ledger
    (∀ id t, l.deadlines.get? id = some t ↔ ∃ h, l.index.get? ⟨t, id⟩ = some h) ∧
    (∀ id t t' h h', l.index.get? ⟨t, id⟩ = some h → l.index.get? ⟨t', id⟩ = some h' → t = t') ∧
    (∀ id t h, l.index.get? ⟨t, id⟩ = some h → h.id = id ∧ h.expiresAt = t) ∧
    (∀ id h, l.holds.get? id = some h → ∃ t, l.index.get? ⟨t, id⟩ = some h) ∧
    l.holds.size ≤ l.index.size ∧
    (∀ h, (l.insertHold h).1 = true ↔ ∀ t, l.index.get? ⟨t, h.id⟩ = none) ∧
    (∀ id h, (l.takeHold id).1 = some h ↔ h.id = id ∧ Stands log h) ∧
    (added log).Perm (taken log ++ l.index.values) ∧
    (site.Onwards steps → ∀ id t h, l.index.get? ⟨t, id⟩ = some h → l.holds.get? id = none →
      h.expiresAt ≤ now) := by
  intro site log now l
  have htraced : (site.follow steps).Traced ([] ++ log) := (Site.traced_init start).follow steps
  rw [List.nil_append] at htraced
  have c : l.Consistent := htraced.consistent
  refine ⟨fun id t => ⟨c.index_of_deadline, ?_⟩, fun id t t' h h' hh hh' => ?_, fun id t h hh => ?_,
    fun id h hh => ?_, c.size_holds_le, fun h => ?_, fun id h => ?_, htraced.balance, ?_⟩
  · rintro ⟨h, hh⟩
    exact c.deadline_of_index hh
  · exact Option.some.inj ((c.deadline_of_index hh).symm.trans (c.deadline_of_index hh'))
  · have hplace := c.expiry_eq hh
    exact ⟨congrArg Expiry.id hplace, congrArg Expiry.deadline hplace⟩
  · have hid := c.id_of_hold hh
    exact ⟨h.expiresAt, hid ▸ c.index_of_hold hh⟩
  · rw [Ledger.insertHold_eq c, ← c.listed?_eq_none_iff_index]
    cases l.listed? h.id <;> simp
  · rw [Ledger.takeHold_eq c, htraced.listed, standing?_eq_some_iff]
  · intro honwards id t h hh hgone
    have u : l.working.UpToDate now :=
      Site.upToDate_follow (.of_empty rfl rfl rfl rfl start) honwards
    have hid : h.id = id := congrArg Expiry.id (c.expiry_eq hh)
    by_contra hlive
    have hlisted : l.listed? id = some h :=
      c.listed?_eq_some_iff.2 ⟨hid, by rw [c.expiry_eq hh]; exact hh⟩
    have hrecord : l.holds.get? id = some h := u.recorded hlisted (Int.not_le.1 hlive)
    rw [hgone] at hrecord
    cases hrecord

/-- A hold of two widgets for a second. -/
def briefHold (id : String) : Hold :=
  ⟨⟨id⟩, ⟨"store"⟩, [⟨⟨"widget"⟩, 2⟩], .ofSecond 0, .ofSecond 1⟩

/-- Two holds are added. One of them is taken, and the other is looked up past its deadline. -/
def takenAndOverdue : List Step :=
  [.call (.insertHold (briefHold "taken")), .call (.insertHold (briefHold "overdue")),
    .call (.takeHold ⟨"taken"⟩), .change (.setClock (.ofSecond 2)), .call (.getHold ⟨"overdue"⟩)]

/-- The overdue hold is listed without a record. It can still be taken but not added again, and the
other way about for the hold that was taken. -/
theorem overdue_hold_is_listed :
    let site : Site := ⟨.ofSecond 0, {}⟩
    let l := (site.follow takenAndOverdue).ledger
    site.Onwards takenAndOverdue ∧
      l.index.get? (briefHold "overdue").expiry = some (briefHold "overdue") ∧
      l.holds.get? ⟨"overdue"⟩ = none ∧
      (briefHold "overdue").expiresAt ≤ (site.follow takenAndOverdue).clock ∧
      (l.takeHold ⟨"overdue"⟩).1 = some (briefHold "overdue") ∧
      (l.insertHold (briefHold "overdue")).1 = false ∧
      ¬ Stands (site.log takenAndOverdue) (briefHold "taken") ∧
      (l.insertHold (briefHold "taken")).1 = true := by
  intro site l
  obtain ⟨-, -, -, -, -, -, htake, -, hpassed⟩ :=
    places_agree_after_calls (.ofSecond 0) takenAndOverdue
  have honwards : site.Onwards takenAndOverdue := by decide +kernel
  have hlisted : l.index.get? ⟨.ofSecond 1, ⟨"overdue"⟩⟩ = some (briefHold "overdue") := by
    decide +kernel
  have hgone : l.holds.get? ⟨"overdue"⟩ = none := by decide +kernel
  -- At a higher transparency the ledger would be evaluated here.
  have hpast := by with_reducible exact hpassed honwards _ _ _ hlisted hgone
  refine ⟨honwards, hlisted, hgone, hpast, by decide +kernel, by decide +kernel, ?_,
    by decide +kernel⟩
  intro hstands
  have hnothing : (l.takeHold ⟨"taken"⟩).1 = none := by decide +kernel
  rw [(htake ⟨"taken"⟩ _).2 ⟨rfl, hstands⟩] at hnothing
  cases hnothing

end Stock
end Fulfilment
