import Fulfilment.Proofs.Stock.Alone

/-!
# What giving holds back comes to

Releasing some reservations one after the other, while increments succeed, ends in a ledger that
can be described at once (`Ledger.Returned`): their holds are gone from all places, the counters
have gained just what was in these holds, and all else is as before. It does not matter which of the
reservations had a hold, nor whether one is named twice.
-/
namespace Fulfilment

open Script

namespace Ledger

variable {l m n : Ledger} {ids more : List ReservationId} {id : ReservationId}

/-- The quantity of a product in the holds of some reservations. -/
def heldUnder (l : Ledger) (ids : List ReservationId) (p : ProductId) : Int :=
  l.index.total fun e h => if e.id ∈ ids then (StockLine.quantityOf p h.lines : Int) else 0

/-- The ledger `m` is `l` after the holds of some reservations were given back. -/
structure Returned (l m : Ledger) (ids : List ReservationId) : Prop where
  index : m.index = l.index.filter fun e _ => e.id ∉ ids
  holds : m.holds = l.holds.filter fun id _ => id ∉ ids
  deadlines : m.deadlines = l.deadlines.filter fun id _ => id ∉ ids
  stock : ∀ p, m.stockOf p = l.stockOf p + l.heldUnder ids p
  counted : ∀ e h, l.index.get? e = some h → e.id ∈ ids → ∀ line ∈ h.lines,
    (m.available? line.product).isSome = true
  untouched : ∀ p, (∀ e h, l.index.get? e = some h → e.id ∈ ids →
    ∀ line ∈ h.lines, line.product ≠ p) → m.level? p = l.level? p
  openStores : m.openStores = l.openStores
  forcedConflicts : m.forcedConflicts = l.forcedConflicts
  increments : m.incrementsFail = l.incrementsFail

/-- What is held under some reservations is what is held no more when they are gone. -/
theorem heldOf_eq_add_heldUnder (h : m.index = l.index.filter fun e _ => e.id ∉ ids)
    (p : ProductId) : l.heldOf p = m.heldOf p + l.heldUnder ids p := by
  have hsplit := Table.total_eq_filter_add
    (fun (_ : Expiry) (h : Hold) => (StockLine.quantityOf p h.lines : Int)) l.index
    fun e _ => e.id ∉ ids
  rw [heldOf, heldOf, heldUnder, h, hsplit]
  congr 2
  funext e h
  by_cases he : e.id ∈ ids <;> simp [he]

namespace Returned

theorem refl (l : Ledger) : l.Returned l [] where
  index := (Table.filter_eq_self (by simp)).symm
  holds := (Table.filter_eq_self (by simp)).symm
  deadlines := (Table.filter_eq_self (by simp)).symm
  stock p := by simp [heldUnder, Table.total]
  counted := by simp
  untouched _ _ := rfl
  openStores := rfl
  forcedConflicts := rfl
  increments := rfl

theorem known (h : l.Returned m ids) {p : ProductId} (hp : (l.available? p).isSome = true) :
    (m.available? p).isSome = true := by
  by_cases hheld : ∃ e r, l.index.get? e = some r ∧ e.id ∈ ids ∧ ∃ line ∈ r.lines, line.product = p
  · obtain ⟨e, r, he, hid, line, hline, rfl⟩ := hheld
    exact h.counted e r he hid line hline
  · have hlevel := h.untouched p fun e r he hid line hline hproduct =>
      hheld ⟨e, r, he, hid, line, hline, hproduct⟩
    rw [available?, hlevel]
    exact hp

/-- What is given back has room. -/
theorem hasRoom (h : l.Returned m ids) (hroom : l.HasRoom) : m.HasRoom := by
  intro p
  obtain ⟨hlow, hhigh⟩ := hroom p
  have hback : 0 ≤ l.heldUnder ids p :=
    Table.total_nonneg fun _ _ _ => by split <;> omega
  have hheld := heldOf_eq_add_heldUnder h.index p
  rw [h.stock]
  omega

/-- Giving some back and then some more is giving all of them back. -/
theorem trans (h : l.Returned m ids) (h' : m.Returned n more) : l.Returned n (ids ++ more) := by
  have both : ∀ {a : ReservationId},
      decide (a ∉ ids ++ more) = (decide (a ∉ ids) && decide (a ∉ more)) := fun {a} => by simp
  have hindex : n.index = l.index.filter fun e _ => e.id ∉ ids ++ more := by
    rw [h'.index, h.index, Table.filter_filter]
    simp only [both]
  have hentry : ∀ e r, l.index.get? e = some r → e.id ∉ ids → m.index.get? e = some r := by
    intro e r he hid
    rw [h.index, Table.get?_filter, he]
    simp [hid]
  have hearlier : ∀ e r, m.index.get? e = some r → l.index.get? e = some r := by
    intro e r he
    rw [h.index, Table.get?_filter, Option.filter_eq_some_iff] at he
    exact he.1
  refine ⟨hindex, ?_, ?_, fun p => ?_, fun e r he hid line hline => ?_, fun p hp => ?_, ?_, ?_, ?_⟩
  · rw [h'.holds, h.holds, Table.filter_filter]
    simp only [both]
  · rw [h'.deadlines, h.deadlines, Table.filter_filter]
    simp only [both]
  · have hfirst := heldOf_eq_add_heldUnder h.index p
    have hsecond := heldOf_eq_add_heldUnder h'.index p
    have hall := heldOf_eq_add_heldUnder hindex p
    rw [h'.stock, h.stock]
    omega
  · by_cases hfirst : e.id ∈ ids
    · exact h'.known (h.counted e r he hfirst line hline)
    · have hlater : e.id ∈ more := (List.mem_append.1 hid).resolve_left hfirst
      exact h'.counted e r (hentry e r he hfirst) hlater line hline
  · rw [h'.untouched p fun e r he hid => hp e r (hearlier e r he) (List.mem_append_right _ hid),
      h.untouched p fun e r he hid => hp e r he (List.mem_append_left _ hid)]
  · exact h'.openStores.trans h.openStores
  · exact h'.forcedConflicts.trans h.forcedConflicts
  · exact h'.increments.trans h.increments

end Returned

/-! ## Giving one hold back -/

theorem level?_deposit {ls : List StockLine} {p : ProductId} (h : ∀ line ∈ ls, line.product ≠ p) :
    (l.deposit ls).level? p = l.level? p := by
  induction ls generalizing l with
  | nil => rfl
  | cons line ls ih =>
    obtain ⟨hline, hls⟩ := List.forall_mem_cons.1 h
    rw [deposit, ih hls]
    exact Table.get?_insert_of_ne _ _ (Ne.symm hline)

/-- The products of lines that were given back are counted, and so are those counted before. -/
theorem isSome_available?_deposit_of {ls : List StockLine} {p : ProductId}
    (h : (l.available? p).isSome = true ∨ ∃ line ∈ ls, line.product = p) :
    ((l.deposit ls).available? p).isSome = true := by
  induction ls generalizing l with
  | nil => simpa [deposit] using h
  | cons line ls ih =>
    refine ih ?_
    rw [available?_write]
    by_cases hp : p = line.product
    · simp [hp]
    · simp only [hp, if_false]
      simpa [Ne.symm hp] using h

/-- The ledger after a reservation's hold was given back. -/
def released (l : Ledger) (id : ReservationId) : Ledger :=
  (l.withoutHold id).deposit (Reservation.heldLines l id)

/-- Giving the hold of one reservation back. -/
theorem returned_released (c : l.Consistent) (id : ReservationId) :
    l.Returned (l.released id) [id] := by
  have habove := deposit_above (l.withoutHold id) (Reservation.heldLines l id)
  have hindex : (l.withoutHold id).index = l.index.filter fun e _ => e.id ∉ [id] := by
    refine Table.ext_get? fun e => ?_
    rw [index_get?_withoutHold c, Table.get?_filter]
    cases l.index.get? e <;> by_cases he : e.id = id <;> simp [he, Option.filter]
  have hlines : ∀ e h, l.index.get? e = some h → e.id ∈ [id] →
      Reservation.heldLines l id = h.lines := by
    intro e h he hid
    have hplace := c.expiry_eq he
    subst hplace
    have hlisted : l.listed? id = some h :=
      c.listed?_eq_some_iff.2 ⟨List.mem_singleton.1 hid, he⟩
    rw [Reservation.heldLines, hlisted, Option.elim_some]
  have herase : ∀ {ν : Type} (t : Table ReservationId ν),
      t.erase id = t.filter fun a _ => a ∉ [id] := by
    intro ν t
    refine Table.ext_get? fun a => ?_
    simp only [Table.get?_erase, Table.get?_filter, Std.compare_eq_iff_eq]
    cases t.get? a <;> by_cases ha : a = id <;> simp [ha, Option.filter]
  refine ⟨habove.index.symm.trans hindex, habove.holds.symm.trans (herase l.holds),
    habove.deadlines.symm.trans (herase l.deadlines), fun p => ?_, fun e h he hid line hline => ?_,
    fun p hp => ?_, openStores_deposit _ _, forcedConflicts_deposit _ _,
    habove.increments.symm⟩
  · have hheld := heldOf_eq_add_heldUnder hindex p
    have hstock := habove.stock p
    have hsame : (l.withoutHold id).stockOf p = l.stockOf p := rfl
    have htaken : l.heldOf p = StockLine.quantityOf p (Reservation.heldLines l id) +
        (l.withoutHold id).heldOf p := by
      cases hl : l.listed? id with
      | none => simp [Reservation.heldLines, hl, heldOf_withoutHold_of_none c hl]
      | some h => simp [Reservation.heldLines, hl, heldOf_withoutHold c hl]
    rw [released, hstock, hsame]
    omega
  · exact isSome_available?_deposit_of (.inr ⟨line, (hlines e h he hid).symm ▸ hline, rfl⟩)
  · refine level?_deposit (l := l.withoutHold id) fun line hline => ?_
    cases hl : l.listed? id with
    | none => simp [Reservation.heldLines, hl] at hline
    | some h =>
      obtain ⟨rfl, hplace⟩ := c.listed?_eq_some_iff.1 hl
      rw [hlines _ h hplace (List.mem_singleton.2 rfl)] at hline
      exact hp _ h hplace (List.mem_singleton.2 rfl) line hline

theorem Consistent.released (c : l.Consistent) (id : ReservationId) :
    (l.released id).Consistent := by
  have habove := deposit_above (l.withoutHold id) (Reservation.heldLines l id)
  exact (consistent_withoutHold c id).of_eq habove.holds.symm habove.index.symm
    habove.deadlines.symm

/-! ## Giving several holds back -/

/-- The ledger after the holds of some reservations were given back in turn. -/
def releasedAll (l : Ledger) (ids : List ReservationId) : Ledger := ids.foldl released l

theorem Consistent.releasedAll (c : l.Consistent) (ids : List ReservationId) :
    (l.releasedAll ids).Consistent := by
  induction ids generalizing l with
  | nil => exact c
  | cons id ids ih => exact ih (c.released id)

/-- Giving the holds of several reservations back. -/
theorem returned_releasedAll (c : l.Consistent) (ids : List ReservationId) :
    l.Returned (l.releasedAll ids) ids := by
  induction ids generalizing l with
  | nil => exact .refl l
  | cons id ids ih => exact (returned_released c id).trans (ih (c.released id))

end Ledger

namespace Reservation

variable {l : Ledger} {now : Instant}

/-- Releasing gives the hold back, and says whether there was one. -/
theorem run_release (c : l.Consistent) (hinc : l.incrementsFail = false) (id : ReservationId) :
    (release id).run (Stock.answer now) l = (.ok (l.listed? id).isSome, l.released id) := by
  have htake : (Stock.takeHold id).run (Stock.answer now) l = (l.listed? id, l.withoutHold id) :=
    Ledger.takeHold_eq c id
  rw [release, run_bind, htake, Ledger.released, heldLines]
  cases hl : l.listed? id with
  | none => rfl
  | some h =>
    have hrestore : (restore h.lines).Yields (Stock.answer now) _ (l.withoutHold id) :=
      yields_restore h.lines hinc
    obtain ⟨hok, hdeposit⟩ := hrestore
    dsimp only
    rw [run_bind, hok, hdeposit]
    rfl

end Reservation
end Fulfilment
