import Fulfilment.Proofs.Stock.Quantity
import Fulfilment.Stock.Calls
import Mathlib.Data.List.TakeWhile

/-!
# The two places of a hold

A hold is listed by its deadline, and a reservation that is listed has one deadline. The primary
records repeat part of that list. A ledger on which this is so is `Consistent`, and every call on
holds keeps it so. Of a consistent ledger only the listed hold of each reservation matters
(`Ledger.listed?`), and the quantities held are those of the list (`Ledger.heldOf`).
-/
namespace Fulfilment
namespace Ledger

/-- The hold that the list by deadline has for a reservation. -/
def listed? (l : Ledger) (id : ReservationId) : Option Hold :=
  (l.deadlines.get? id).bind fun deadline => l.index.get? ⟨deadline, id⟩

/-- The quantity of a product in all listed holds. -/
def heldOf (l : Ledger) (p : ProductId) : Int :=
  l.index.total fun _ h => (StockLine.quantityOf p h.lines : Int)

/-- The counters fit 64-bit words, with room for all that is held besides. -/
def HasRoom (l : Ledger) : Prop :=
  ∀ p, -9223372036854775808 ≤ l.stockOf p ∧ l.stockOf p + l.heldOf p ≤ 9223372036854775807

/-- The list by deadline, the deadlines of reservations and the primary records agree. -/
structure Consistent (l : Ledger) : Prop where
  expiry_eq : ∀ {e h}, l.index.get? e = some h → h.expiry = e
  deadline_of_index : ∀ {e h}, l.index.get? e = some h → l.deadlines.get? e.id = some e.deadline
  index_of_deadline : ∀ {id t}, l.deadlines.get? id = some t → ∃ h, l.index.get? ⟨t, id⟩ = some h
  id_of_hold : ∀ {id h}, l.holds.get? id = some h → h.id = id
  index_of_hold : ∀ {id h}, l.holds.get? id = some h → l.index.get? h.expiry = some h

theorem consistent_of_empty {l : Ledger} (hh : l.holds = ∅) (hi : l.index = ∅)
    (hd : l.deadlines = ∅) : l.Consistent := by
  constructor <;> simp [hh, hi, hd]

theorem heldOf_eq_zero {l : Ledger} (hi : l.index = ∅) (p : ProductId) : l.heldOf p = 0 := by
  rw [heldOf, hi, Table.total_empty]

theorem heldOf_nonneg (l : Ledger) (p : ProductId) : 0 ≤ l.heldOf p :=
  Table.total_nonneg fun _ _ _ => Int.natCast_nonneg _

namespace Consistent

variable {l : Ledger}

/-- A reservation's listed hold is the one that stands at its place. -/
theorem listed?_eq_some_iff (c : l.Consistent) {id : ReservationId} {h : Hold} :
    l.listed? id = some h ↔ h.id = id ∧ l.index.get? h.expiry = some h := by
  simp only [listed?, Option.bind_eq_some_iff]
  constructor
  · rintro ⟨t, -, hi⟩
    have he := c.expiry_eq hi
    exact ⟨congrArg Expiry.id he, he ▸ hi⟩
  · rintro ⟨rfl, hi⟩
    exact ⟨h.expiresAt, c.deadline_of_index hi, hi⟩

/-- A reservation is listed exactly if it has a deadline. -/
theorem listed?_eq_none_iff (c : l.Consistent) {id : ReservationId} :
    l.listed? id = none ↔ l.deadlines.get? id = none := by
  cases hd : l.deadlines.get? id with
  | none => simp [listed?, hd]
  | some t =>
    obtain ⟨h, hi⟩ := c.index_of_deadline hd
    simp [listed?, hd, hi]

/-- A primary record repeats the listed hold. -/
theorem listed?_of_hold (c : l.Consistent) {id : ReservationId} {h : Hold}
    (hh : l.holds.get? id = some h) : l.listed? id = some h :=
  c.listed?_eq_some_iff.2 ⟨c.id_of_hold hh, c.index_of_hold hh⟩

theorem of_holds (c : l.Consistent) {holds : Table ReservationId Hold}
    (h : ∀ {id r}, holds.get? id = some r → l.holds.get? id = some r) :
    Consistent { l with holds } where
  expiry_eq := c.expiry_eq
  deadline_of_index := c.deadline_of_index
  index_of_deadline := c.index_of_deadline
  id_of_hold hh := c.id_of_hold (h hh)
  index_of_hold hh := c.index_of_hold (h hh)

theorem evict (c : l.Consistent) (now : Instant) : (l.evict now).2.Consistent := by
  refine c.of_holds fun {id r} hr => ?_
  rw [Table.get?_filter, Option.filter_eq_some_iff] at hr
  exact hr.1

theorem of_eq (c : l.Consistent) {m : Ledger} (hh : m.holds = l.holds) (hi : m.index = l.index)
    (hd : m.deadlines = l.deadlines) : m.Consistent := by
  constructor <;> simp only [hh, hi, hd]
  exacts [c.expiry_eq, c.deadline_of_index, c.index_of_deadline, c.id_of_hold, c.index_of_hold]

end Consistent

/-! ## Unknown reservations -/

/-- The reservation has no hold in either place. -/
structure Unknown (l : Ledger) (id : ReservationId) : Prop where
  holds : l.holds.get? id = none
  deadlines : l.deadlines.get? id = none
  index : ∀ t, l.index.get? ⟨t, id⟩ = none

/-- In a consistent ledger the reservations that are not listed are unknown. -/
theorem Consistent.unknown {l : Ledger} (c : l.Consistent) {id : ReservationId}
    (hl : l.listed? id = none) : l.Unknown id where
  holds := by
    refine Option.eq_none_iff_forall_ne_some.2 fun h hh => ?_
    rw [c.listed?_of_hold hh] at hl
    cases hl
  deadlines := c.listed?_eq_none_iff.1 hl
  index t := by
    refine Option.eq_none_iff_forall_ne_some.2 fun h hi => ?_
    have hd := c.deadline_of_index hi
    rw [c.listed?_eq_none_iff.1 hl] at hd
    cases hd

theorem Unknown.of_eq {l m : Ledger} {id : ReservationId} (u : l.Unknown id)
    (hh : m.holds = l.holds) (hi : m.index = l.index) (hd : m.deadlines = l.deadlines) :
    m.Unknown id := by
  constructor <;> simp only [hh, hi, hd]
  exacts [u.holds, u.deadlines, u.index]

theorem getHold_of_unknown {l : Ledger} {id : ReservationId} (u : l.Unknown id) (now : Instant) :
    l.getHold now id = (none, l) := by
  rw [getHold, u.holds]

/-! ## Adding holds -/

/-- The ledger with a hold added in both places. -/
def withHold (l : Ledger) (h : Hold) : Ledger :=
  { l with
    holds := l.holds.insert h.id h
    index := l.index.insert h.expiry h
    deadlines := l.deadlines.insert h.id h.expiresAt }

theorem insertHold_of_unknown {l : Ledger} {h : Hold} (u : l.Unknown h.id) :
    l.insertHold h = (true, l.withHold h) := by
  simp [insertHold, Table.contains, u.holds, u.deadlines, withHold]

/-- A hold is added exactly if its reservation is not listed. -/
theorem insertHold_eq {l : Ledger} (c : l.Consistent) (h : Hold) :
    l.insertHold h = if (l.listed? h.id).isSome then (false, l) else (true, l.withHold h) := by
  cases hl : l.listed? h.id with
  | none => exact insertHold_of_unknown (c.unknown hl)
  | some r =>
    have hd : (l.deadlines.get? h.id).isSome := by
      rw [Option.isSome_iff_ne_none]
      intro hd
      rw [c.listed?_eq_none_iff.2 hd] at hl
      cases hl
    simp [insertHold, Table.contains, hd]

section WithHold

variable {l : Ledger} {h : Hold}

/-- Adding a hold for a reservation that is not listed keeps the ledger consistent. -/
theorem consistent_withHold (c : l.Consistent) (hl : l.listed? h.id = none) :
    (l.withHold h).Consistent := by
  have hother : ∀ {e r}, l.index.get? e = some r → e ≠ h.expiry := by
    rintro e r he rfl
    rw [Hold.expiry, (c.unknown hl).index] at he
    cases he
  constructor <;> simp only [withHold]
  · intro e r he
    by_cases heq : e = h.expiry
    · subst heq
      rw [Table.get?_insert_self] at he
      cases he
      rfl
    · rw [Table.get?_insert_of_ne _ _ heq] at he
      exact c.expiry_eq he
  · intro e r he
    by_cases heq : e = h.expiry
    · subst heq
      exact Table.get?_insert_self ..
    · rw [Table.get?_insert_of_ne _ _ heq] at he
      have hid : e.id ≠ h.id := fun hid => by
        have hd := c.deadline_of_index he
        rw [hid, (c.unknown hl).deadlines] at hd
        cases hd
      rw [Table.get?_insert_of_ne _ _ hid, c.deadline_of_index he]
  · intro id t hd
    by_cases hid : id = h.id
    · subst hid
      rw [Table.get?_insert_self] at hd
      cases hd
      exact ⟨h, Table.get?_insert_self ..⟩
    · rw [Table.get?_insert_of_ne _ _ hid] at hd
      obtain ⟨r, hr⟩ := c.index_of_deadline hd
      exact ⟨r, by rw [Table.get?_insert_of_ne _ _ (hother hr), hr]⟩
  · intro id r hr
    by_cases hid : id = h.id
    · subst hid
      rw [Table.get?_insert_self] at hr
      cases hr
      rfl
    · rw [Table.get?_insert_of_ne _ _ hid] at hr
      exact c.id_of_hold hr
  · intro id r hr
    by_cases hid : id = h.id
    · subst hid
      rw [Table.get?_insert_self] at hr
      cases hr
      exact Table.get?_insert_self ..
    · rw [Table.get?_insert_of_ne _ _ hid] at hr
      have hi := c.index_of_hold hr
      rw [Table.get?_insert_of_ne _ _ (hother hi), hi]

theorem listed?_withHold (c : l.Consistent) (hl : l.listed? h.id = none) (id : ReservationId) :
    (l.withHold h).listed? id = if id = h.id then some h else l.listed? id := by
  split
  · next hid =>
    subst hid
    exact (consistent_withHold c hl).listed?_eq_some_iff.2 ⟨rfl, Table.get?_insert_self ..⟩
  · next hid =>
    have hne : ∀ t, (⟨t, id⟩ : Expiry) ≠ h.expiry := fun t he => hid (congrArg Expiry.id he)
    simp only [listed?, withHold, Table.get?_insert_of_ne _ _ hid,
      Table.get?_insert_of_ne _ _ (hne _)]

theorem heldOf_withHold (c : l.Consistent) (hl : l.listed? h.id = none) (p : ProductId) :
    (l.withHold h).heldOf p = StockLine.quantityOf p h.lines + l.heldOf p :=
  Table.total_insert_of_get?_eq_none _ _ ((c.unknown hl).index _)

end WithHold

/-! ## Taking holds -/

/-- The ledger without a reservation's hold in either place. -/
def withoutHold (l : Ledger) (id : ReservationId) : Ledger :=
  { l with
    holds := l.holds.erase id
    index :=
      match l.deadlines.get? id with
      | some deadline => l.index.erase ⟨deadline, id⟩
      | none => l.index
    deadlines := l.deadlines.erase id }

theorem takeHold_eq {l : Ledger} (c : l.Consistent) (id : ReservationId) :
    l.takeHold id = (l.listed? id, l.withoutHold id) := by
  have hor : (l.listed? id).or (l.holds.get? id) = l.listed? id := by
    cases hh : l.holds.get? id with
    | none => simp
    | some h => simp [c.listed?_of_hold hh]
  rw [← hor]
  rfl

/-- Taking a hold that was just added leaves the ledger as it was. -/
theorem takeHold_withHold {l : Ledger} {h : Hold} (u : l.Unknown h.id) :
    (l.withHold h).takeHold h.id = (some h, l) := by
  have hentry : (l.index.insert h.expiry h).get? ⟨h.expiresAt, h.id⟩ = some h :=
    Table.get?_insert_self ..
  have hholds : (l.holds.insert h.id h).erase h.id = l.holds :=
    (Table.erase_insert ..).trans (Table.erase_of_get?_eq_none u.holds)
  have hindex : (l.index.insert h.expiry h).erase ⟨h.expiresAt, h.id⟩ = l.index :=
    (Table.erase_insert ..).trans (Table.erase_of_get?_eq_none (u.index h.expiresAt))
  have hdeadlines : (l.deadlines.insert h.id h.expiresAt).erase h.id = l.deadlines :=
    (Table.erase_insert ..).trans (Table.erase_of_get?_eq_none u.deadlines)
  simp [takeHold, withHold, hentry, hholds, hindex, hdeadlines]

section WithoutHold

variable {l : Ledger} {id : ReservationId}

theorem index_withoutHold (c : l.Consistent) :
    (l.withoutHold id).index =
      match l.listed? id with
      | some h => l.index.erase h.expiry
      | none => l.index := by
  cases hl : l.listed? id with
  | none => simp [withoutHold, c.listed?_eq_none_iff.1 hl]
  | some h =>
    obtain ⟨rfl, hi⟩ := c.listed?_eq_some_iff.1 hl
    have hd : l.deadlines.get? h.id = some h.expiresAt := c.deadline_of_index hi
    simp [withoutHold, hd, Hold.expiry]

/-- The list loses the places of the reservation and no others. -/
theorem index_get?_withoutHold (c : l.Consistent) (e : Expiry) :
    (l.withoutHold id).index.get? e = if e.id = id then none else l.index.get? e := by
  have place : ∀ {r}, e.id = id → l.index.get? e = some r →
      l.deadlines.get? id = some e.deadline := by
    rintro r rfl hr
    exact c.deadline_of_index hr
  rw [index_withoutHold c]
  cases hl : l.listed? id with
  | none =>
    by_cases he : e.id = id
    · rw [if_pos he]
      refine Option.eq_none_iff_forall_ne_some.2 fun r hr => ?_
      have hd := place he hr
      rw [c.listed?_eq_none_iff.1 hl] at hd
      cases hd
    · rw [if_neg he]
  | some h =>
    obtain ⟨rfl, hi⟩ := c.listed?_eq_some_iff.1 hl
    by_cases heq : e = h.expiry
    · subst heq
      simp [Hold.expiry]
    · simp only [Table.get?_erase_of_ne _ heq]
      by_cases he : e.id = h.id
      · rw [if_pos he]
        refine Option.eq_none_iff_forall_ne_some.2 fun r hr => heq ?_
        have hd := place he hr
        have hd' : l.deadlines.get? h.id = some h.expiresAt := c.deadline_of_index hi
        rw [hd'] at hd
        cases e
        simp_all [Hold.expiry]
      · rw [if_neg he]

/-- Taking a hold keeps the ledger consistent. -/
theorem consistent_withoutHold (c : l.Consistent) (id : ReservationId) :
    (l.withoutHold id).Consistent := by
  have kept : ∀ {e r}, (l.withoutHold id).index.get? e = some r →
      e.id ≠ id ∧ l.index.get? e = some r := by
    intro e r he
    rw [index_get?_withoutHold c] at he
    split at he
    · cases he
    · exact ⟨‹_›, he⟩
  constructor
  · exact fun he => c.expiry_eq (kept he).2
  · intro e r he
    obtain ⟨hid, hi⟩ := kept he
    exact (Table.get?_erase_of_ne _ hid).trans (c.deadline_of_index hi)
  · intro a t hd
    have ha : a ≠ id := by
      rintro rfl
      simp [withoutHold] at hd
    obtain ⟨h, hi⟩ := c.index_of_deadline ((Table.get?_erase_of_ne _ ha).symm.trans hd)
    exact ⟨h, by rw [index_get?_withoutHold c, if_neg ha, hi]⟩
  · intro a h hh
    have ha : a ≠ id := by
      rintro rfl
      simp [withoutHold] at hh
    exact c.id_of_hold ((Table.get?_erase_of_ne _ ha).symm.trans hh)
  · intro a h hh
    have ha : a ≠ id := by
      rintro rfl
      simp [withoutHold] at hh
    have hh' : l.holds.get? a = some h := (Table.get?_erase_of_ne _ ha).symm.trans hh
    have hid : h.expiry.id ≠ id := by
      rw [Hold.expiry, c.id_of_hold hh']
      exact ha
    rw [index_get?_withoutHold c, if_neg hid, c.index_of_hold hh']

/-- A taken hold is listed no more, and all others are as before. -/
theorem listed?_withoutHold (c : l.Consistent) (a : ReservationId) :
    (l.withoutHold id).listed? a = if a = id then none else l.listed? a := by
  ext h
  rw [(consistent_withoutHold c id).listed?_eq_some_iff, index_get?_withoutHold c]
  by_cases ha : a = id
  · subst ha
    simp only [if_true, reduceCtorEq, iff_false, not_and]
    rintro rfl
    simp [Hold.expiry]
  · simp only [if_neg ha, c.listed?_eq_some_iff]
    refine and_congr_right fun hid => ?_
    rw [if_neg (by rw [Hold.expiry, hid]; exact ha)]

theorem heldOf_withoutHold (c : l.Consistent) {h : Hold} (hl : l.listed? id = some h)
    (p : ProductId) :
    l.heldOf p = StockLine.quantityOf p h.lines + (l.withoutHold id).heldOf p := by
  rw [heldOf, heldOf, index_withoutHold c, hl,
    Table.total_eq_add_erase _ (c.listed?_eq_some_iff.1 hl).2]

theorem heldOf_withoutHold_of_none (c : l.Consistent) (hl : l.listed? id = none) (p : ProductId) :
    (l.withoutHold id).heldOf p = l.heldOf p := by
  rw [heldOf, heldOf, index_withoutHold c, hl]

end WithoutHold

/-! ## Losing primary records -/

/-- The ledger without the primary record of a reservation. -/
def withoutRecord (l : Ledger) (id : ReservationId) : Ledger :=
  { l with holds := l.holds.erase id }

theorem Consistent.withoutRecord {l : Ledger} (c : l.Consistent) (id : ReservationId) :
    (l.withoutRecord id).Consistent := by
  refine c.of_holds fun {a r} hr => ?_
  by_cases ha : a = id
  · subst ha
    simp at hr
  · rwa [Table.get?_erase_of_ne _ ha] at hr

/-! ## Calls -/

section Calls

variable {l : Ledger}

/-- A scan lists holds that have expired. -/
theorem listed?_of_mem_expired (c : l.Consistent) {now : Instant} {limit : Nat}
    {id : ReservationId} (h : id ∈ l.expired now limit) :
    ∃ r, l.listed? id = some r ∧ r.expiresAt ≤ now := by
  obtain ⟨e, he, rfl⟩ := List.mem_map.1 h
  have he := List.mem_of_mem_take he
  have hdue : e.deadline ≤ now := by simpa using List.mem_takeWhile_imp he
  obtain ⟨⟨_, r⟩, hentry, rfl⟩ := List.mem_map.1 (List.takeWhile_subset _ he)
  have hget := Table.mem_toList_iff.1 hentry
  have hplace := c.expiry_eq hget
  subst hplace
  exact ⟨r, c.listed?_eq_some_iff.2 ⟨rfl, hget⟩, hdue⟩

@[simp] theorem listed?_getHold (l : Ledger) (now : Instant) (id a : ReservationId) :
    (l.getHold now id).2.listed? a = l.listed? a := by
  unfold getHold
  split
  · split <;> rfl
  · rfl

/-- A conditional write writes the counter, or counts as one of those that were made to fail. -/
theorem compareAndSet_result (l : Ledger) (p : ProductId) (revision : Nat) (available : Int) :
    (l.compareAndSet p revision available).2 = l.write p available ∨
      ∃ n, (l.compareAndSet p revision available).2 = { l with forcedConflicts := n } := by
  unfold compareAndSet
  split
  · exact .inr ⟨_, rfl⟩
  · split
    · split
      · exact .inl rfl
      · exact .inr ⟨l.forcedConflicts, rfl⟩
    · exact .inr ⟨l.forcedConflicts, rfl⟩

/-- An increment writes the counter or does nothing. -/
theorem increment_result (l : Ledger) (p : ProductId) (q : UInt32) :
    (l.increment p q).2 = l ∨ ∃ available, (l.increment p q).2 = l.write p available := by
  unfold increment
  split
  · exact .inl rfl
  · exact .inr ⟨_, rfl⟩

@[simp] theorem listed?_compareAndSet (l : Ledger) (p : ProductId) (revision : Nat)
    (available : Int) (a : ReservationId) :
    (l.compareAndSet p revision available).2.listed? a = l.listed? a := by
  rcases l.compareAndSet_result p revision available with h | ⟨n, h⟩ <;> rw [h] <;> rfl

@[simp] theorem listed?_increment (l : Ledger) (p : ProductId) (q : UInt32) (a : ReservationId) :
    (l.increment p q).2.listed? a = l.listed? a := by
  rcases l.increment_result p q with h | ⟨n, h⟩ <;> rw [h]
  rfl

namespace Consistent

theorem getHold (c : l.Consistent) (now : Instant) (id : ReservationId) :
    (l.getHold now id).2.Consistent := by
  unfold Ledger.getHold
  split
  · split
    · exact c
    · exact c.withoutRecord id
  · exact c

theorem insertHold (c : l.Consistent) (h : Hold) : (l.insertHold h).2.Consistent := by
  rw [insertHold_eq c]
  split
  · exact c
  · next hfree => exact consistent_withHold c (by simpa using hfree)

theorem answer (c : l.Consistent) (now : Instant) (request : Stock.Call) :
    (Stock.answer now request l).2.Consistent := by
  cases request with
  | insertHold h => exact c.insertHold h
  | getHold id => exact c.getHold now id
  | takeHold id =>
    rw [Stock.answer, takeHold_eq c]
    exact consistent_withoutHold c id
  | compareAndSet p revision available =>
    rw [Stock.answer]
    rcases l.compareAndSet_result p revision available with h | ⟨n, h⟩ <;> rw [h]
    · exact c.of_eq rfl rfl rfl
    · exact c.of_eq rfl rfl rfl
  | increment p q =>
    rw [Stock.answer]
    rcases l.increment_result p q with h | ⟨n, h⟩ <;> rw [h]
    · exact c
    · exact c.of_eq rfl rfl rfl
  | _ => exact c

end Consistent

end Calls

end Ledger
end Fulfilment
