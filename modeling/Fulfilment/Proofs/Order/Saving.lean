import Fulfilment.Order.Book
import Fulfilment.Proofs.Order.Attempts

/-!
# Saving orders

A book is two tables that are to be each other's inverse: the orders by id, and the ids by order
number. A save is a compare-and-set on the first, and `objection_eq_none_iff` lists the two cases in
which it goes through. As long as no update gives an order another number, each save that goes
through counts in the order's version and leaves the second table the inverse of the first
(`IsIndexed.store`). So it is after every run of saves, those included that fail
(`IsIndexed.after`).
-/
namespace Fulfilment
namespace OrderBook

variable {b : OrderBook} {o : Order} {saves : OrderId → Nat}

/-! ## One save -/

/-- There are two cases in which nothing is to be said against a save: the order is new and neither
its id nor its number is taken, or it is stored in the version that it was loaded with. -/
theorem objection_eq_none_iff :
    b.objection o = none ↔
      b.failing = false ∧
        ((b.get? o.id = none ∧ o.version = 0 ∧ b.numbers.get? o.number = none) ∨
          ∃ stored, b.get? o.id = some stored ∧ o.version ≠ 0 ∧ o.version = stored.version) := by
  unfold objection
  cases b.failing with
  | true => simp
  | false =>
    cases b.get? o.id with
    | none =>
      by_cases hnew : o.version = 0 <;>
        cases hnumber : b.numbers.get? o.number <;> simp [Table.contains, hnew, hnumber]
    | some stored =>
      by_cases hnew : o.version = 0
      · simp [hnew]
      · simp [hnew, eq_comm]

theorem save_eq_ok_iff {v : Int} {b' : OrderBook} :
    b.save o = (.ok v, b') ↔ b.objection o = none ∧ v = o.version + 1 ∧ b' = b.store o := by
  unfold save
  cases b.objection o <;> simp [eq_comm]

theorem save_eq_error_iff {e : BookError} {b' : OrderBook} :
    b.save o = (.error e, b') ↔ b.objection o = some e ∧ b' = b := by
  unfold save
  cases b.objection o <;> simp [eq_comm]

/-- Whether a save goes through depends on the objection to it. -/
theorem exists_fst_save_eq_ok_iff : (∃ v, (b.save o).1 = .ok v) ↔ b.objection o = none := by
  unfold save
  cases b.objection o <;> simp

/-! ## Runs -/

/-- What can be asked of a book: to save an order, and from then on to fail or not. -/
inductive Call where
  | save (o : Order)
  | failSaves (fails : Bool)

namespace Call

def perform (b : OrderBook) : Call → OrderBook
  | save o => (b.save o).2
  | failSaves fails => { b with failing := fails }

/-- The call is a save of this id that goes through. -/
def savesId (b : OrderBook) (id : OrderId) : Call → Bool
  | save o => o.id = id && (b.save o).1.isOk
  | failSaves _ => false

/-- If the call updates an order, it leaves it the number that it is stored with. -/
def KeepsNumber (b : OrderBook) : Call → Prop
  | save o => ∀ stored ∈ b.get? o.id, (b.save o).1.isOk = true → o.number = stored.number
  | failSaves _ => True

instance (b : OrderBook) : (c : Call) → Decidable (c.KeepsNumber b)
  | save o => inferInstanceAs (Decidable (∀ stored ∈ b.get? o.id,
      (b.save o).1.isOk = true → o.number = stored.number))
  | failSaves _ => inferInstanceAs (Decidable True)

end Call

/-- The book after some calls. -/
def after (b : OrderBook) : List Call → OrderBook
  | [] => b
  | c :: cs => (c.perform b).after cs

/-- How many saves of an id go through. -/
def savesOf (b : OrderBook) (id : OrderId) : List Call → Nat
  | [] => 0
  | c :: cs => (c.savesId b id).toNat + (c.perform b).savesOf id cs

/-- No update gives an order another number. -/
def KeepsNumbers (b : OrderBook) : List Call → Prop
  | [] => True
  | c :: cs => c.KeepsNumber b ∧ (c.perform b).KeepsNumbers cs

instance decidableKeepsNumbers (b : OrderBook) : (cs : List Call) → Decidable (b.KeepsNumbers cs)
  | [] => inferInstanceAs (Decidable True)
  | c :: cs =>
    have := decidableKeepsNumbers (c.perform b) cs
    inferInstanceAs (Decidable (c.KeepsNumber b ∧ (c.perform b).KeepsNumbers cs))

/-! ## The invariant -/

/-- The orders are stored under their ids, in versions that count their saves, and the numbers lead
back to them. -/
structure IsIndexed (b : OrderBook) (saves : OrderId → Nat) : Prop where
  filed : ∀ id o, b.get? id = some o → o.id = id ∧ o.version = saves id
  unsaved : ∀ id, b.get? id = none ↔ saves id = 0
  numbered : ∀ number id, b.numbers.get? number = some id ↔
    ∃ o, b.get? id = some o ∧ o.number = number

theorem isIndexed_empty : IsIndexed {} fun _ => 0 where
  filed _ _ h := by cases h
  unsaved _ := by simp [get?]
  numbered _ _ := by simp [get?]

theorem IsIndexed.numbers_eq_none_iff (h : b.IsIndexed saves) {number : OrderNumber} :
    b.numbers.get? number = none ↔ ∀ id x, b.get? id = some x → x.number ≠ number := by
  rw [Option.eq_none_iff_forall_ne_some]
  constructor
  · intro hnone id x hx hnumber
    exact hnone id ((h.numbered number id).2 ⟨x, hx, hnumber⟩)
  · intro hall id hid
    obtain ⟨x, hx, hnumber⟩ := (h.numbered number id).1 hid
    exact hall id x hx hnumber

theorem IsIndexed.id_unique (h : b.IsIndexed saves) {id id' : OrderId} {x x' : Order}
    (hx : b.get? id = some x) (hx' : b.get? id' = some x') (hnumber : x.number = x'.number) :
    id = id' := by
  have hid := (h.numbered x'.number id).2 ⟨x, hx, hnumber⟩
  rw [(h.numbered x'.number id').2 ⟨x', hx', rfl⟩] at hid
  exact (Option.some.inj hid).symm

/-- An order is saved in the version that counts the saves so far. -/
theorem IsIndexed.version_eq (h : b.IsIndexed saves) (hsaved : b.objection o = none) :
    o.version = saves o.id := by
  obtain ⟨-, ⟨hunknown, hversion, -⟩ | ⟨stored, hstored, -, hversion⟩⟩ :=
    objection_eq_none_iff.1 hsaved
  · rw [(h.unsaved o.id).1 hunknown]
    exact hversion
  · rw [hversion]
    exact (h.filed _ stored hstored).2

/-- An order that is saved has a number that no other order has. -/
theorem IsIndexed.number_free (h : b.IsIndexed saves) (hsaved : b.objection o = none)
    (hkeeps : ∀ stored, b.get? o.id = some stored → o.number = stored.number) {id : OrderId}
    {x : Order} (hx : b.get? id = some x) (hnumber : x.number = o.number) : id = o.id := by
  obtain ⟨-, ⟨-, -, hunused⟩ | ⟨stored, hstored, -, -⟩⟩ := objection_eq_none_iff.1 hsaved
  · exact absurd hnumber (h.numbers_eq_none_iff.1 hunused id x hx)
  · exact h.id_unique hx hstored (hnumber.trans (hkeeps stored hstored))

/-- A save that goes through keeps the book indexed. -/
theorem IsIndexed.store (h : b.IsIndexed saves) (hsaved : b.objection o = none)
    (hkeeps : ∀ stored, b.get? o.id = some stored → o.number = stored.number) :
    (b.store o).IsIndexed fun id => (decide (o.id = id)).toNat + saves id where
  filed id x hx := by
    rw [get?_store] at hx
    split at hx
    · next hid =>
      cases hx
      refine ⟨hid.symm, ?_⟩
      have hversion := h.version_eq hsaved
      simp only [hid, decide_true, Bool.toNat_true]
      omega
    · next hid =>
      rw [decide_eq_false fun heq => hid heq.symm, Bool.toNat_false, Nat.zero_add]
      exact h.filed id x hx
  unsaved id := by
    rw [get?_store]
    split
    · next hid => simp [hid]
    · next hid => simp [Ne.symm hid, h.unsaved id]
  numbered number id := by
    have hget : (b.store o).numbers.get? number =
        if number = o.number then some o.id else b.numbers.get? number := by
      simp only [OrderBook.store, Table.get?_insert, Std.compare_eq_iff_eq]
    rw [hget, get?_store]
    by_cases hnumber : number = o.number
    · subst hnumber
      rw [if_pos rfl, Option.some.injEq]
      constructor
      · rintro rfl
        exact ⟨_, if_pos rfl, rfl⟩
      · rintro ⟨x, hx, hnumber⟩
        split at hx
        · next hid => exact hid.symm
        · exact (h.number_free hsaved hkeeps hx hnumber).symm
    · rw [if_neg hnumber, h.numbered]
      split
      -- The order that was saved has kept the number that it had, which is not this one.
      · next hid =>
        subst hid
        constructor
        · rintro ⟨x, hx, rfl⟩
          exact absurd (hkeeps x hx).symm hnumber
        · rintro ⟨x, hx, rfl⟩
          cases hx
          exact absurd rfl hnumber
      · rfl

theorem IsIndexed.perform (h : b.IsIndexed saves) (c : Call) (hkeeps : c.KeepsNumber b) :
    (c.perform b).IsIndexed fun id => (c.savesId b id).toNat + saves id := by
  cases c with
  | failSaves fails =>
    simp only [Call.savesId, Bool.toNat_false, Nat.zero_add]
    exact ⟨h.filed, h.unsaved, h.numbered⟩
  | save o =>
    simp only [Call.perform, Call.savesId]
    cases hsaved : b.objection o with
    | none =>
      have hsave : b.save o = (.ok (o.version + 1), b.store o) :=
        save_eq_ok_iff.2 ⟨hsaved, rfl, rfl⟩
      simp only [hsave, Except.isOk, Except.toBool, Bool.and_true]
      exact h.store hsaved fun stored hstored => hkeeps stored hstored (by rw [hsave]; rfl)
    | some e =>
      have hsave : b.save o = (.error e, b) := save_eq_error_iff.2 ⟨hsaved, rfl⟩
      simpa only [hsave, Except.isOk, Except.toBool, Bool.and_false, Bool.toNat_false,
        Nat.zero_add] using h

theorem IsIndexed.after (h : b.IsIndexed saves) {cs : List Call} (hkeeps : b.KeepsNumbers cs) :
    (b.after cs).IsIndexed fun id => b.savesOf id cs + saves id := by
  induction cs generalizing b saves with
  | nil => simpa [OrderBook.after, savesOf] using h
  | cons c cs ih =>
    obtain ⟨hfirst, hrest⟩ := hkeeps
    have hafter := ih (h.perform c hfirst) hrest
    simpa only [OrderBook.after, savesOf, Nat.add_left_comm, Nat.add_assoc] using hafter

/-! ## Every run -/

/--
**Saving is compare-and-set.**

Whatever was asked of an empty book, as long as no update gave an order another number, which no
accepted action does: Each order is stored under its own id in a version that counts its saves, and
its number leads to it and to no other. A save goes through exactly if saving works and either the
order is new, with an id and a number that are not taken, or it is in the version that is stored.
Then the order is stored in its next version and all others stay, and otherwise nothing changes.
-/
theorem saving_is_compare_and_set {cs : List Call} (hkeeps : KeepsNumbers {} cs) :
    let b := after {} cs
    (∀ id x, b.get? id = some x → x.id = id ∧ x.version = savesOf {} id cs) ∧
    (∀ id, b.get? id = none ↔ savesOf {} id cs = 0) ∧
    (∀ number id, b.numbers.get? number = some id ↔
      ∃ x, b.get? id = some x ∧ x.number = number) ∧
    (∀ id id' x x', b.get? id = some x → b.get? id' = some x' → x.number = x'.number →
      id = id') ∧
    (∀ o, (∃ v, (b.save o).1 = .ok v) ↔ b.failing = false ∧
      ((b.get? o.id = none ∧ o.version = 0 ∧ ∀ id x, b.get? id = some x → x.number ≠ o.number) ∨
        ∃ stored, b.get? o.id = some stored ∧ o.version ≠ 0 ∧ o.version = stored.version)) ∧
    (∀ o v b', b.save o = (.ok v, b') → v = o.version + 1 ∧
      b'.get? o.id = some { o with version := v } ∧ ∀ id, id ≠ o.id → b'.get? id = b.get? id) ∧
    (∀ o e b', b.save o = (.error e, b') → b' = b) ∧
    ∀ id x action now next t, b.get? id = some x → x.transition action now = .ok (next, t) →
      next.id = id ∧ next.number = x.number ∧ next.version = x.version := by
  intro b
  have h : b.IsIndexed fun id => savesOf {} id cs := isIndexed_empty.after hkeeps
  refine ⟨h.filed, h.unsaved, h.numbered, fun _ _ _ _ hx hx' => h.id_unique hx hx', fun o => ?_,
    fun o v b' hsave => ?_, fun o e b' hsave => (save_eq_error_iff.1 hsave).2,
    fun id x action now next t hx ht => ?_⟩
  · rw [exists_fst_save_eq_ok_iff, objection_eq_none_iff, h.numbers_eq_none_iff]
  · obtain ⟨-, rfl, rfl⟩ := save_eq_ok_iff.1 hsave
    exact ⟨rfl, by rw [get?_store, if_pos rfl], fun id hid => by rw [get?_store, if_neg hid]⟩
  · have hsame := Order.samePlacement_of_transition ht
    exact ⟨hsame.id.trans (h.filed id x hx).1, hsame.number, Order.version_of_transition ht⟩

def placedLamp : Order := .ofRequest Order.lampRequest (.ofSecond 0)

/-- The same lamp in another order. -/
def otherLamp : Order :=
  { placedLamp with id := ⟨.ofNat 3⟩, number := ⟨"ORD-19700101-LAMP01"⟩ }

/-- The lamp is saved and confirmed. Then its writer is late, its id is taken, its number is taken,
and saving fails for a while. -/
def lampSaves : List Call :=
  [.save placedLamp, .save { placedLamp with version := 1, status := .confirmed },
    .save { placedLamp with version := 1, status := .cancelled }, .save placedLamp,
    .save { otherLamp with number := placedLamp.number }, .failSaves true, .save otherLamp,
    .failSaves false, .save otherLamp]

/-- The first order is stored in its second version and the second in its first. From there it can
be saved, but its number cannot be used again. -/
theorem lamps_are_saved :
    let b := after {} lampSaves
    KeepsNumbers {} lampSaves ∧
      (∃ x, b.get? placedLamp.id = some x ∧ x.version = 2) ∧
      b.get? otherLamp.id = some { otherLamp with version := 1 } ∧
      b.numbers.get? otherLamp.number = some otherLamp.id ∧
      (∃ v, (b.save { otherLamp with version := 1 }).1 = .ok v) ∧
      ¬ ∃ v, (b.save { otherLamp with id := ⟨.ofNat 4⟩ }).1 = .ok v := by
  have hkeeps : KeepsNumbers {} lampSaves := by decide +kernel
  have hcount : savesOf {} placedLamp.id lampSaves = 2 := by decide +kernel
  have hother : (after {} lampSaves).get? otherLamp.id = some { otherLamp with version := 1 } := by
    decide +kernel
  obtain ⟨hfiled, hunsaved, hnumbers, -, hsaves, -⟩ := saving_is_compare_and_set hkeeps
  have hknown : (after {} lampSaves).get? placedLamp.id ≠ none := by
    rw [Ne, hunsaved, hcount]
    decide
  obtain ⟨x, hx⟩ := Option.ne_none_iff_exists'.1 hknown
  refine ⟨hkeeps, ⟨x, hx, ?_⟩, hother, (hnumbers _ _).2 ⟨_, hother, rfl⟩, ?_, ?_⟩
  · rw [(hfiled _ x hx).2, hcount]
    rfl
  · exact (hsaves _).2 ⟨by decide +kernel, .inr ⟨_, hother, by decide, rfl⟩⟩
  · rw [hsaves]
    rintro ⟨-, ⟨-, -, hunused⟩ | ⟨stored, -, hversion, -⟩⟩
    · exact hunused _ _ hother rfl
    · exact hversion rfl

end OrderBook
end Fulfilment
