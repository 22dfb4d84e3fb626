import Fulfilment.Proofs.TableTotal
import Fulfilment.Stock.Ledger

/-!
# Quantities of products

The stock of a product in its counter, and the exact quantity of a product in a list of lines.
Merging a list leaves one line for each product, whose quantity is the exact one as far as it fits
its word.
-/
namespace Fulfilment

/-- A product's stock. Unknown products have none. -/
def Ledger.stockOf (l : Ledger) (p : ProductId) : Int := (l.available? p).getD 0

theorem Ledger.stockOf_write (l : Ledger) (p q : ProductId) (available : Int) :
    (l.write p available).stockOf q = if q = p then available else l.stockOf q := by
  rw [stockOf, available?_write]
  split <;> rfl

namespace StockLine

/-- The exact quantity of every product fits the word that counts it. -/
def Fits (ls : List StockLine) : Prop := ∀ p, quantityOf p ls < 2 ^ 32

@[simp] theorem quantityOf_nil (p : ProductId) : quantityOf p [] = 0 := rfl

@[simp] theorem quantityOf_cons (p : ProductId) (l : StockLine) (ls : List StockLine) :
    quantityOf p (l :: ls) =
      (if l.product = p then l.quantity.toNat else 0) + quantityOf p ls := rfl

@[simp] theorem quantityOf_append (p : ProductId) (ls ms : List StockLine) :
    quantityOf p (ls ++ ms) = quantityOf p ls + quantityOf p ms := by
  induction ls with
  | nil => simp
  | cons l ls ih => rw [List.cons_append, quantityOf_cons, quantityOf_cons, ih, Nat.add_assoc]

theorem fits_singleton (l : StockLine) : Fits [l] := by
  intro p
  have hl := l.quantity.toNat_lt
  rw [quantityOf_cons, quantityOf_nil]
  split <;> omega

theorem quantityOf_eq_sum (p : ProductId) (ls : List StockLine) :
    quantityOf p ls = (ls.map fun l => if l.product = p then l.quantity.toNat else 0).sum := by
  induction ls with
  | nil => rfl
  | cons l ls ih => rw [quantityOf_cons, ih, List.map_cons, List.sum_cons]

/-! ## Merging -/

/-- Counting lines into a table adds each quantity to that of its product, modulo the word size. -/
theorem toNat_foldl_tally (p : ProductId) (t : Table ProductId UInt32) (ls : List StockLine) :
    (((ls.foldl (fun t l => t.insert l.product ((t.get? l.product).getD 0 + l.quantity)) t).get?
      p).getD 0).toNat = (((t.get? p).getD 0).toNat + quantityOf p ls) % 2 ^ 32 := by
  induction ls generalizing t with
  | nil => simp [Nat.mod_eq_of_lt (UInt32.toNat_lt _)]
  | cons l ls ih =>
    rw [List.foldl_cons, ih, quantityOf_cons]
    by_cases h : l.product = p
    · subst h
      simp only [Table.get?_insert_self, Option.getD_some, UInt32.toNat_add, if_true]
      omega
    · simp [Table.get?_insert_of_ne _ _ (Ne.symm h), h]

theorem toNat_tally (p : ProductId) (ls : List StockLine) :
    (((tally ls).get? p).getD 0).toNat = quantityOf p ls % 2 ^ 32 := by
  rw [tally, toNat_foldl_tally]
  simp

/-- Counting lines into a table gives an entry to every product that has a line, and to no other. -/
theorem isSome_get?_foldl_tally (p : ProductId) (t : Table ProductId UInt32) (ls : List StockLine) :
    ((ls.foldl (fun t l => t.insert l.product ((t.get? l.product).getD 0 + l.quantity)) t).get?
      p).isSome = true ↔ (t.get? p).isSome = true ∨ ∃ l ∈ ls, l.product = p := by
  induction ls generalizing t with
  | nil => simp
  | cons l ls ih =>
    rw [List.foldl_cons, ih]
    by_cases h : l.product = p
    · subst h
      simp
    · simp [Table.get?_insert_of_ne _ _ (Ne.symm h), h]

/-- The lines of a table have the quantities of its entries. -/
theorem quantityOf_toList (p : ProductId) (t : Table ProductId UInt32) :
    quantityOf p (t.toList.map fun e => ⟨e.1, e.2⟩) = ((t.get? p).getD 0).toNat := by
  have htotal : quantityOf p (t.toList.map fun e => ⟨e.1, e.2⟩) =
      Table.total (fun q n => if q = p then n.toNat else 0) t := by
    rw [quantityOf_eq_sum, List.map_map]
    rfl
  have hothers : ∀ s : Table ProductId UInt32, s.get? p = none →
      Table.total (fun q n => if q = p then n.toNat else 0) s = 0 := by
    intro s hs
    refine Table.total_eq_zero fun q n hq => if_neg fun h => ?_
    rw [h, hs] at hq
    cases hq
  cases h : t.get? p with
  | none => rw [htotal, hothers t h]; rfl
  | some n =>
    rw [htotal, Table.total_eq_add_erase _ h, hothers _ (Table.get?_erase_self t p)]
    simp

/-- Merged lines stand in ascending order of their products. -/
theorem pairwise_merge (ls : List StockLine) :
    (merge ls).Pairwise fun a b => compare a.product b.product = .lt :=
  List.pairwise_map.2 (tally ls).ascending

/-- A product has a merged line exactly if it has a line. -/
theorem exists_mem_merge_iff {p : ProductId} {ls : List StockLine} :
    (∃ line ∈ merge ls, line.product = p) ↔ ∃ line ∈ ls, line.product = p := by
  have hentry : (∃ line ∈ merge ls, line.product = p) ↔ ((tally ls).get? p).isSome = true := by
    rw [Option.isSome_iff_exists]
    constructor
    · rintro ⟨line, hline, rfl⟩
      obtain ⟨⟨q, n⟩, he, rfl⟩ := List.mem_map.1 hline
      exact ⟨n, Table.mem_toList_iff.1 he⟩
    · rintro ⟨n, hn⟩
      exact ⟨⟨p, n⟩, List.mem_map.2 ⟨(p, n), Table.mem_toList_iff.2 hn, rfl⟩, rfl⟩
  rw [hentry, tally, isSome_get?_foldl_tally]
  simp

/-- Merging keeps the quantity of every product modulo the word size. -/
theorem quantityOf_merge (p : ProductId) (ls : List StockLine) :
    quantityOf p (merge ls) = quantityOf p ls % 2 ^ 32 := by
  rw [merge, quantityOf_toList, toNat_tally]

theorem Fits.quantityOf_merge {ls : List StockLine} (h : Fits ls) (p : ProductId) :
    quantityOf p (merge ls) = quantityOf p ls := by
  rw [StockLine.quantityOf_merge, Nat.mod_eq_of_lt (h p)]

/-- Lists with the same products and the same quantities merge into the same lines. -/
theorem merge_congr {ls ms : List StockLine}
    (hproducts : ∀ p, (∃ l ∈ ls, l.product = p) ↔ ∃ l ∈ ms, l.product = p)
    (h : ∀ p, quantityOf p ls = quantityOf p ms) : merge ls = merge ms := by
  have htally : tally ls = tally ms := by
    refine Table.ext_get? fun p => ?_
    have hsome : ((tally ls).get? p).isSome = true ↔ ((tally ms).get? p).isSome = true := by
      simpa only [tally, isSome_get?_foldl_tally, Table.get?_empty, Option.isSome_none,
        Bool.false_eq_true, false_or] using hproducts p
    have hcount : (((tally ls).get? p).getD 0).toNat = (((tally ms).get? p).getD 0).toNat := by
      rw [toNat_tally, toNat_tally, h p]
    cases hl : (tally ls).get? p <;> cases hm : (tally ms).get? p <;>
      simp_all [UInt32.toNat_inj]
  rw [merge, merge, htally]

/-- A merged line has the whole quantity of its product. -/
theorem quantity_of_mem_merge {l : StockLine} {ls : List StockLine} (h : l ∈ merge ls) :
    l.quantity.toNat = quantityOf l.product (merge ls) := by
  obtain ⟨⟨p, n⟩, he, rfl⟩ := List.mem_map.1 h
  rw [merge, quantityOf_toList, Table.mem_toList_iff.1 he]
  rfl

end StockLine
end Fulfilment
