import Fulfilment.Proofs.Stock.Quantity
import Fulfilment.Proofs.Text.Bytes
import Fulfilment.Stock.Reservation

/-!
# Merged lines are a canonical form

Which products a list of lines mentions, and how much of each it has, is all that merging keeps
(`SameTotals`). Empty lines count here: a product that is mentioned without a quantity has a line of
its own. Quantities are words, and a product whose sum does not fit its word would lose what is
above, so everything is said of lists that fit.
-/
namespace Fulfilment
namespace StockLine

variable {ls ms : List StockLine} {p : ProductId}

/-! ## Products and their totals -/

/-- Some line is of the product. -/
def Mentions (ls : List StockLine) (p : ProductId) : Prop := ∃ l ∈ ls, l.product = p

/-- The lists mention the same products, and each with the same exact quantity in all. -/
structure SameTotals (ls ms : List StockLine) : Prop where
  mentions : ∀ p, Mentions ls p ↔ Mentions ms p
  quantity : ∀ p, quantityOf p ls = quantityOf p ms

namespace SameTotals

theorem symm (h : SameTotals ls ms) : SameTotals ms ls :=
  ⟨fun p => (h.mentions p).symm, fun p => (h.quantity p).symm⟩

theorem trans {ns : List StockLine} (h : SameTotals ls ms) (h' : SameTotals ms ns) :
    SameTotals ls ns :=
  ⟨fun p => (h.mentions p).trans (h'.mentions p), fun p => (h.quantity p).trans (h'.quantity p)⟩

theorem of_perm (h : ls.Perm ms) : SameTotals ls ms where
  mentions p := exists_congr fun l => and_congr_left' h.mem_iff
  quantity p := by
    rw [quantityOf_eq_sum, quantityOf_eq_sum]
    exact (h.map _).sum_eq

/-- It does not matter whether a quantity stands in one line or in two. -/
theorem of_split (before after : List StockLine) {a b c : UInt32}
    (h : a.toNat = b.toNat + c.toNat) :
    SameTotals (before ++ ⟨p, a⟩ :: after) (before ++ ⟨p, b⟩ :: ⟨p, c⟩ :: after) where
  mentions q := by simp [Mentions, or_and_right, exists_or]
  quantity q := by
    simp only [quantityOf_append, quantityOf_cons]
    split <;> omega

theorem fits (h : SameTotals ls ms) (hfits : Fits ls) : Fits ms :=
  fun p => h.quantity p ▸ hfits p

end SameTotals

/-- The second list has the lines of the first in another order, and some of them split in two or
put together. -/
inductive Rearranges : List StockLine → List StockLine → Prop where
  | perm {ls ms : List StockLine} (h : ls.Perm ms) : Rearranges ls ms
  | split (before after : List StockLine) (p : ProductId) {a b c : UInt32}
      (h : a.toNat = b.toNat + c.toNat) :
      Rearranges (before ++ ⟨p, a⟩ :: after) (before ++ ⟨p, b⟩ :: ⟨p, c⟩ :: after)
  | symm {ls ms : List StockLine} (h : Rearranges ls ms) : Rearranges ms ls
  | trans {ls ms ns : List StockLine} (h : Rearranges ls ms) (h' : Rearranges ms ns) :
      Rearranges ls ns

theorem Rearranges.sameTotals (h : Rearranges ls ms) : SameTotals ls ms := by
  induction h with
  | perm h => exact .of_perm h
  | split before after p h => exact .of_split before after h
  | symm _ ih => exact ih.symm
  | trans _ _ ih ih' => exact ih.trans ih'

/-! ## Merged lines -/

theorem Fits.sameTotals_merge (h : Fits ls) : SameTotals (merge ls) ls :=
  ⟨fun _ => exists_mem_merge_iff, h.quantityOf_merge⟩

/-- Lines that fit are merged into the same lines exactly if they have the same totals. -/
theorem merge_eq_iff (hls : Fits ls) (hms : Fits ms) : merge ls = merge ms ↔ SameTotals ls ms := by
  constructor
  · intro h
    have hmerged := hls.sameTotals_merge
    rw [h] at hmerged
    exact hmerged.symm.trans hms.sameTotals_merge
  · exact fun h => merge_congr h.mentions h.quantity

theorem Fits.merge_merge (h : Fits ls) : merge (merge ls) = merge ls :=
  merge_congr h.sameTotals_merge.mentions h.sameTotals_merge.quantity

/-- A hold keeps stock for lines exactly if it has their totals at their store. -/
theorem holdsSame_iff {held : Hold} (hheld : Fits held.lines) (hms : Fits ms) (store : StoreId) :
    held.holdsSame store ms = true ↔ held.store = store ∧ SameTotals held.lines ms := by
  simp only [Hold.holdsSame, Bool.and_eq_true, decide_eq_true_eq, merge_eq_iff hheld hms]

/--
**Merging brings lines into a canonical form.**

Of lines that fit, each product that is mentioned gets one line with its exact quantity, in
ascending order of the bytes of names. Merging again changes nothing, and neither does it matter in
which order the lines were and how the quantity of a product was split into lines. Two lists are
merged into the same lines exactly if they mention the same products with the same totals. So a hold
keeps stock for such lines exactly if the stores and the totals are the same, and this is also when
asking for its reservation again, which hands over merged lines, is answered with the hold.
-/
theorem merge_is_canonical_form (h : Fits ls) :
    (merge ls).Pairwise (fun k l => Text.bytes k.product.text < Text.bytes l.product.text) ∧
    (∀ p, Mentions (merge ls) p ↔ Mentions ls p) ∧
    (∀ l ∈ merge ls, l.quantity.toNat = quantityOf l.product ls) ∧
    merge (merge ls) = merge ls ∧
    (∀ ms, Rearranges ls ms → merge ms = merge ls) ∧
    ∀ ms, Fits ms →
      (merge ls = merge ms ↔ SameTotals ls ms) ∧
      ∀ held : Hold, held.lines = ls → ∀ store,
        (held.holdsSame store ms = true ↔ held.store = store ∧ SameTotals ls ms) ∧
        (Reservation.replay held store (merge ms) = .ok held ↔
          held.store = store ∧ SameTotals ls ms) := by
  refine ⟨(pairwise_merge ls).imp ProductId.compare_eq_lt_iff.1, fun _ => exists_mem_merge_iff,
    fun l hl => ?_, h.merge_merge, fun ms hms => ?_, fun ms hms => ⟨merge_eq_iff h hms, ?_⟩⟩
  · rw [quantity_of_mem_merge hl, h.quantityOf_merge]
  · have htotals := hms.sameTotals
    exact ((merge_eq_iff h (htotals.fits h)).2 htotals).symm
  · rintro held rfl store
    have hsame := holdsSame_iff h hms store
    have hagain : held.holdsSame store (merge ms) = held.holdsSame store ms := by
      rw [Hold.holdsSame, hms.merge_merge, Hold.holdsSame]
    refine ⟨hsame, ?_⟩
    rw [← hsame, Reservation.replay, hagain]
    split <;> simp_all

/-- Widgets in one line and zippers in two. -/
def unmergedWidgets : List StockLine := [⟨⟨"zipper"⟩, 1⟩, ⟨⟨"widget"⟩, 2⟩, ⟨⟨"zipper"⟩, 3⟩]

/-- Lines of widgets and zippers are merged by product, and so are the same goods in other lines. A
hold of the ones answers a request for the others at its store. -/
theorem widgets_are_merged :
    let others : List StockLine := [⟨⟨"widget"⟩, 1⟩, ⟨⟨"zipper"⟩, 4⟩, ⟨⟨"widget"⟩, 1⟩]
    let held : Hold := ⟨⟨"first"⟩, ⟨"store"⟩, unmergedWidgets, .ofSecond 0, .ofSecond 1⟩
    Fits unmergedWidgets ∧ Fits others ∧
      merge unmergedWidgets = [⟨⟨"widget"⟩, 2⟩, ⟨⟨"zipper"⟩, 4⟩] ∧
      merge (merge unmergedWidgets) = merge unmergedWidgets ∧
      SameTotals unmergedWidgets others ∧ held.holdsSame ⟨"store"⟩ others = true := by
  intro others held
  have hfits : ∀ ls : List StockLine,
      (ls.map fun l => l.quantity.toNat).sum < 2 ^ 32 → Fits ls := by
    intro ls hsum p
    refine lt_of_le_of_lt ?_ hsum
    rw [quantityOf_eq_sum]
    exact List.sum_le_sum fun l _ => by split <;> omega
  have hwidgets : Fits unmergedWidgets := hfits _ (by decide)
  have hothers : Fits others := hfits _ (by decide)
  obtain ⟨-, -, -, hagain, -, hsame⟩ := merge_is_canonical_form hwidgets
  obtain ⟨hiff, hheld⟩ := hsame others hothers
  have htotals : SameTotals unmergedWidgets others := hiff.1 (by decide)
  exact ⟨hwidgets, hothers, by decide, hagain, htotals, ((hheld held rfl _).1).2 ⟨rfl, htotals⟩⟩

end StockLine
end Fulfilment
