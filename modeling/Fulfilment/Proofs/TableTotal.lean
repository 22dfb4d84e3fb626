import Fulfilment.Table
import Mathlib.Algebra.BigOperators.Group.List.Basic
import Mathlib.Algebra.Order.BigOperators.Group.List
import Mathlib.Algebra.Order.Ring.Int

/-!
# Totals of tables

The total of a measure over the entries of a table, and how insertion and erasure change it. Both
are seen through `perm_erase`: a table is any one of its entries and the rest.
-/
namespace Fulfilment
namespace Table

variable {κ ν M : Type} [Ord κ] [AddCommMonoid M]

/-- The sum of a measure over all entries. -/
def total (f : κ → ν → M) (t : Table κ ν) : M := (t.toList.map fun e => f e.1 e.2).sum

@[simp] theorem total_empty (f : κ → ν → M) : total f (∅ : Table κ ν) = 0 := rfl

section Lawful

variable [Std.TransOrd κ] [Std.LawfulEqOrd κ]

omit [Std.LawfulEqOrd κ] in
theorem nodup_toList (t : Table κ ν) : t.toList.Nodup := by
  refine t.ascending.imp fun {a b} hab heq => ?_
  rw [heq, Std.ReflOrd.compare_self] at hab
  exact absurd hab (by decide)

omit [Std.TransOrd κ] in
theorem mem_keys_iff {t : Table κ ν} {k : κ} : k ∈ t.keys ↔ ∃ v, t.get? k = some v := by
  simp only [keys, List.mem_map, Prod.exists, exists_and_right, exists_eq_right, mem_toList_iff]

omit [Std.LawfulEqOrd κ] in
theorem nodup_keys (t : Table κ ν) : t.keys.Nodup := by
  refine List.pairwise_map.2 (t.ascending.imp fun {a b} hab heq => ?_)
  rw [heq, Std.ReflOrd.compare_self] at hab
  exact absurd hab (by decide)

omit [Std.TransOrd κ] [Std.LawfulEqOrd κ] in
theorem keys_filter (t : Table κ ν) (p : κ → Bool) :
    (t.filter fun k _ => p k).keys = t.keys.filter p := by
  rw [keys, keys, filter, List.filter_map]
  rfl

omit [Std.TransOrd κ] [Std.LawfulEqOrd κ] in
theorem values_filter (t : Table κ ν) (p : ν → Bool) :
    (t.filter fun _ => p).values = t.values.filter p := by
  rw [values, values, filter, List.filter_map]
  rfl

theorem erase_of_get?_eq_none {t : Table κ ν} {k : κ} (h : t.get? k = none) : t.erase k = t := by
  refine ext_get? fun a => ?_
  by_cases ha : a = k
  · rw [ha, get?_erase_self, h]
  · rw [get?_erase_of_ne t ha]

theorem erase_insert (t : Table κ ν) (k : κ) (v : ν) : (t.insert k v).erase k = t.erase k := by
  refine ext_get? fun a => ?_
  by_cases ha : a = k
  · rw [ha, get?_erase_self, get?_erase_self]
  · rw [get?_erase_of_ne _ ha, get?_erase_of_ne _ ha, get?_insert_of_ne _ _ ha]

theorem insert_of_get? {t : Table κ ν} {k : κ} {v : ν} (h : t.get? k = some v) :
    t.insert k v = t := by
  refine ext_get? fun a => ?_
  by_cases ha : a = k
  · rw [ha, get?_insert_self, h]
  · rw [get?_insert_of_ne _ _ ha]

theorem insert_insert (t : Table κ ν) (k : κ) (v w : ν) :
    (t.insert k v).insert k w = t.insert k w := by
  refine ext_get? fun a => ?_
  by_cases ha : a = k
  · rw [ha, get?_insert_self, get?_insert_self]
  · rw [get?_insert_of_ne _ _ ha, get?_insert_of_ne _ _ ha, get?_insert_of_ne _ _ ha]

/-- A table is any one of its entries and the rest. -/
theorem perm_erase {t : Table κ ν} {k : κ} {v : ν} (h : t.get? k = some v) :
    t.toList.Perm ((k, v) :: (t.erase k).toList) := by
  have hnot : (k, v) ∉ (t.erase k).toList := by simp [mem_toList_iff]
  refine (List.perm_ext_iff_of_nodup t.nodup_toList
    (List.nodup_cons.2 ⟨hnot, nodup_toList _⟩)).2 fun ⟨a, w⟩ => ?_
  simp only [List.mem_cons, Prod.mk.injEq, mem_toList_iff]
  by_cases ha : a = k
  · subst ha
    simp [h, eq_comm]
  · simp [ha, get?_erase_of_ne t ha]

/-- The values are any one of them and the rest. -/
theorem values_perm_erase {t : Table κ ν} {k : κ} {v : ν} (h : t.get? k = some v) :
    t.values.Perm (v :: (t.erase k).values) := (perm_erase h).map Prod.snd

theorem values_perm_insert {t : Table κ ν} {k : κ} (v : ν) (h : t.get? k = none) :
    (t.insert k v).values.Perm (v :: t.values) := by
  have hperm := values_perm_erase (get?_insert_self t k v)
  rwa [erase_insert, erase_of_get?_eq_none h] at hperm

/-- The total, with one entry set apart. -/
theorem total_eq_add_erase (f : κ → ν → M) {t : Table κ ν} {k : κ} {v : ν}
    (h : t.get? k = some v) : total f t = f k v + total f (t.erase k) := by
  have hperm := (perm_erase h).map fun e => f e.1 e.2
  rw [total, hperm.sum_eq, List.map_cons, List.sum_cons, total]

theorem total_insert (f : κ → ν → M) (t : Table κ ν) (k : κ) (v : ν) :
    total f (t.insert k v) = f k v + total f (t.erase k) := by
  rw [total_eq_add_erase f (get?_insert_self t k v), erase_insert]

theorem total_insert_of_get?_eq_none (f : κ → ν → M) {t : Table κ ν} {k : κ} (v : ν)
    (h : t.get? k = none) : total f (t.insert k v) = f k v + total f t := by
  rw [total_insert, erase_of_get?_eq_none h]

omit [Std.TransOrd κ] in
theorem total_congr {f g : κ → ν → M} {t : Table κ ν}
    (h : ∀ k v, t.get? k = some v → f k v = g k v) : total f t = total g t := by
  have hmap : (t.toList.map fun e => f e.1 e.2) = t.toList.map fun e => g e.1 e.2 :=
    List.map_congr_left fun e he => h e.1 e.2 (mem_toList_iff.1 he)
  rw [total, hmap, total]

/-- If only what a key stands for changes, by insertion or because it is measured otherwise, then
the total changes by the difference of the two. -/
theorem total_insert_add {f g : κ → ν → M} {t : Table κ ν} {k : κ} (v : ν)
    (h : ∀ a u, a ≠ k → t.get? a = some u → g a u = f a u) :
    total g (t.insert k v) + (t.get? k).elim 0 (f k) = total f t + g k v := by
  have hothers : total g (t.erase k) = total f (t.erase k) := by
    refine total_congr fun a u hu => ?_
    by_cases ha : a = k
    · rw [ha, get?_erase_self] at hu
      cases hu
    · exact h a u ha ((get?_erase_of_ne t ha).symm.trans hu)
  have hbefore : total f t = (t.get? k).elim 0 (f k) + total f (t.erase k) := by
    cases hk : t.get? k with
    | none => rw [erase_of_get?_eq_none hk, Option.elim_none, zero_add]
    | some u => rw [total_eq_add_erase f hk, Option.elim_some]
  rw [total_insert, hothers, hbefore, add_comm (g k v), add_assoc, add_comm (g k v), ← add_assoc,
    add_comm (total f (t.erase k))]

omit [Std.TransOrd κ] in
theorem total_eq_zero {f : κ → ν → M} {t : Table κ ν}
    (h : ∀ k v, t.get? k = some v → f k v = 0) : total f t = 0 := by
  refine List.sum_eq_zero fun x hx => ?_
  obtain ⟨e, he, rfl⟩ := List.mem_map.1 hx
  exact h e.1 e.2 (mem_toList_iff.1 he)

theorem filter_eq_self {t : Table κ ν} {p : κ → ν → Bool}
    (h : ∀ k v, t.get? k = some v → p k v = true) : t.filter p = t := by
  refine ext_get? fun k => ?_
  rw [get?_filter]
  cases hk : t.get? k with
  | none => rfl
  | some v => rw [Option.filter_some, if_pos (h k v hk)]

omit [Std.TransOrd κ] [Std.LawfulEqOrd κ] in
theorem filter_filter (t : Table κ ν) (p q : κ → ν → Bool) :
    (t.filter p).filter q = t.filter fun k v => p k v && q k v := by
  simp only [filter, List.filter_filter, Bool.and_comm]

omit [Std.TransOrd κ] [Std.LawfulEqOrd κ] in
/-- The total, with the entries that fail a test set apart. -/
theorem total_eq_filter_add (f : κ → ν → M) (t : Table κ ν) (p : κ → ν → Bool) :
    total f t = total f (t.filter p) + total (fun k v => if p k v then 0 else f k v) t := by
  simp only [total, filter]
  induction t.toList with
  | nil => simp
  | cons e es ih =>
    by_cases he : p e.1 e.2 = true
    · simp [he, ih, add_assoc]
    · simp [he, ih, add_left_comm]

omit [Std.TransOrd κ] in
theorem total_nonneg {f : κ → ν → Int} {t : Table κ ν}
    (h : ∀ k v, t.get? k = some v → 0 ≤ f k v) : 0 ≤ total f t := by
  refine List.sum_nonneg fun x hx => ?_
  obtain ⟨e, he, rfl⟩ := List.mem_map.1 hx
  exact h e.1 e.2 (mem_toList_iff.1 he)

end Lawful

end Table
end Fulfilment
