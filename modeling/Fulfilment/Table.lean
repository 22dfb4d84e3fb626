/-!
# Tables

A `Table κ ν` is a finite map from ordered keys, kept as a list of entries whose keys ascend. It is
seen through `get?`: every operation has one law that says what it does to each key, two tables with
the same look-ups are equal (`ext_get?`), and an entry of the list is a look-up
(`mem_toList_iff`).
-/
namespace Fulfilment

/-- A finite map whose entries are kept in ascending order of their keys. -/
structure Table (κ ν : Type) [Ord κ] where
  toList : List (κ × ν)
  ascending : toList.Pairwise fun a b => compare a.1 b.1 = .lt

namespace Table

variable {κ ν : Type} [Ord κ]

/-- The table without entries. -/
def empty : Table κ ν := ⟨[], .nil⟩

instance : EmptyCollection (Table κ ν) := ⟨empty⟩
instance : Inhabited (Table κ ν) := ⟨empty⟩

/-- The value that a key maps to in a list of entries. -/
def find (k : κ) : List (κ × ν) → Option ν
  | [] => none
  | (a, v) :: rest => if compare k a = .eq then some v else find k rest

/-- The value that a key maps to. -/
def get? (t : Table κ ν) (k : κ) : Option ν := find k t.toList

def contains (t : Table κ ν) (k : κ) : Bool := (t.get? k).isSome

def size (t : Table κ ν) : Nat := t.toList.length

def keys (t : Table κ ν) : List κ := t.toList.map Prod.fst

/-- The values in ascending order of their keys. -/
def values (t : Table κ ν) : List ν := t.toList.map Prod.snd

/-- Puts an entry at its place in a list of entries, in place of one with the same key. -/
def place (k : κ) (v : ν) : List (κ × ν) → List (κ × ν)
  | [] => [(k, v)]
  | (a, w) :: rest =>
    match compare k a with
    | .lt => (k, v) :: (a, w) :: rest
    | .eq => (k, v) :: rest
    | .gt => (a, w) :: place k v rest

theorem mem_place {k : κ} {v : ν} {l : List (κ × ν)} {e : κ × ν} (h : e ∈ place k v l) :
    e = (k, v) ∨ e ∈ l := by
  fun_induction place k v l <;> grind

section Lawful

variable [Std.TransOrd κ]

/-- Placing an entry keeps the keys ascending. -/
theorem pairwise_place (k : κ) (v : ν) {l : List (κ × ν)}
    (h : l.Pairwise fun a b => compare a.1 b.1 = .lt) :
    (place k v l).Pairwise fun a b => compare a.1 b.1 = .lt := by
  induction l with
  | nil => simp [place]
  | cons e rest ih =>
    obtain ⟨a, w⟩ := e
    obtain ⟨hhead, htail⟩ := List.pairwise_cons.1 h
    simp only [place]
    split
    · next hlt =>
      refine List.pairwise_cons.2 ⟨fun e he => ?_, h⟩
      rcases List.mem_cons.1 he with rfl | he
      · exact hlt
      · exact Std.TransCmp.lt_trans hlt (hhead e he)
    · next heq =>
      refine List.pairwise_cons.2 ⟨fun e he => ?_, htail⟩
      exact Std.TransCmp.lt_of_eq_of_lt heq (hhead e he)
    · next hgt =>
      refine List.pairwise_cons.2 ⟨fun e he => ?_, ih htail⟩
      rcases mem_place he with rfl | he
      · exact Std.OrientedCmp.lt_of_gt hgt
      · exact hhead e he

/-- The table with the key mapped to the value. -/
def insert (t : Table κ ν) (k : κ) (v : ν) : Table κ ν :=
  ⟨place k v t.toList, pairwise_place k v t.ascending⟩

end Lawful

/-- The entries that satisfy a test. -/
def filter (t : Table κ ν) (p : κ → ν → Bool) : Table κ ν :=
  ⟨t.toList.filter fun e => p e.1 e.2, t.ascending.sublist List.filter_sublist⟩

def erase (t : Table κ ν) (k : κ) : Table κ ν := t.filter fun a _ => compare k a != .eq

/-! ## Laws -/

section Laws

variable [Std.TransOrd κ] [Std.LawfulEqOrd κ]

omit [Std.TransOrd κ] [Std.LawfulEqOrd κ] in
@[simp] theorem get?_empty (k : κ) : (∅ : Table κ ν).get? k = none := rfl

omit [Std.TransOrd κ] [Std.LawfulEqOrd κ] in
/-- A key below all keys of a list is not found in it. -/
theorem find_eq_none_of_lt {k : κ} {l : List (κ × ν)}
    (h : ∀ e ∈ l, compare k e.1 = .lt) : find k l = none := by
  induction l with
  | nil => rfl
  | cons e rest ih =>
    obtain ⟨a, w⟩ := e
    have ha := h (a, w) (List.mem_cons_self ..)
    simp [find, ha, ih fun e he => h e (List.mem_cons_of_mem _ he)]

omit [Std.TransOrd κ] in
/-- In an ascending list, looking a key up finds exactly its entry. -/
theorem mem_iff_find {l : List (κ × ν)} (h : l.Pairwise fun a b => compare a.1 b.1 = .lt)
    {k : κ} {v : ν} : (k, v) ∈ l ↔ find k l = some v := by
  induction l with
  | nil => simp [find]
  | cons e rest ih =>
    obtain ⟨a, w⟩ := e
    obtain ⟨hhead, htail⟩ := List.pairwise_cons.1 h
    simp only [find, List.mem_cons, Prod.mk.injEq]
    by_cases hk : compare k a = .eq
    · obtain rfl := Std.LawfulEqOrd.eq_of_compare hk
      have hnone : find k rest = none := find_eq_none_of_lt hhead
      rw [if_pos hk, Option.some.injEq, ih htail, hnone]
      simp [eq_comm]
    · have hne : k ≠ a := fun h => hk (h ▸ Std.ReflOrd.compare_self)
      rw [if_neg hk, ← ih htail]
      simp [hne]

omit [Std.TransOrd κ] in
/-- An entry of the table is a look-up. -/
theorem mem_toList_iff {t : Table κ ν} {k : κ} {v : ν} :
    (k, v) ∈ t.toList ↔ t.get? k = some v :=
  mem_iff_find t.ascending

omit [Std.TransOrd κ] in
/-- What is found is one of the values. -/
theorem mem_values {t : Table κ ν} {k : κ} {v : ν} (h : t.get? k = some v) : v ∈ t.values :=
  List.mem_map.2 ⟨(k, v), mem_toList_iff.2 h, rfl⟩

omit [Std.TransOrd κ] in
/-- Looking up after a placement. -/
theorem find_place (k a : κ) (v : ν) {l : List (κ × ν)}
    (h : l.Pairwise fun a b => compare a.1 b.1 = .lt) :
    find a (place k v l) = if compare a k = .eq then some v else find a l := by
  induction l with
  | nil => simp [place, find]
  | cons e rest ih =>
    obtain ⟨b, w⟩ := e
    obtain ⟨hhead, htail⟩ := List.pairwise_cons.1 h
    simp only [place]
    split
    · rfl
    · next heq =>
      obtain rfl := Std.LawfulEqOrd.eq_of_compare heq
      simp only [find]
      split <;> rfl
    · next hgt =>
      simp only [find, ih htail]
      by_cases hab : compare a b = .eq
      · obtain rfl := Std.LawfulEqOrd.eq_of_compare hab
        have : compare a k ≠ .eq := fun h => by
          obtain rfl := Std.LawfulEqOrd.eq_of_compare h
          rw [Std.ReflOrd.compare_self] at hgt
          exact absurd hgt (by decide)
        simp [this]
      · simp [hab]

theorem get?_insert (t : Table κ ν) (k a : κ) (v : ν) :
    (t.insert k v).get? a = if compare a k = .eq then some v else t.get? a :=
  find_place k a v t.ascending

@[simp] theorem get?_insert_self (t : Table κ ν) (k : κ) (v : ν) :
    (t.insert k v).get? k = some v := by
  simp [get?_insert, Std.ReflOrd.compare_self]

theorem get?_insert_of_ne (t : Table κ ν) {k a : κ} (v : ν) (h : a ≠ k) :
    (t.insert k v).get? a = t.get? a := by
  rw [get?_insert, if_neg fun he => h (Std.LawfulEqOrd.eq_of_compare he)]

theorem contains_insert (t : Table κ ν) (k a : κ) (v : ν) :
    (t.insert k v).contains a = true ↔ a = k ∨ t.contains a = true := by
  by_cases ha : a = k
  · subst ha
    simp [contains]
  · simp [contains, get?_insert_of_ne, ha]

theorem contains_foldl_insert (keys : List κ) (t : Table κ Unit) (k : κ) :
    (keys.foldl (fun t k => t.insert k ()) t).contains k = true ↔
      k ∈ keys ∨ t.contains k = true := by
  induction keys generalizing t with
  | nil => simp
  | cons a keys ih =>
    rw [List.foldl_cons, ih, contains_insert, List.mem_cons, or_left_comm, or_assoc]

omit [Std.TransOrd κ] in
theorem get?_filter (t : Table κ ν) (p : κ → ν → Bool) (k : κ) :
    (t.filter p).get? k = (t.get? k).filter (p k) := by
  ext v
  rw [← mem_toList_iff]
  simp only [filter, List.mem_filter, mem_toList_iff, Option.filter_eq_some_iff]

theorem get?_erase (t : Table κ ν) (k a : κ) :
    (t.erase k).get? a = if compare a k = .eq then none else t.get? a := by
  have hswap : compare k a = (compare a k).swap := Std.OrientedOrd.eq_swap
  rw [erase, get?_filter, hswap]
  cases h : compare a k <;> cases t.get? a <;> simp [Option.filter]

@[simp] theorem get?_erase_self (t : Table κ ν) (k : κ) : (t.erase k).get? k = none := by
  simp [get?_erase, Std.ReflOrd.compare_self]

theorem get?_erase_of_ne (t : Table κ ν) {k a : κ} (h : a ≠ k) :
    (t.erase k).get? a = t.get? a := by
  rw [get?_erase, if_neg fun he => h (Std.LawfulEqOrd.eq_of_compare he)]

omit [Std.LawfulEqOrd κ] in
/-- Lists of entries in ascending order are equal if they have the same entries. -/
theorem eq_of_same_entries {l m : List (κ × ν)}
    (hl : l.Pairwise fun a b => compare a.1 b.1 = .lt)
    (hm : m.Pairwise fun a b => compare a.1 b.1 = .lt) (h : ∀ e, e ∈ l ↔ e ∈ m) : l = m := by
  induction l generalizing m with
  | nil =>
    cases m with
    | nil => rfl
    | cons e _ => exact absurd ((h e).2 (List.mem_cons_self ..)) (List.not_mem_nil)
  | cons e l ih =>
    cases m with
    | nil => exact absurd ((h e).1 (List.mem_cons_self ..)) (List.not_mem_nil)
    | cons f m =>
      obtain ⟨hel, hl'⟩ := List.pairwise_cons.1 hl
      obtain ⟨hfm, hm'⟩ := List.pairwise_cons.1 hm
      have irrefl : ∀ e : κ × ν, compare e.1 e.1 ≠ .lt := fun e he => by
        rw [Std.ReflOrd.compare_self] at he
        exact absurd he (by decide)
      have hef : e = f := by
        rcases List.mem_cons.1 ((h e).1 (List.mem_cons_self ..)) with he | he
        · exact he
        · rcases List.mem_cons.1 ((h f).2 (List.mem_cons_self ..)) with hf | hf
          · exact hf.symm
          · exact absurd (Std.TransCmp.lt_trans (hel f hf) (hfm e he)) (irrefl e)
      subst hef
      refine congrArg _ (ih hl' hm' fun g => ⟨fun hg => ?_, fun hg => ?_⟩)
      · rcases List.mem_cons.1 ((h g).1 (List.mem_cons_of_mem _ hg)) with rfl | hg'
        · exact absurd (hel g hg) (irrefl g)
        · exact hg'
      · rcases List.mem_cons.1 ((h g).2 (List.mem_cons_of_mem _ hg)) with rfl | hg'
        · exact absurd (hfm g hg) (irrefl g)
        · exact hg'

/-- Tables with the same look-ups are equal. -/
theorem ext_get? {s t : Table κ ν} (h : ∀ k, s.get? k = t.get? k) : s = t := by
  have hl : s.toList = t.toList :=
    eq_of_same_entries s.ascending t.ascending fun e => by
      obtain ⟨k, v⟩ := e
      rw [mem_toList_iff, mem_toList_iff, h]
  cases s
  cases t
  simp_all

end Laws

end Table
end Fulfilment
