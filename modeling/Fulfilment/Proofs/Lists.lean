import Mathlib.Data.List.Induction
import Mathlib.Data.List.Nodup

/-!
# Lists

What the theory needs of lists and the library does not have: where a list is cut, what a map makes
of a list of which one member has changed, the members that pass a test, and lists that are sorted
by a comparison. Orders are sorted by an instant first and then by id, so the comparison takes no
two of them for one, and it does not matter in which order they come (`mergeSort_isLE_eq_of_perm`).
-/
namespace Fulfilment

variable {α β : Type}

/-! ## Cuts -/

/-- A list is cut in front of its head, or behind it. -/
theorem exists_cut_cons {x : α} {xs : List α} {p : List α → α → Prop} :
    (∃ before y after, x :: xs = before ++ y :: after ∧ p before y) ↔
      p [] x ∨ ∃ before y after, xs = before ++ y :: after ∧ p (x :: before) y := by
  constructor
  · rintro ⟨before, y, after, hcut, hp⟩
    rcases List.cons_eq_append_iff.1 hcut with ⟨rfl, heq⟩ | ⟨front, rfl, rfl⟩
    · cases heq
      exact .inl hp
    · exact .inr ⟨front, y, after, rfl, hp⟩
  · rintro (hp | ⟨front, y, after, rfl, hp⟩)
    · exact ⟨[], x, xs, rfl, hp⟩
    · exact ⟨x :: front, y, after, rfl, hp⟩

/-- What comes last is what the list is cut at, or comes last after it. -/
theorem concat_eq_append_cons {xs before after : List α} {x y : α}
    (h : xs ++ [x] = before ++ y :: after) :
    (after = [] ∧ x = y) ∨ ∃ rest, after = rest ++ [x] ∧ xs = before ++ y :: rest := by
  rcases List.eq_nil_or_concat after with rfl | ⟨rest, z, rfl⟩
  · exact .inl ⟨rfl, List.singleton_inj.1 (List.append_inj' h rfl).2⟩
  · have hcut : xs ++ [x] = (before ++ y :: rest) ++ [z] := by simpa using h
    obtain ⟨hfront, hlast⟩ := List.append_inj' hcut rfl
    obtain rfl := List.singleton_inj.1 hlast
    exact .inr ⟨rest, by simp, hfront⟩

/-! ## One member among others -/

theorem flatMap_of_others {f : α → List β} {before after : List α} {a : α}
    (hbefore : ∀ b ∈ before, f b = []) (hafter : ∀ b ∈ after, f b = []) :
    (before ++ a :: after).flatMap f = f a := by
  simp [List.flatMap_eq_nil_iff.2 hbefore, List.flatMap_eq_nil_iff.2 hafter]

/-- Of one list entry, the others have nothing if it has all there is. -/
theorem filterMap_turn {f : α → Option β} {before after : List α} {a a' : α}
    {x x' : Option β} (h : (before ++ a :: after).filterMap f = x.toList)
    (hturn : f a' = f a ∧ x' = x ∨ x = f a ∧ x' = f a') :
    (before ++ a' :: after).filterMap f = x'.toList := by
  have hsplit : ∀ b, (before ++ b :: after).filterMap f =
      before.filterMap f ++ (f b).toList ++ after.filterMap f := by
    intro b
    cases hb : f b <;> simp [hb]
  rw [hsplit] at h ⊢
  rcases hturn with ⟨hf, rfl⟩ | ⟨rfl, rfl⟩
  · rwa [hf]
  · have hlen := congrArg List.length h
    simp only [List.length_append] at hlen
    have hbefore : before.filterMap f = [] := List.eq_nil_of_length_eq_zero (by omega)
    have hafter : after.filterMap f = [] := List.eq_nil_of_length_eq_zero (by omega)
    rw [hbefore, hafter, List.nil_append, List.append_nil]

/-! ## First members -/

/-- If no member that passes follows one that fails, those that pass are the first ones. -/
theorem takeWhile_eq_filter {p : α → Bool} {xs : List α}
    (h : xs.Pairwise fun a b => p b = true → p a = true) : xs.takeWhile p = xs.filter p := by
  induction xs with
  | nil => rfl
  | cons x xs ih =>
    obtain ⟨hhead, htail⟩ := List.pairwise_cons.1 h
    by_cases hx : p x = true
    · rw [List.takeWhile_cons_of_pos hx, List.filter_cons_of_pos hx, ih htail]
    · have hnone : xs.filter p = [] := List.filter_eq_nil_iff.2 fun y hy hp => hx (hhead y hy hp)
      rw [List.takeWhile_cons_of_neg hx, List.filter_cons_of_neg hx, hnone]

/-- Without repetitions, what is not among the first members comes after them. -/
theorem filter_notMem_take [DecidableEq α] {xs : List α} (h : xs.Nodup) (n : Nat) :
    xs.filter (· ∉ xs.take n) = xs.drop n := by
  have hsplit : (xs.take n ++ xs.drop n).Nodup := (List.take_append_drop n xs).symm ▸ h
  have hdisjoint := (List.nodup_append.1 hsplit).2.2
  have hfirst : (xs.take n).filter (· ∉ xs.take n) = [] :=
    List.filter_eq_nil_iff.2 fun x hx => by simp [hx]
  have hrest : (xs.drop n).filter (· ∉ xs.take n) = xs.drop n :=
    List.filter_eq_self.2 fun x hx => by simpa using fun hmem => hdisjoint x hmem x hx rfl
  have happend := List.filter_append (p := fun x => decide (x ∉ xs.take n)) (xs.take n) (xs.drop n)
  rwa [List.take_append_drop, hfirst, hrest, List.nil_append] at happend

/-! ## Sorting -/

section Sorting

variable {cmp : α → α → Ordering} [Std.TransCmp cmp]

theorem pairwise_mergeSort_isLE (l : List α) :
    (l.mergeSort fun x y => (cmp x y).isLE).Pairwise fun x y => (cmp x y).isLE = true := by
  refine List.pairwise_mergeSort (fun x y z => Std.TransCmp.isLE_trans) (fun x y => ?_) l
  have hswap : cmp x y = (cmp y x).swap := Std.OrientedCmp.eq_swap
  rw [hswap]
  cases cmp y x <;> rfl

/-- A list is sorted alike in whatever order it comes, if its comparison takes no two of its members
for one. -/
theorem mergeSort_isLE_eq_of_perm {l m : List α} (hperm : l.Perm m)
    (hinj : ∀ x ∈ l, ∀ y ∈ l, cmp x y = .eq → x = y) :
    (l.mergeSort fun x y => (cmp x y).isLE) = m.mergeSort fun x y => (cmp x y).isLE := by
  refine List.Perm.eq_of_pairwise (fun x y hx hy hxy hyx => ?_) (pairwise_mergeSort_isLE l)
    (pairwise_mergeSort_isLE m)
    ((List.mergeSort_perm _ _).trans (hperm.trans (List.mergeSort_perm _ _).symm))
  exact hinj x (List.mem_mergeSort.1 hx) y (hperm.mem_iff.2 (List.mem_mergeSort.1 hy))
    (Std.OrientedCmp.isLE_antisymm hxy hyx)

end Sorting

end Fulfilment
