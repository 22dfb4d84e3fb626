import Fulfilment.Proofs.Lists
import Fulfilment.Proofs.Saga.Arrival
import Fulfilment.Proofs.TableTotal

/-!
# Overdue orders

The book lists the orders whose payment is overdue by sorting all that there are and taking the
first. No two orders have one id, so the sorted list is the only one in strict order
(`OrderBook.Overdue`), and what a listing leaves out is what the next one begins with, once the
orders that were listed are overdue no more.
-/
namespace Fulfilment

/-- Payment is overdue while it is awaited and there is a deadline that has passed. -/
theorem Order.isOverdue_iff {o : Order} {now : Instant} :
    o.isOverdue now = true ↔
      (o.status = .paymentPending ∨ o.status = .paymentProcessing) ∧
        ∃ deadline, o.expiresAt = some deadline ∧ deadline ≤ now := by
  have hstatus : o.status.awaitsPayment = true ↔
      o.status = .paymentPending ∨ o.status = .paymentProcessing := by
    cases o.status <;> decide
  have hdeadline : o.deadlinePassed now = true ↔
      ∃ deadline, o.expiresAt = some deadline ∧ deadline ≤ now := by
    unfold Order.deadlinePassed
    cases o.expiresAt <;> simp
  rw [Order.isOverdue, Bool.and_eq_true, hstatus, hdeadline]

namespace OrderBook

variable {b b' : OrderBook} {now : Instant} {due : List Order}

/-! ## Books that can be reached -/

/-- The book has come about from an empty one. Orders of any kind are saved, and saving is made to
fail and to work again. -/
inductive Reachable : OrderBook → Prop where
  | empty : Reachable {}
  | save {b : OrderBook} (before : Reachable b) (o : Order) : Reachable (b.save o).2
  | failSaves {b : OrderBook} (before : Reachable b) (fails : Bool) :
      Reachable { b with failing := fails }

theorem Reachable.wellKept (h : b.Reachable) : b.WellKept := by
  induction h with
  | empty => exact wellKept_of_empty rfl
  | save _ o ih => exact ih.save o
  | failSaves _ _ ih => exact ih

theorem WellKept.mem_values (h : b.WellKept) {o : Order} :
    o ∈ b.orders.values ↔ b.get? o.id = some o := by
  constructor
  · intro ho
    obtain ⟨⟨id, x⟩, hentry, rfl⟩ := List.mem_map.1 ho
    have hx := Table.mem_toList_iff.1 hentry
    obtain rfl := (h id x hx).1
    exact hx
  · exact Table.mem_values

theorem WellKept.pairwise_values (h : b.WellKept) :
    b.orders.values.Pairwise fun x y => x.id ≠ y.id := by
  have hkeys : b.orders.values.map Order.id = b.orders.keys := by
    rw [Table.values, Table.keys, List.map_map]
    exact List.map_congr_left fun e he => (h e.1 e.2 (Table.mem_toList_iff.1 he)).1
  exact List.pairwise_map.1 (hkeys ▸ b.orders.nodup_keys)

/-! ## The order of deadlines -/

/-- The deadline of one order comes before that of the other, or it is the same and the id comes
before. -/
def Precedes (x y : Order) : Prop :=
  ∃ s t, x.expiresAt = some s ∧ y.expiresAt = some t ∧
    (s < t ∨ s = t ∧ compare x.id y.id = .lt)

/-- The orders whose payment is overdue, in the order of their deadlines. -/
structure Overdue (b : OrderBook) (now : Instant) (due : List Order) : Prop where
  mem : ∀ o, o ∈ due ↔ b.get? o.id = some o ∧
    (o.status = .paymentPending ∨ o.status = .paymentProcessing) ∧
      ∃ deadline, o.expiresAt = some deadline ∧ deadline ≤ now
  sorted : due.Pairwise Precedes

theorem Precedes.asymm {x y : Order} (h : Precedes x y) (h' : Precedes y x) : False := by
  obtain ⟨s, t, hs, ht, hlt⟩ := h
  obtain ⟨t', s', ht', hs', hlt'⟩ := h'
  obtain rfl : s = s' := Option.some.inj (hs.symm.trans hs')
  obtain rfl : t = t' := Option.some.inj (ht.symm.trans ht')
  rw [Instant.lt_iff] at hlt hlt'
  rcases hlt with hlt | ⟨rfl, hid⟩
  · rcases hlt' with hlt' | ⟨rfl, -⟩ <;> omega
  · rcases hlt' with hlt' | ⟨-, hid'⟩
    · omega
    · rw [Std.OrientedCmp.gt_of_lt hid] at hid'
      cases hid'

/-- There is one list of the overdue orders. -/
theorem Overdue.unique {due' : List Order} (h : b.Overdue now due) (h' : b.Overdue now due') :
    due = due' := by
  have hnodup : ∀ {ds : List Order}, ds.Pairwise Precedes → ds.Nodup := by
    intro ds hsorted
    refine hsorted.imp fun {x y} hxy heq => ?_
    subst heq
    exact hxy.asymm hxy
  have hperm : due.Perm due' :=
    (List.perm_ext_iff_of_nodup (hnodup h.sorted) (hnodup h'.sorted)).2 fun o => by
      rw [h.mem, h'.mem]
  exact hperm.eq_of_pairwise (fun _ _ _ _ hxy hyx => (hxy.asymm hyx).elim) h.sorted h'.sorted

/-! ## The listing -/

/-- The deadlines of the overdue orders, sorted as the listing does. -/
def dues (b : OrderBook) (now : Instant) : List Due :=
  (b.orders.values.filterMap (due? now)).mergeSort Due.before

theorem due?_eq_some_iff {o : Order} {d : Due} :
    due? now o = some d ↔ o.isOverdue now = true ∧ o.expiresAt = some d.deadline ∧
      o.id = d.order := by
  cases d
  unfold due?
  split <;> simp_all

/-- The deadlines are those of the overdue orders. -/
theorem mem_dues (hkept : b.WellKept) {d : Due} :
    d ∈ b.dues now ↔ ∃ o, b.get? d.order = some o ∧ o.id = d.order ∧ o.isOverdue now = true ∧
      o.expiresAt = some d.deadline := by
  simp only [dues, List.mem_mergeSort, List.mem_filterMap, hkept.mem_values, due?_eq_some_iff]
  constructor
  · rintro ⟨o, ho, hoverdue, hdeadline, hid⟩
    exact ⟨o, hid ▸ ho, hid, hoverdue, hdeadline⟩
  · rintro ⟨o, ho, hid, hoverdue, hdeadline⟩
    exact ⟨o, hid ▸ ho, hoverdue, hdeadline, hid⟩

/-- What comes before by instant and id, and has another id, comes strictly before. -/
theorem lt_of_isLE_then {s t : Instant} {id id' : OrderId}
    (h : ((compare s t).then (compare id id')).isLE = true) (hne : id ≠ id') :
    s < t ∨ s = t ∧ compare id id' = .lt := by
  rw [Instant.compare_eq] at h
  rcases Ordering.isLE_iff_eq_lt_or_eq_eq.1 h with hlt | heq
  · rcases Ordering.then_eq_lt.1 hlt with hrank | ⟨hrank, hid⟩
    · exact .inl (compare_lt_iff_lt.1 hrank)
    · exact .inr ⟨Instant.rank_inj (compare_eq_iff_eq.1 hrank), hid⟩
  · exact absurd (Std.LawfulEqOrd.eq_of_compare (Ordering.then_eq_eq.1 heq).2) hne

/-- The deadlines are in order, and no order has two of them. -/
theorem pairwise_dues (hkept : b.WellKept) (now : Instant) :
    (b.dues now).Pairwise fun x y =>
      x.deadline < y.deadline ∨ x.deadline = y.deadline ∧ compare x.order y.order = .lt := by
  have hsorted : (b.dues now).Pairwise fun x y => x.before y = true := pairwise_mergeSort_isLE _
  have hdistinct : ((b.dues now).map Due.order).Nodup := by
    refine ((List.mergeSort_perm _ _).map Due.order).nodup_iff.2 (List.pairwise_map.2 ?_)
    refine List.pairwise_filterMap.2 (hkept.pairwise_values.imp fun {o o'} hne d hd d' hd' => ?_)
    rw [← (due?_eq_some_iff.1 hd).2.2, ← (due?_eq_some_iff.1 hd').2.2]
    exact hne
  exact (hsorted.and (List.pairwise_map.1 hdistinct)).imp fun h => lt_of_isLE_then h.1 h.2

/-- The overdue orders, in the order of their deadlines. -/
def overdueOrders (b : OrderBook) (now : Instant) : List Order :=
  (b.dues now).filterMap fun d => b.get? d.order

theorem overdue_overdueOrders (hkept : b.WellKept) (now : Instant) :
    b.Overdue now (b.overdueOrders now) where
  mem o := by
    rw [overdueOrders, List.mem_filterMap, ← Order.isOverdue_iff]
    constructor
    · rintro ⟨d, hd, ho⟩
      obtain ⟨o', ho', hid, hoverdue, -⟩ := (mem_dues hkept).1 hd
      obtain rfl : o = o' := Option.some.inj (ho.symm.trans ho')
      exact ⟨hid ▸ ho, hoverdue⟩
    · rintro ⟨ho, hoverdue⟩
      obtain ⟨-, deadline, hdeadline, -⟩ := Order.isOverdue_iff.1 hoverdue
      exact ⟨⟨deadline, o.id⟩, (mem_dues hkept).2 ⟨o, ho, rfl, hoverdue, hdeadline⟩, ho⟩
  sorted := by
    refine List.pairwise_filterMap.2 ((pairwise_dues hkept now).imp_of_mem ?_)
    intro d d' hd hd' hlt o ho o' ho'
    obtain ⟨x, hx, hid, -, hdeadline⟩ := (mem_dues hkept).1 hd
    obtain ⟨x', hx', hid', -, hdeadline'⟩ := (mem_dues hkept).1 hd'
    obtain rfl : o = x := Option.some.inj (ho.symm.trans hx)
    obtain rfl : o' = x' := Option.some.inj (ho'.symm.trans hx')
    exact ⟨_, _, hdeadline, hdeadline', hid ▸ hid' ▸ hlt⟩

/-- The listing takes the first of the overdue orders. -/
theorem Overdue.overdue_eq (h : b.Overdue now due) (hkept : b.WellKept) (limit : Nat) :
    b.overdue now limit = (due.take limit).map Order.id := by
  have hids : (b.overdueOrders now).map Order.id = (b.dues now).map Due.order := by
    rw [overdueOrders, List.map_filterMap, List.filterMap_eq_map_iff_forall_eq_some]
    intro d hd
    obtain ⟨o, ho, hid, -⟩ := (mem_dues hkept).1 hd
    rw [ho, Option.map_some, hid]
  rw [h.unique (overdue_overdueOrders hkept now), List.map_take, hids, ← List.map_take]
  rfl

theorem Overdue.nodup_ids (h : b.Overdue now due) : (due.map Order.id).Nodup := by
  refine List.pairwise_map.2 (h.sorted.imp_of_mem fun {x y} hx hy hxy hid => ?_)
  have hsame := ((h.mem x).1 hx).1
  rw [hid, ((h.mem y).1 hy).1, Option.some.injEq] at hsame
  exact hxy.asymm (hsame ▸ hxy)

theorem Overdue.nodup_ids_take (h : b.Overdue now due) (count : Nat) :
    ((due.take count).map Order.id).Nodup :=
  h.nodup_ids.sublist ((List.take_sublist count due).map Order.id)

/-- When the first orders are overdue no more and all others are as they were, the others are the
rest of the list. -/
theorem Overdue.drop (h : b.Overdue now due) (count : Nat)
    (hmoved : ∀ o ∈ due.take count, ∃ o', b'.get? o.id = some o' ∧ o'.isOverdue now = false)
    (hothers : ∀ id, id ∉ (due.take count).map Order.id → b'.get? id = b.get? id) :
    b'.Overdue now (due.drop count) where
  mem o := by
    have hsplit : ((due.take count).map Order.id ++ (due.drop count).map Order.id).Nodup := by
      rw [← List.map_append, List.take_append_drop]
      exact h.nodup_ids
    rw [← Order.isOverdue_iff]
    constructor
    · intro ho
      have hmem := (h.mem o).1 (List.mem_of_mem_drop ho)
      have hid : o.id ∉ (due.take count).map Order.id := fun hid =>
        (List.nodup_append.1 hsplit).2.2 o.id hid o.id (List.mem_map_of_mem ho) rfl
      rw [hothers o.id hid]
      exact ⟨hmem.1, Order.isOverdue_iff.2 hmem.2⟩
    · rintro ⟨ho, hoverdue⟩
      have hid : o.id ∉ (due.take count).map Order.id := by
        intro hid
        obtain ⟨x, hx, hxo⟩ := List.mem_map.1 hid
        obtain ⟨x', hx', hnot⟩ := hmoved x hx
        rw [hxo, ho, Option.some.injEq] at hx'
        rw [← hx', hoverdue] at hnot
        cases hnot
      rw [hothers o.id hid] at ho
      have hmem : o ∈ due.take count ++ due.drop count :=
        (List.take_append_drop count due).symm ▸ (h.mem o).2 ⟨ho, Order.isOverdue_iff.1 hoverdue⟩
      exact (List.mem_append.1 hmem).resolve_left fun hfirst => hid (List.mem_map_of_mem hfirst)
  sorted := h.sorted.sublist (List.drop_sublist count due)

end OrderBook
end Fulfilment
