import Fulfilment.Proofs.Order.Attempts
import Fulfilment.Proofs.Saga.Overdue

/-!
# Listings

The book answers two queries by going through all the orders that it has, in whatever order they
come to hand, and sorting what it picks. No two stored orders have one id, and both sorts look at
the id in the end. So two enumerations of the same orders are sorted into one list
(`mergeSort_isLE_eq_of_perm`), and an answer depends on nothing but which orders are stored.
-/
namespace Fulfilment
namespace OrderBook

variable {b : OrderBook} {user : UserId} {status : Option Status}

/-! ## The orders of a user -/

/-- The order was placed later, or at the same instant with an id that comes before. -/
def Newer (x y : Order) : Prop :=
  y.createdAt < x.createdAt ∨ x.createdAt = y.createdAt ∧ compare x.id y.id = .lt

instance : Std.TransCmp fun x y : Order => compare y.createdAt x.createdAt :=
  inferInstanceAs (Std.TransCmp fun x y => compareOn Order.createdAt y x)

theorem newer_of_newestFirst {x y : Order} (h : newestFirst x y = true) (hne : x.id ≠ y.id) :
    Newer x y :=
  (lt_of_isLE_then h hne).imp_right fun heq => ⟨heq.1.symm, heq.2⟩

theorem Newer.irrefl (x : Order) : ¬ Newer x x := by
  rintro (hlt | ⟨-, hid⟩)
  · rw [Instant.lt_iff] at hlt
    omega
  · rw [Std.ReflOrd.compare_self] at hid
    cases hid

/-- A user's orders are those that are stored, are the user's, and have the status. -/
theorem mem_ofUser (h : b.WellKept) {o : Order} :
    o ∈ b.ofUser user status ↔
      b.get? o.id = some o ∧ o.user = user ∧ ∀ s, status = some s → o.status = s := by
  rw [ofUser, List.mem_mergeSort, List.mem_filter, h.mem_values]
  cases status <;> simp

/-- A user's orders come newest first. -/
theorem pairwise_ofUser (h : b.WellKept) (user : UserId) (status : Option Status) :
    (b.ofUser user status).Pairwise Newer := by
  have hsorted : (b.ofUser user status).Pairwise fun x y => newestFirst x y = true :=
    pairwise_mergeSort_isLE _
  have hdistinct : (b.ofUser user status).Pairwise fun x y => x.id ≠ y.id :=
    (List.mergeSort_perm _ _).symm.pairwise (h.pairwise_values.filter _) Ne.symm
  exact (hsorted.and hdistinct).imp fun hxy => newer_of_newestFirst hxy.1 hxy.2

/-! ## Enumerations -/

/-- The list has every stored order once, at any place. -/
structure Enumerates (b : OrderBook) (os : List Order) : Prop where
  nodup : os.Nodup
  mem : ∀ o, o ∈ os ↔ b.get? o.id = some o

theorem WellKept.enumerates (h : b.WellKept) : b.Enumerates b.orders.values where
  nodup := h.pairwise_values.imp fun hne heq => hne (congrArg Order.id heq)
  mem _ := h.mem_values

theorem Enumerates.perm {os os' : List Order} (h : b.Enumerates os) (h' : b.Enumerates os') :
    os.Perm os' :=
  (List.perm_ext_iff_of_nodup h.nodup h'.nodup).2 fun o => (h.mem o).trans (h'.mem o).symm

theorem Enumerates.eq_of_id {os : List Order} (h : b.Enumerates os) {x y : Order} (hx : x ∈ os)
    (hy : y ∈ os) (hid : x.id = y.id) : x = y := by
  have hstored := (h.mem x).1 hx
  rw [hid, (h.mem y).1 hy] at hstored
  exact (Option.some.inj hstored).symm

/-- A user's orders, picked from orders that come to hand in some order. -/
def ofUserAmong (os : List Order) (user : UserId) (status : Option Status) : List Order :=
  (os.filter fun o =>
    o.user = user && (match status with | some s => o.status = s | none => true)).mergeSort
    newestFirst

/-- The overdue orders, picked from orders that come to hand in some order. -/
def overdueAmong (os : List Order) (now : Instant) (limit : Nat) : List OrderId :=
  (((os.filterMap (due? now)).mergeSort Due.before).take limit).map Due.order

/-- It does not matter in which order a user's orders are come upon. -/
theorem Enumerates.ofUserAmong_eq {os os' : List Order} (h : b.Enumerates os)
    (h' : b.Enumerates os') (user : UserId) (status : Option Status) :
    ofUserAmong os user status = ofUserAmong os' user status := by
  refine mergeSort_isLE_eq_of_perm ((h.perm h').filter _) fun x hx y hy heq => ?_
  have hid : compare x.id y.id = .eq := (Ordering.then_eq_eq.1 heq).2
  exact h.eq_of_id (List.mem_of_mem_filter hx) (List.mem_of_mem_filter hy)
    (Std.LawfulEqOrd.eq_of_compare hid)

theorem Enumerates.overdueAmong_eq {os os' : List Order} (h : b.Enumerates os)
    (h' : b.Enumerates os') (now : Instant) (limit : Nat) :
    overdueAmong os now limit = overdueAmong os' now limit := by
  have hsorted : (os.filterMap (due? now)).mergeSort Due.before =
      (os'.filterMap (due? now)).mergeSort Due.before := by
    refine mergeSort_isLE_eq_of_perm ((h.perm h').filterMap _) ?_
    rintro ⟨s, i⟩ - ⟨t, j⟩ - heq
    obtain ⟨hdeadline, horder⟩ := Ordering.then_eq_eq.1 heq
    exact congrArg₂ Due.mk (Std.LawfulEqOrd.eq_of_compare hdeadline)
      (Std.LawfulEqOrd.eq_of_compare horder)
  rw [overdueAmong, overdueAmong, hsorted]

/-! ## Every book -/

/--
**Listings are exact, whatever order the stored orders are in.**

Whatever was saved before: The listing of a user's orders has each stored order that is the user's,
and has the status if one is given, exactly once, newest first and then by id. The listing of
overdue orders is the first of exactly those whose payment is overdue, by deadline and then by id.
Neither depends on the order in which the stored orders are gone through, nor on anything else but
which orders are stored.
-/
theorem listings_are_exact (h : b.Reachable) (user : UserId) (status : Option Status)
    (now : Instant) (limit : Nat) :
    (∀ o, o ∈ b.ofUser user status ↔
      b.get? o.id = some o ∧ o.user = user ∧ ∀ s, status = some s → o.status = s) ∧
    (b.ofUser user status).Nodup ∧
    (b.ofUser user status).Pairwise Newer ∧
    (∃ due, b.Overdue now due ∧ b.overdue now limit = (due.take limit).map Order.id) ∧
    (∀ os, b.Enumerates os →
      ofUserAmong os user status = b.ofUser user status ∧
        overdueAmong os now limit = b.overdue now limit) ∧
    (∀ b', Reachable b' → (∀ o : Order, b'.get? o.id = some o ↔ b.get? o.id = some o) →
      b'.ofUser user status = b.ofUser user status ∧ b'.overdue now limit = b.overdue now limit) ∧
    ∀ w : World, w.book = b →
      (Service.listOrders user status).run.run World.answer w =
        (.ok (b.ofUser user status), w) := by
  have hkept := h.wellKept
  have hanyhow : ∀ os, b.Enumerates os →
      ofUserAmong os user status = b.ofUser user status ∧
        overdueAmong os now limit = b.overdue now limit := fun os hos =>
    ⟨hos.ofUserAmong_eq hkept.enumerates user status,
      hos.overdueAmong_eq hkept.enumerates now limit⟩
  have hsorted := pairwise_ofUser hkept user status
  have hoverdue := overdue_overdueOrders hkept now
  refine ⟨fun o => mem_ofUser hkept, ?_, hsorted,
    ⟨_, hoverdue, hoverdue.overdue_eq hkept limit⟩, hanyhow, fun b' h' hsame => ?_, ?_⟩
  · refine hsorted.imp fun {x y} hxy heq => ?_
    subst heq
    exact Newer.irrefl x hxy
  · have hvalues := h'.wellKept.enumerates
    exact hanyhow _ ⟨hvalues.nodup, fun o => (hvalues.mem o).trans (hsame o)⟩
  · rintro w rfl
    rfl

/-- A lamp that was ordered at some second, to be paid within a minute, and saved once. -/
def lampOf (n : Nat) (second : UInt32) (number : String) (status : Status) : Order :=
  { Order.ofRequest Order.lampRequest (.ofSecond second) with
    id := ⟨.ofNat n⟩, number := ⟨number⟩, version := 1, status
    expiresAt := some (.ofSecond (second + 60)) }

/-- The book after some orders were saved for the first time. -/
def firstSaves (os : List Order) : OrderBook :=
  os.foldl (fun b o => (b.save { o with version := 0 }).2) {}

theorem reachable_firstSaves (os : List Order) : (firstSaves os).Reachable :=
  List.foldlRecOn os _ .empty fun _ hb _ _ => hb.save _

/-- Of three lamps, two were ordered at one instant: the one with the lower id is listed first. The
oldest, which is listed last, is the first that is overdue. It does not matter which of them was
saved first. -/
theorem lamps_are_listed :
    let old := lampOf 2 0 "ORD-OLD" .paymentPending
    let paid := lampOf 1 5 "ORD-PAID" .paymentCompleted
    let late := lampOf 3 5 "ORD-LATE" .paymentPending
    let b := firstSaves [late, old, paid]
    let b' := firstSaves [old, paid, late]
    let user := Order.lampRequest.user
    b.Reachable ∧ b'.Reachable ∧
      b.ofUser user none = [paid, late, old] ∧ b'.ofUser user none = [paid, late, old] ∧
      b.overdue (.ofSecond 65) 1 = [old.id] ∧ b'.overdue (.ofSecond 65) 1 = [old.id] ∧
      late ∈ b.ofUser user (some .paymentPending) ∧
      paid ∉ b.ofUser user (some .paymentPending) := by
  intro old paid late b b' user
  have hb : b.Reachable := reachable_firstSaves _
  have hb' : b'.Reachable := reachable_firstSaves _
  have hvalues : b.orders.values = [paid, old, late] := by decide +kernel
  have hvalues' : b'.orders.values = [paid, old, late] := by decide +kernel
  have hstored : ∀ o, b.get? o.id = some o ↔ o ∈ [paid, old, late] := fun o => by
    rw [← hb.wellKept.mem_values, hvalues]
  have hsame : ∀ o : Order, b'.get? o.id = some o ↔ b.get? o.id = some o := fun o => by
    rw [hstored, ← hb'.wellKept.mem_values, hvalues']
  have henumerates : ∀ os, os.Perm [paid, old, late] → b.Enumerates os := fun os hos =>
    ⟨hos.nodup_iff.2 (by decide +kernel), fun o => by rw [hstored, hos.mem_iff]⟩
  have hlisted : ofUserAmong [paid, late, old] user none = [paid, late, old] :=
    List.mergeSort_of_pairwise (by decide +kernel)
  have hdues : [old, late, paid].filterMap (due? (.ofSecond 65)) =
      [⟨.ofSecond 60, old.id⟩, ⟨.ofSecond 65, late.id⟩] := by
    decide +kernel
  have hdue : overdueAmong [old, late, paid] (.ofSecond 65) 1 = [old.id] := by
    rw [overdueAmong, hdues, List.mergeSort_of_pairwise (by decide +kernel)]
    rfl
  obtain ⟨-, -, -, -, hanyhow, hbooks, -⟩ :=
    listings_are_exact hb user none (.ofSecond 65) 1
  obtain ⟨hmem, -⟩ := listings_are_exact hb user (some .paymentPending) (.ofSecond 65) 1
  obtain ⟨hofUser, -⟩ := hanyhow [paid, late, old] (henumerates _ (by decide +kernel))
  obtain ⟨-, hoverdue⟩ := hanyhow [old, late, paid] (henumerates _ (by decide +kernel))
  obtain ⟨hofUser', hoverdue'⟩ := hbooks b' hb' hsame
  rw [hlisted] at hofUser
  rw [hdue] at hoverdue
  refine ⟨hb, hb', hofUser.symm, hofUser'.trans hofUser.symm, hoverdue.symm,
    hoverdue'.trans hoverdue.symm, ?_, ?_⟩
  · exact (hmem late).2 ⟨(hstored late).2 (by simp), rfl, by decide⟩
  · rw [hmem]
    rintro ⟨-, -, hstatus⟩
    exact absurd (hstatus _ rfl) (by decide)

end OrderBook
end Fulfilment
