import Fulfilment.Proofs.Order.Lifecycle

/-!
# Histories of orders

The values under which an order is saved one after the other are a `History`: they are numbered from
one, the first is a new order with its reservation, and accepted actions lead from each to the next.
Since every action leads further on, no history cancels an order twice, completes its payment twice,
or goes on after a final status.
-/
namespace Fulfilment

/-- The action ends an order that was not paid for good. -/
def Action.callsOff : Action → Bool
  | .cancel _ | .timeOut => true
  | _ => false

/-- The action completes the payment of an order. -/
def Action.completesPayment : Action → Bool
  | .completePayment _ => true
  | _ => false

namespace Order

/-- The actions, all of them accepted, make one value of an order into another, up to its
version. -/
def LeadsTo (o : Order) (as : List (Action × Instant)) (o' : Order) : Prop :=
  ∃ last ts version, o.transitionAll as = .ok (last, ts) ∧ o' = { last with version }

/-- The order is as it was placed, but for its version. -/
def IsPlaced (o : Order) : Prop :=
  ∃ request now e, Order.place request now = .ok (o, e)

/-- The order is a placed one with its reservation, up to its version. -/
def IsReserved (o : Order) : Prop :=
  ∃ o₀ reservation expiresAt now, IsPlaced o₀ ∧
    o₀.LeadsTo [(.markStockReserved reservation expiresAt, now)] o

/-- Values that an order can be saved under, one after the other. -/
structure History (h : List Order) : Prop where
  version : ∀ {i : Nat} {o : Order}, h[i]? = some o → o.version = i + 1
  first : ∀ {o : Order}, h[0]? = some o → o.IsReserved
  next : ∀ {i : Nat} {o o' : Order}, h[i]? = some o → h[i + 1]? = some o' →
    ∃ as, as ≠ [] ∧ o.LeadsTo as o'

/-- Save number `i + 2` of a history, counted from one, can be the work of these actions. -/
def Commits (h : List Order) (i : Nat) (as : List (Action × Instant)) : Prop :=
  ∃ o o', h[i]? = some o ∧ h[i + 1]? = some o' ∧ o.LeadsTo as o'

variable {o o' : Order} {as : List (Action × Instant)} {h : List Order} {i j : Nat}

/-! ## Where actions lead -/

theorem LeadsTo.rank_lt (hl : o.LeadsTo as o') (hne : as ≠ []) :
    o.status.rank < o'.status.rank := by
  obtain ⟨last, ts, version, hts, rfl⟩ := hl
  have hlt := rank_lt_of_transitionAll hne hts
  exact hlt

theorem LeadsTo.samePlacement (hl : o.LeadsTo as o') : SamePlacement o o' := by
  obtain ⟨last, ts, version, hts, rfl⟩ := hl
  have h := samePlacement_of_transitionAll hts
  exact ⟨h.id, h.number, h.user, h.store, h.lines, h.createdAt⟩

/-- An order that is called off has ended. -/
theorem LeadsTo.rank_of_callsOff (hl : o.LeadsTo as o') {a : Action} {now : Instant}
    (ha : (a, now) ∈ as) (hoff : a.callsOff = true) : Status.cancelled.rank ≤ o'.status.rank := by
  obtain ⟨last, ts, version, hts, rfl⟩ := hl
  obtain ⟨before, after, t, -, hstep, hle⟩ := exists_of_mem_transitionAll hts ha
  refine Nat.le_trans ?_ hle
  obtain ⟨e, he, rfl, -⟩ := accepts_of_transition hstep
  cases he with
  | cancel => exact Nat.le_refl _
  | timeOut => exact Nat.le_refl _
  | _ => cases hoff

/-- A payment is completed while it is pending, and has been completed then. -/
theorem LeadsTo.rank_of_completesPayment (hl : o.LeadsTo as o') {a : Action} {now : Instant}
    (ha : (a, now) ∈ as) (hpays : a.completesPayment = true) :
    o.status.rank < Status.paymentCompleted.rank ∧
      Status.paymentCompleted.rank ≤ o'.status.rank := by
  obtain ⟨last, ts, version, hts, rfl⟩ := hl
  obtain ⟨before, after, t, hle, hstep, hle'⟩ := exists_of_mem_transitionAll hts ha
  obtain ⟨e, he, rfl, -⟩ := accepts_of_transition hstep
  cases he with
  | completePayment payment hstatus =>
    rw [hstatus] at hle
    exact ⟨Nat.lt_of_le_of_lt hle (by decide), hle'⟩
  | _ => cases hpays

theorem IsReserved.withVersion (ho : o.IsReserved) (version : Int) :
    IsReserved { o with version } := by
  obtain ⟨o₀, reservation, expiresAt, now, hplaced, last, ts, v, hts, rfl⟩ := ho
  exact ⟨o₀, reservation, expiresAt, now, hplaced, last, ts, version, hts, rfl⟩

/-! ## Along a history -/

namespace History

theorem nil : History [] where
  version h := by cases h
  first h := by cases h
  next h := by cases h

/-- A value of a longer history is one of before, or the one that was added. -/
private theorem getElem?_concat {x : Order} (hi : (h ++ [x])[i]? = some o) :
    h[i]? = some o ∨ i = h.length ∧ o = x := by
  rw [List.getElem?_append] at hi
  split at hi
  · exact .inl hi
  · have hlast : i - h.length = 0 := by
      obtain ⟨hlt, -⟩ := List.getElem?_eq_some_iff.1 hi
      simpa using hlt
    rw [hlast] at hi
    cases hi
    exact .inr ⟨by omega, rfl⟩

/-- A history goes on with what accepted actions make of its last value. -/
theorem append (hh : History h) (hversion : o'.version = h.length + 1)
    (hfirst : h = [] → o'.IsReserved)
    (hnext : ∀ {o}, h.getLast? = some o → ∃ as, as ≠ [] ∧ o.LeadsTo as o') :
    History (h ++ [o']) where
  version {i o} hi := by
    rcases getElem?_concat hi with hi | ⟨rfl, rfl⟩
    · exact hh.version hi
    · exact hversion
  first {o} hi := by
    rcases getElem?_concat hi with hi | ⟨hlen, rfl⟩
    · exact hh.first hi
    · exact hfirst (List.eq_nil_of_length_eq_zero hlen.symm)
  next {i o x} hi hx := by
    rcases getElem?_concat hx with hx | ⟨hlen, rfl⟩
    · rcases getElem?_concat hi with hi | ⟨rfl, -⟩
      · exact hh.next hi hx
      · obtain ⟨hlt, -⟩ := List.getElem?_eq_some_iff.1 hx
        omega
    · rcases getElem?_concat hi with hi | ⟨rfl, -⟩
      · refine hnext ?_
        rw [List.getLast?_eq_getElem?, ← hlen]
        exact hi
      · omega

theorem version_of_getLast? (hh : History h) (hlast : h.getLast? = some o) :
    o.version = h.length := by
  rw [List.getLast?_eq_getElem?] at hlast
  obtain ⟨hlt, -⟩ := List.getElem?_eq_some_iff.1 hlast
  have hversion := hh.version hlast
  omega

theorem version_ne_zero (hh : History h) (ho : o ∈ h) : o.version ≠ 0 := by
  obtain ⟨i, hi⟩ := List.getElem?_of_mem ho
  have hversion := hh.version hi
  omega

/-- Who has a value of the current version has the current value. -/
theorem eq_of_version_eq (hh : History h) (ho : o ∈ h) (hlast : h.getLast? = some o')
    (hversion : o.version = o'.version) : o = o' := by
  obtain ⟨i, hi⟩ := List.getElem?_of_mem ho
  have hi' := hh.version hi
  have hlast' := hh.version_of_getLast? hlast
  have heq : i = h.length - 1 := by omega
  rw [heq, ← List.getLast?_eq_getElem?, hlast] at hi
  exact (Option.some.inj hi).symm

theorem samePlacement (hh : History h) (hi : h[i]? = some o) (hfirst : h[0]? = some o') :
    SamePlacement o' o := by
  induction i generalizing o with
  | zero =>
    rw [hfirst] at hi
    cases hi
    exact .refl _
  | succ i ih =>
    obtain ⟨hlt, -⟩ := List.getElem?_eq_some_iff.1 hi
    have hget : h[i]? = some h[i] := List.getElem?_eq_getElem (by omega)
    obtain ⟨as, -, hl⟩ := hh.next hget hi
    exact (ih hget).trans hl.samePlacement

theorem samePlacement_of_mem (hh : History h) (ho : o ∈ h) (ho' : o' ∈ h) : SamePlacement o o' := by
  obtain ⟨i, hi⟩ := List.getElem?_of_mem ho
  obtain ⟨j, hj⟩ := List.getElem?_of_mem ho'
  obtain ⟨hlt, -⟩ := List.getElem?_eq_some_iff.1 hi
  have hfirst : h[0]? = some h[0] := List.getElem?_eq_getElem (by omega)
  exact (hh.samePlacement hi hfirst).symm.trans (hh.samePlacement hj hfirst)

theorem rank_lt (hh : History h) (hij : i < j) (hi : h[i]? = some o) (hj : h[j]? = some o') :
    o.status.rank < o'.status.rank := by
  induction j generalizing o' with
  | zero => exact absurd hij (Nat.not_lt_zero i)
  | succ j ih =>
    obtain ⟨hlt, -⟩ := List.getElem?_eq_some_iff.1 hj
    have hget : h[j]? = some h[j] := List.getElem?_eq_getElem (by omega)
    obtain ⟨as, hne, hl⟩ := hh.next hget hj
    have hstep := hl.rank_lt hne
    by_cases heq : i = j
    · subst heq
      rw [hi] at hget
      cases hget
      exact hstep
    · have hlt := ih (by omega) hget
      omega

/-- Nothing follows a final status. -/
theorem last_of_isTerminal (hh : History h) (hi : h[i]? = some o)
    (hterminal : o.status.isTerminal = true) : i + 1 = h.length := by
  obtain ⟨hlt, -⟩ := List.getElem?_eq_some_iff.1 hi
  refine Decidable.byContradiction fun hne => ?_
  have hget : h[i + 1]? = some h[i + 1] := List.getElem?_eq_getElem (by omega)
  have hrank := hh.rank_lt (Nat.lt_succ_self i) hi hget
  have hmost := Status.rank_le h[i + 1].status
  rw [Status.rank_of_isTerminal hterminal] at hrank
  omega

/-- An order is called off once at most. -/
theorem callsOff_unique (hh : History h) {as bs : List (Action × Instant)} (hi : Commits h i as)
    (hj : Commits h j bs) (ha : as.any fun a => a.1.callsOff) (hb : bs.any fun b => b.1.callsOff) :
    i = j := by
  have apart : ∀ {i j as bs}, Commits h i as → Commits h j bs → (as.any fun a => a.1.callsOff) →
      ¬i < j := by
    intro i j as bs hi hj ha hij
    obtain ⟨o, o', ho, ho', hl⟩ := hi
    obtain ⟨x, x', hx, hx', -⟩ := hj
    obtain ⟨⟨a, t⟩, hmem, hoff⟩ := List.any_eq_true.1 ha
    have hended := hl.rank_of_callsOff hmem hoff
    have hlater := hh.rank_lt (Nat.succ_lt_succ hij) ho' hx'
    have hmost := x'.status.rank_le
    omega
  have := apart hi hj ha
  have := apart hj hi hb
  omega

/-- A payment is completed once at most. -/
theorem completesPayment_unique (hh : History h) {as bs : List (Action × Instant)}
    (hi : Commits h i as) (hj : Commits h j bs) (ha : as.any fun a => a.1.completesPayment)
    (hb : bs.any fun b => b.1.completesPayment) : i = j := by
  have apart : ∀ {i j as bs}, Commits h i as → Commits h j bs →
      (as.any fun a => a.1.completesPayment) → (bs.any fun b => b.1.completesPayment) → ¬i < j := by
    intro i j as bs hi hj ha hb hij
    obtain ⟨o, o', ho, ho', hl⟩ := hi
    obtain ⟨x, x', hx, hx', hl'⟩ := hj
    obtain ⟨⟨a, t⟩, hmem, hpays⟩ := List.any_eq_true.1 ha
    obtain ⟨⟨b, t'⟩, hmem', hpays'⟩ := List.any_eq_true.1 hb
    have hpaid := (hl.rank_of_completesPayment hmem hpays).2
    have hunpaid := (hl'.rank_of_completesPayment hmem' hpays').1
    by_cases heq : i + 1 = j
    · subst heq
      rw [ho'] at hx
      cases hx
      omega
    · have hlater := hh.rank_lt (i := i + 1) (by omega) ho' hx
      omega
  have := apart hi hj ha hb
  have := apart hj hi hb ha
  omega

end History
end Order
end Fulfilment
