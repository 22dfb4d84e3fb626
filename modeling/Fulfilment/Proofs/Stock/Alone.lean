import Fulfilment.Proofs.Alone
import Fulfilment.Proofs.Stock.Index
import Fulfilment.Stock.Reservation

/-!
# Reservations one at a time

What the operations on reservations do while nobody else uses the ledger and increments succeed.
Counters are compared by lines: one ledger is `Above` another if it has these lines more in its
counters, and the same holds. Reserving takes its lines out of the counters and holds them, or
changes no counter and no hold; releasing undoes that. Lines that were taken come from products that
the ledger counts (`Drawn`), so giving them back leaves a ledger that differs from the first in the
revisions of its counters at most (`Alike`).
-/
namespace Fulfilment
namespace Ledger

/-- The counters of `l` have these lines more than those of `m`, and the holds are the same. -/
structure Above (l m : Ledger) (ls : List StockLine) : Prop where
  stock : ∀ p, l.stockOf p = m.stockOf p + StockLine.quantityOf p ls
  holds : m.holds = l.holds
  index : m.index = l.index
  deadlines : m.deadlines = l.deadlines
  increments : m.incrementsFail = l.incrementsFail

variable {l m n : Ledger} {ls ms : List StockLine}

theorem Above.refl (l : Ledger) : l.Above l [] := ⟨fun p => by simp, rfl, rfl, rfl, rfl⟩

theorem Above.trans (h : l.Above m ls) (h' : m.Above n ms) : l.Above n (ls ++ ms) where
  stock p := by
    rw [h.stock, h'.stock, StockLine.quantityOf_append]
    omega
  holds := h'.holds.trans h.holds
  index := h'.index.trans h.index
  deadlines := h'.deadlines.trans h.deadlines
  increments := h'.increments.trans h.increments

theorem Above.comm (h : l.Above m (ls ++ ms)) : l.Above m (ms ++ ls) where
  stock p := by
    rw [h.stock, StockLine.quantityOf_append, StockLine.quantityOf_append, Nat.add_comm]
  holds := h.holds
  index := h.index
  deadlines := h.deadlines
  increments := h.increments

/-- Lines count as they do before they are merged. -/
theorem Above.of_merge (h : l.Above m (StockLine.merge ls)) (hfits : StockLine.Fits ls) :
    l.Above m ls where
  stock p := by rw [h.stock, hfits.quantityOf_merge]
  holds := h.holds
  index := h.index
  deadlines := h.deadlines
  increments := h.increments

/-- Two ledgers above a third by the same lines agree. -/
theorem Above.cancel (h : l.Above m ls) (h' : n.Above m ls) : l.Above n [] where
  stock p := by
    rw [h.stock, h'.stock, StockLine.quantityOf_nil]
    omega
  holds := h'.holds.symm.trans h.holds
  index := h'.index.symm.trans h.index
  deadlines := h'.deadlines.symm.trans h.deadlines
  increments := h'.increments.symm.trans h.increments

theorem Above.with_conflicts (h : l.Above m ls) (n : Nat) :
    l.Above { m with forcedConflicts := n } ls :=
  ⟨h.stock, h.holds, h.index, h.deadlines, h.increments⟩

theorem Above.listed?_eq (h : l.Above m ls) (id : ReservationId) : m.listed? id = l.listed? id := by
  rw [listed?, listed?, h.deadlines, h.index]

theorem Above.consistent (h : l.Above m ls) (c : l.Consistent) : m.Consistent :=
  c.of_eq h.holds h.index h.deadlines

/-- A counter that is raised by a quantity has the line more. -/
theorem above_write (l : Ledger) {p : ProductId} {q : UInt32} {available : Int}
    (h : available = l.stockOf p + q.toNat) : (l.write p available).Above l [⟨p, q⟩] where
  stock r := by
    rw [stockOf_write]
    by_cases hr : p = r
    · subst hr
      simp [h]
    · simp [hr, Ne.symm hr]
  holds := rfl
  index := rfl
  deadlines := rfl
  increments := rfl

/-- A counter that is lowered by a quantity had the line more. -/
theorem above_of_write (l : Ledger) {p : ProductId} {q : UInt32} {available : Int}
    (h : l.stockOf p = available + q.toNat) : l.Above (l.write p available) [⟨p, q⟩] where
  stock r := by
    rw [stockOf_write]
    by_cases hr : p = r
    · subst hr
      simp [h]
    · simp [hr, Ne.symm hr]
  holds := rfl
  index := rfl
  deadlines := rfl
  increments := rfl

/-- Written at the revision that was just read, a counter takes the value, or the write is made to
fail. -/
theorem compareAndSet_cases {p : ProductId} {level : StockLevel} (h : l.level? p = some level)
    (available : Int) :
    l.compareAndSet p level.revision available = (true, l.write p available) ∨
      ∃ n, l.compareAndSet p level.revision available =
        (false, { l with forcedConflicts := n }) := by
  unfold compareAndSet
  split
  · exact .inr ⟨_, rfl⟩
  · rw [h]
    exact .inl (if_pos rfl)

/-! ## Giving lines back -/

/-- The ledger after these lines were given back. -/
def deposit (l : Ledger) : List StockLine → Ledger
  | [] => l
  | line :: ls => (l.write line.product (l.stockOf line.product + line.quantity.toNat)).deposit ls

/-- Lines that were given back are in the counters. -/
theorem deposit_above (l : Ledger) (ls : List StockLine) : (l.deposit ls).Above l ls := by
  induction ls generalizing l with
  | nil => exact .refl l
  | cons line ls ih => exact ((ih _).trans (l.above_write rfl)).comm

theorem isSome_available?_write {p : ProductId} (h : (l.available? p).isSome = true)
    (available : Int) (r : ProductId) :
    ((l.write p available).available? r).isSome = (l.available? r).isSome := by
  rw [available?_write]
  by_cases hr : r = p
  · simp [hr, h]
  · simp [hr]

theorem isSome_available?_deposit (h : ∀ line ∈ ls, (l.available? line.product).isSome = true)
    (p : ProductId) : ((l.deposit ls).available? p).isSome = (l.available? p).isSome := by
  induction ls generalizing l with
  | nil => rfl
  | cons line ls ih =>
    obtain ⟨hline, hls⟩ := List.forall_mem_cons.1 h
    have hwrite := isSome_available?_write hline (l.stockOf line.product + line.quantity.toNat)
    rw [deposit, ih, hwrite]
    intro other hother
    rw [hwrite, hls other hother]

theorem openStores_deposit (l : Ledger) (ls : List StockLine) :
    (l.deposit ls).openStores = l.openStores := by
  induction ls generalizing l with
  | nil => rfl
  | cons line ls ih => exact ih _

theorem forcedConflicts_deposit (l : Ledger) (ls : List StockLine) :
    (l.deposit ls).forcedConflicts = l.forcedConflicts := by
  induction ls generalizing l with
  | nil => rfl
  | cons line ls ih => exact ih _

/-! ## Taking lines out -/

/-- `m` is `l` after these lines were taken out. They are of products that `l` counts. -/
structure Drawn (l m : Ledger) (ls : List StockLine) : Prop extends l.Above m ls where
  known : ∀ p, (m.available? p).isSome = (l.available? p).isSome
  counted : ∀ line ∈ ls, (l.available? line.product).isSome = true
  openStores : m.openStores = l.openStores

/-- The ledgers are the same but for revisions and the writes that are still made to fail. -/
structure Alike (l m : Ledger) : Prop where
  available : ∀ p, m.available? p = l.available? p
  openStores : m.openStores = l.openStores
  holds : m.holds = l.holds
  index : m.index = l.index
  deadlines : m.deadlines = l.deadlines
  increments : m.incrementsFail = l.incrementsFail

@[refl] theorem Alike.refl (l : Ledger) : l.Alike l := ⟨fun _ => rfl, rfl, rfl, rfl, rfl, rfl⟩

namespace Drawn

theorem refl (l : Ledger) : l.Drawn l [] := ⟨.refl l, fun _ => rfl, nofun, rfl⟩

theorem with_conflicts (h : l.Drawn m ls) (n : Nat) :
    l.Drawn { m with forcedConflicts := n } ls :=
  ⟨h.toAbove.with_conflicts n, h.known, h.counted, h.openStores⟩

theorem write (h : l.Drawn m ls) {p : ProductId} {q : UInt32} {available : Int}
    (hp : (m.available? p).isSome = true) (hq : m.stockOf p = available + q.toNat) :
    l.Drawn (m.write p available) (ls ++ [⟨p, q⟩]) where
  toAbove := h.toAbove.trans (m.above_of_write hq)
  known r := by rw [isSome_available?_write hp, h.known]
  counted := List.forall_mem_append.2 ⟨h.counted, List.forall_mem_singleton.2 (h.known p ▸ hp)⟩
  openStores := h.openStores

theorem deposit (h : l.Drawn m ls) : l.Drawn (m.deposit ls) [] where
  toAbove := h.toAbove.cancel (m.deposit_above ls)
  known p := by
    rw [isSome_available?_deposit, h.known]
    intro line hline
    rw [h.known, h.counted line hline]
  counted := nofun
  openStores := (m.openStores_deposit ls).trans h.openStores

theorem alike (h : l.Drawn m []) : l.Alike m where
  available p := by
    have hstock := h.stock p
    have hknown := h.known p
    simp only [stockOf, StockLine.quantityOf_nil] at hstock
    cases hm : m.available? p <;> cases hl : l.available? p <;> simp_all
  openStores := h.openStores
  holds := h.holds
  index := h.index
  deadlines := h.deadlines
  increments := h.increments

end Drawn

end Ledger

open Script

/-! ## Calls -/

namespace Stock

variable {l : Ledger} {now : Instant}

theorem yields_now {ends : Instant → Ledger → Prop} :
    Stock.now.Yields (Stock.answer now) ends l ↔ ends now l := Iff.rfl

theorem yields_level {p : ProductId} {ends : Option StockLevel → Ledger → Prop} :
    (Stock.level p).Yields (Stock.answer now) ends l ↔ ends (l.level? p) l := Iff.rfl

theorem yields_compareAndSet {p : ProductId} {revision : Nat} {available : Int}
    {ends : Bool → Ledger → Prop} :
    (Stock.compareAndSet p revision available).Yields (Stock.answer now) ends l ↔
      ends (l.compareAndSet p revision available).1 (l.compareAndSet p revision available).2 :=
  Iff.rfl

theorem yields_increment {p : ProductId} {q : UInt32}
    {ends : Except StockError Int → Ledger → Prop} :
    (Stock.increment p q).Yields (Stock.answer now) ends l ↔
      ends (l.increment p q).1 (l.increment p q).2 := Iff.rfl

theorem yields_isOpen {store : StoreId} {ends : Bool → Ledger → Prop} :
    (Stock.isOpen store).Yields (Stock.answer now) ends l ↔ ends (l.isOpen store) l := Iff.rfl

theorem yields_insertHold {h : Hold} {ends : Bool → Ledger → Prop} :
    (Stock.insertHold h).Yields (Stock.answer now) ends l ↔
      ends (l.insertHold h).1 (l.insertHold h).2 := Iff.rfl

theorem yields_getHold {id : ReservationId} {ends : Option Hold → Ledger → Prop} :
    (Stock.getHold id).Yields (Stock.answer now) ends l ↔
      ends (l.getHold now id).1 (l.getHold now id).2 := Iff.rfl

theorem yields_takeHold {id : ReservationId} {ends : Option Hold → Ledger → Prop} :
    (Stock.takeHold id).Yields (Stock.answer now) ends l ↔
      ends (l.takeHold id).1 (l.takeHold id).2 := Iff.rfl

theorem yields_expired {t : Instant} {limit : Nat} {ends : List ReservationId → Ledger → Prop} :
    (Stock.expired t limit).Yields (Stock.answer now) ends l ↔ ends (l.expired t limit) l := Iff.rfl

end Stock

namespace Reservation

open Stock

variable {l : Ledger} {now : Instant}

/-! ## Taking stock and giving it back -/

/-- Lowering a counter takes the line exactly if the write is applied. -/
theorem yields_updateAfter {l₀ : Ledger} {taken : List StockLine} (p : ProductId) (q : UInt32)
    (made : Nat) (seen : Int) (left : Nat) (h : l₀.Drawn l taken) :
    (Counter.updateAfter p (Counter.remainder? · q) made seen left).Yields (answer now)
      (fun o m => match o with
        | .applied .. => l₀.Drawn m (taken ++ [⟨p, q⟩])
        | _ => l₀.Drawn m taken) l := by
  induction left generalizing l made seen with
  | zero => exact h
  | succ left ih =>
    rw [Counter.updateAfter, yields_bind, yields_level]
    cases hlevel : l.level? p with
    | none => exact h
    | some level =>
      dsimp only
      cases hnext : Counter.remainder? level.available q with
      | none => exact h
      | some next =>
        have hknown : l.available? p = some level.available := by
          rw [Ledger.available?, hlevel, Option.map_some]
        have hstock : l.stockOf p = next + q.toNat := by
          have := (Counter.eq_of_remainder? hnext).1
          simp only [Ledger.stockOf, hknown, Option.getD_some]
          omega
        dsimp only
        rw [yields_bind, yields_compareAndSet]
        rcases Ledger.compareAndSet_cases hlevel next with hcas | ⟨n, hcas⟩
        · simp only [hcas, if_true]
          exact h.write (by simp [hknown]) hstock
        · simp only [hcas, Bool.false_eq_true, if_false]
          exact ih _ _ (h.with_conflicts n)

theorem yields_take {l₀ : Ledger} {taken : List StockLine} (budget : RetryBudget) (line : StockLine)
    (h : l₀.Drawn l taken) :
    (take budget line).Yields (answer now)
      (fun r m => match r with
        | .ok () => l₀.Drawn m (taken ++ [line])
        | .error _ => l₀.Drawn m taken) l := by
  refine yields_bind.2 ((yields_updateAfter _ _ 0 0 budget.attempts h).mono ?_)
  rintro (_ | _ | _) m hm <;> exact hm

theorem increment_eq (hinc : l.incrementsFail = false) (p : ProductId) (q : UInt32) :
    l.increment p q = (.ok (l.stockOf p + q.toNat), l.write p (l.stockOf p + q.toNat)) := by
  simp [Ledger.increment, hinc, Ledger.stockOf]

theorem yields_giveBack (ls : List StockLine) (hinc : l.incrementsFail = false) :
    (giveBack ls).Yields (answer now) (fun _ m => m = l.deposit ls) l := by
  induction ls generalizing l with
  | nil => rfl
  | cons line ls ih =>
    rw [giveBack, yields_bind, yields_increment, increment_eq hinc]
    exact ih hinc

/-- Taking several lines takes all of them, or none. -/
theorem yields_takeAll {l₀ : Ledger} {taken : List StockLine} (budget : RetryBudget)
    (ls : List StockLine) (hinc : l₀.incrementsFail = false) (h : l₀.Drawn l taken) :
    (takeAll budget taken ls).Yields (answer now)
      (fun r m => match r with
        | .ok () => l₀.Drawn m (taken ++ ls)
        | .error _ => l₀.Drawn m []) l := by
  induction ls generalizing l taken with
  | nil => exact (List.append_nil taken).symm ▸ h
  | cons line ls ih =>
    refine yields_bind.2 ((yields_take budget line h).mono ?_)
    intro result m hm
    cases result with
    | error e =>
      refine yields_bind.2 <|
        (yields_giveBack taken (hm.increments.trans hinc)).mono fun _ k hk => ?_
      subst hk
      exact hm.deposit
    | ok _ =>
      rw [List.append_cons]
      exact ih hm

theorem yields_restore (ls : List StockLine) (hinc : l.incrementsFail = false) :
    (restore ls).Yields (answer now) (fun r m => r = .ok () ∧ m = l.deposit ls) l := by
  induction ls generalizing l with
  | nil => exact ⟨rfl, rfl⟩
  | cons line ls ih =>
    rw [restore, yields_bind, yields_increment, increment_eq hinc]
    exact ih hinc

/-! ## Making and ending holds -/

/-- The lines of the hold of a reservation, if there is one. -/
def heldLines (l : Ledger) (id : ReservationId) : List StockLine :=
  (l.listed? id).elim [] Hold.lines

/-- Reserving an unknown reservation takes its lines and holds them, or does nothing. Without a
deadline on the calendar it takes its lines and breaks off, or does nothing. -/
theorem yields_reserve_of_unknown {id : ReservationId} (hid : l.Unknown id)
    (hinc : l.incrementsFail = false) (budget : RetryBudget) (store : StoreId)
    (lines : List StockLine) (ttl : Span) :
    (reserve budget store lines id ttl).Yields (answer now)
      (fun r m => match r with
        | .answered (.ok h) => ∃ deadline, now.add? ttl = some deadline ∧
            h = ⟨id, store, StockLine.merge lines, now, deadline⟩ ∧
            ∃ k, l.Drawn k h.lines ∧ m = k.withHold h
        | .answered (.error _) => l.Drawn m []
        | .brokeOff => now.add? ttl = none ∧ l.Drawn m (StockLine.merge lines)) l := by
  unfold reserve
  split
  · exact .refl l
  · rw [yields_bind, yields_getHold, Ledger.getHold_of_unknown hid]
    dsimp only
    rw [reserveNew, yields_bind, yields_isOpen]
    split
    · refine yields_bind.2 ((yields_takeAll budget _ hinc (.refl l)).mono ?_)
      intro result k hk
      cases result with
      | error e => exact hk
      | ok _ =>
        dsimp only
        rw [hold, yields_bind, yields_now]
        cases hdeadline : now.add? ttl with
        | none => exact ⟨rfl, hk⟩
        | some deadline =>
          have hfree : k.Unknown id := hid.of_eq hk.holds hk.index hk.deadlines
          have hadd : k.insertHold ⟨id, store, StockLine.merge lines, now, deadline⟩ =
              (true, k.withHold ⟨id, store, StockLine.merge lines, now, deadline⟩) :=
            Ledger.insertHold_of_unknown hfree
          dsimp only
          rw [yields_bind, yields_insertHold, hadd]
          exact ⟨deadline, rfl, rfl, k, hk, rfl⟩
    · exact .refl l

/-- Reserving a reservation that is not listed takes its lines and holds them, or does nothing.
Without a deadline on the calendar it takes its lines and breaks off, or does nothing. -/
theorem yields_reserve (c : l.Consistent) (hinc : l.incrementsFail = false) (budget : RetryBudget)
    (store : StoreId) {lines : List StockLine} (hfits : StockLine.Fits lines) {id : ReservationId}
    (hid : l.listed? id = none) (ttl : Span) :
    (reserve budget store lines id ttl).Yields (answer now)
      (fun r m => match r with
        | .answered (.ok h) => ∃ deadline, now.add? ttl = some deadline ∧
            h = ⟨id, store, StockLine.merge lines, now, deadline⟩ ∧
            ∃ k, l.Above k lines ∧ m = k.withHold h
        | .answered (.error _) => l.Above m []
        | .brokeOff => now.add? ttl = none ∧ l.Above m lines) l := by
  refine (yields_reserve_of_unknown (c.unknown hid) hinc budget store lines ttl).mono ?_
  intro result m hm
  match result with
  | .answered (.error e) => exact hm.toAbove
  | .answered (.ok h) =>
    obtain ⟨deadline, hdeadline, rfl, k, hk, rfl⟩ := hm
    exact ⟨deadline, hdeadline, rfl, k, hk.toAbove.of_merge hfits, rfl⟩
  | .brokeOff => exact ⟨hm.1, hm.2.toAbove.of_merge hfits⟩

/-- Settling ends the hold and says whether there was one. -/
theorem yields_settle (c : l.Consistent) (id : ReservationId) :
    (settle id).Yields (answer now)
      (fun r m => r = (l.listed? id).isSome ∧ m = l.withoutHold id) l := by
  rw [settle, yields_bind, yields_takeHold, Ledger.takeHold_eq c]
  exact ⟨rfl, rfl⟩

/-- Releasing ends the hold, gives its lines back, and says whether there was one. -/
theorem yields_release (c : l.Consistent) (hinc : l.incrementsFail = false) (id : ReservationId) :
    (release id).Yields (answer now)
      (fun r m => r = .ok (l.listed? id).isSome ∧
        m.Above (l.withoutHold id) (heldLines l id)) l := by
  rw [release, yields_bind, yields_takeHold, Ledger.takeHold_eq c, heldLines]
  cases hl : l.listed? id with
  | none => exact ⟨rfl, .refl _⟩
  | some h =>
    have hinc : (l.withoutHold id).incrementsFail = false := hinc
    refine yields_bind.2 ((yields_restore h.lines hinc).mono ?_)
    rintro _ m ⟨rfl, rfl⟩
    exact ⟨rfl, Ledger.deposit_above ..⟩

/-- Releasing a hold that was just made undoes its making. -/
theorem yields_release_of_unknown {l₀ : Ledger} {h : Hold} (hid : l₀.Unknown h.id)
    (hinc : l₀.incrementsFail = false) (hl : l₀.Drawn l h.lines) :
    (release h.id).Yields (answer now) (fun r m => r = .ok true ∧ l₀.Drawn m [])
      (l.withHold h) := by
  have hfree : l.Unknown h.id := hid.of_eq hl.holds hl.index hl.deadlines
  rw [release, yields_bind, yields_takeHold, Ledger.takeHold_withHold hfree]
  refine yields_bind.2 ((yields_restore h.lines (hl.increments.trans hinc)).mono ?_)
  rintro _ m ⟨rfl, rfl⟩
  exact ⟨rfl, hl.deposit⟩

/-! ## Sweeping -/

section Sweep

variable {motive : Ledger → Prop}

/-- What every release keeps, releasing one batch keeps. -/
theorem yields_sweepBatch
    (step : ∀ {l id}, motive l → (release id).Yields (answer now) (fun _ m => motive m) l)
    (report : SweepReport) (ids : List ReservationId) (h : motive l) :
    (sweepBatch report ids).Yields (answer now) (fun _ m => motive m) l := by
  induction ids generalizing l report with
  | nil => exact h
  | cons id ids ih =>
    refine yields_bind.2 ((step h).mono ?_)
    intro result m hm
    cases result with
    | error e => exact hm
    | ok given => exact ih _ hm

/-- What every release keeps, a sweep keeps, however many rounds there are. -/
theorem yields_sweepRounds
    (step : ∀ {l id}, motive l → (release id).Yields (answer now) (fun _ m => motive m) l)
    (batch : BatchSize) (t : Instant) (report : SweepReport) (rounds : Nat) (h : motive l) :
    (sweepRounds batch t report rounds).Yields (answer now) (fun _ m => motive m) l := by
  induction rounds generalizing l report with
  | zero => exact h
  | succ rounds ih =>
    rw [sweepRounds, yields_bind, yields_expired]
    refine yields_bind.2 ((yields_sweepBatch step report _ h).mono ?_)
    intro result m hm
    cases result with
    | error e => exact hm
    | ok report =>
      dsimp only
      split
      · exact hm
      · exact ih _ hm

end Sweep

end Reservation

/-- What every release keeps, sweeping the ledger keeps. -/
theorem Ledger.sweep_keeps {motive : Ledger → Prop} {now : Instant}
    (step : ∀ {l id}, motive l →
      (Reservation.release id).Yields (Stock.answer now) (fun _ m => motive m) l)
    {l : Ledger} (batch : BatchSize) (h : motive l) : motive (l.sweep now batch).2 :=
  Reservation.yields_sweepRounds step batch now {} (l.index.size + 1) h

end Fulfilment
