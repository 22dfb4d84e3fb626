import Fulfilment.Proofs.Stock.Reserving

/-!
# Forced conflicts

Conditional writes are made to fail so many times, and a counter is tried as often as the retry
budget says. All lines of a reservation draw on the same store of conflicts, but only the first line
can meet one: it is tried until the conflicts are used up or the budget is. So a script of a
reservation either makes no attempt at a write and `Spares` the conflicts, or its first line `Meets`
them, and what follows is the same as if there had been none, or nothing at all.
-/
namespace Fulfilment

open Script

namespace StockLine

/-! ## The least product -/

/-- Of the products that are asked for, this is the first by the bytes of its name. -/
structure Least (lines : List StockLine) (p : ProductId) : Prop where
  asked : ∃ line ∈ lines, line.product = p
  first : ∀ line ∈ lines, ¬ Text.bytes line.product.text < Text.bytes p.text

/-- The first merged line is of the least product. -/
theorem least_of_merge {lines rest : List StockLine} {line : StockLine}
    (h : merge lines = line :: rest) : Least lines line.product where
  asked := exists_mem_merge_iff.1 ⟨line, by simp [h], rfl⟩
  first := by
    intro asked hasked hlt
    obtain ⟨merged, hmerged, hproduct⟩ := exists_mem_merge_iff.2 ⟨asked, hasked, rfl⟩
    have hsorted := pairwise_merge lines
    rw [h] at hsorted hmerged
    rw [← hproduct, ← ProductId.compare_eq_lt_iff] at hlt
    rcases List.mem_cons.1 hmerged with rfl | hmerged
    · simp [Std.ReflOrd.compare_self] at hlt
    · have hgt := List.rel_of_pairwise_cons hsorted hmerged
      simp [Std.OrientedCmp.gt_of_lt hgt] at hlt

theorem merge_ne_nil {lines : List StockLine} (h : lines ≠ []) : merge lines ≠ [] := by
  obtain ⟨line, hline⟩ := List.exists_mem_of_ne_nil lines h
  obtain ⟨merged, hmerged, -⟩ := exists_mem_merge_iff.2 ⟨line, hline, rfl⟩
  exact List.ne_nil_of_mem hmerged

end StockLine

namespace Stock

/-- The call tries to write a counter, unless someone else has. -/
def Call.isAttempt : Call → Bool
  | .compareAndSet .. => true
  | _ => false

/-- Run alone, the script tries to write a counter. -/
def Attempts {α : Type} (p : Script calls α) (now : Instant) (l : Ledger) : Prop :=
  ∃ e ∈ p.transcript (answer now) l, e.request.isAttempt = true

end Stock

namespace Ledger

/-- The ledger whose next `k` conditional writes fail. -/
def forcing (l : Ledger) (k : Nat) : Ledger := { l with forcedConflicts := k }

variable {l : Ledger} {k : Nat}

@[simp] theorem forcing_forcing (l : Ledger) (j k : Nat) :
    (l.forcing j).forcing k = l.forcing k := rfl

@[simp] theorem level?_forcing (p : ProductId) : (l.forcing k).level? p = l.level? p := rfl

/-- Without forced conflicts a counter is written at the revision that was just read. -/
theorem compareAndSet_forcing_zero {p : ProductId} {level : StockLevel}
    (h : l.level? p = some level) (available : Int) :
    (l.forcing 0).compareAndSet p level.revision available =
      (true, (l.write p available).forcing 0) := by
  have hforced : (l.forcing 0).forcedConflicts = 0 := rfl
  simp only [compareAndSet, hforced, level?_forcing, h, if_true]
  rfl

theorem compareAndSet_forcing_succ (p : ProductId) (revision : Nat) (available : Int) :
    (l.forcing (k + 1)).compareAndSet p revision available = (false, l.forcing k) := rfl

theorem getHold_forcing (now : Instant) (id : ReservationId) :
    (l.forcing k).getHold now id = ((l.getHold now id).1, (l.getHold now id).2.forcing k) := by
  have hrecord : (l.forcing k).holds = l.holds := rfl
  simp only [getHold, hrecord]
  split
  · split <;> rfl
  · rfl

/-- If no hold is found, the reservation has no record from then on, and the one that it had is past
its deadline. -/
theorem getHold_of_none {now : Instant} {id : ReservationId} (h : (l.getHold now id).1 = none) :
    (l.getHold now id).2 = l.withoutRecord id ∧
      ∀ held, l.holds.get? id = some held → held.expiresAt ≤ now := by
  unfold getHold at h ⊢
  cases hrecord : l.holds.get? id with
  | none => simp [withoutRecord, Table.erase_of_get?_eq_none hrecord]
  | some held =>
    cases hlive : held.isLive now with
    | true => simp [hrecord, hlive] at h
    | false =>
      have hdue : held.expiresAt ≤ now := by
        simpa [Hold.isLive, Instant.lt_iff, Instant.le_iff] using hlive
      simp [hlive, withoutRecord, hdue]

/-- The product is covered exactly if something can be left of its counter. -/
theorem covers_iff_of_level? {p : ProductId} {level : StockLevel} (h : l.level? p = some level)
    (q : UInt32) :
    l.Covers p q.toNat ↔
      Counter.remainder? level.available q = some (l.stockOf p - q.toNat) := by
  have hknown : l.available? p = some level.available := by simp [available?, h]
  have hstock : l.stockOf p = level.available := by simp [stockOf, hknown]
  simp only [Covers, hknown, hstock, Counter.remainder?]
  split <;> simp_all

theorem Covers.exists_level {p : ProductId} {n : Nat} (h : l.Covers p n) :
    ∃ level, l.level? p = some level := by
  obtain ⟨available, hknown, -⟩ := h
  obtain ⟨level, hlevel, -⟩ := Option.map_eq_some_iff.1 hknown
  exact ⟨level, hlevel⟩

end Ledger

/-! ## Scripts and conflicts -/

namespace Script

open Stock

variable {α β : Type} {now : Instant} {l g m : Ledger} {n : Nat}

/-- However many conflicts are forced, the script tries no write and leaves them as they are. -/
structure Spares (p : Script calls α) (now : Instant) (l : Ledger) (r : α) (m : Ledger) : Prop where
  quiet : ¬ Attempts p now (l.forcing 0)
  run : ∀ k, p.run (answer now) (l.forcing k) = (r, m.forcing k)

/-- The first write that the script tries is tried up to `n` times. As long as it succeeds, nothing
tells how many conflicts there were, and otherwise the script ends like this. -/
structure Meets (n : Nat) (p : Script calls α) (now : Instant) (l : Ledger) (r : α) (m : Ledger) :
    Prop where
  attempts : Attempts p now (l.forcing 0)
  hidden : ∀ k < n, p.run (answer now) (l.forcing k) = p.run (answer now) (l.forcing 0)
  shown : ∀ k, n ≤ k → p.run (answer now) (l.forcing k) = (r, m.forcing (k - n))

variable {p : Script calls α} {f : α → Script calls β} {a : α} {r : β}

theorem attempts_bind :
    Attempts (p >>= f) now l ↔
      Attempts p now l ∨ Attempts (f (p.run (answer now) l).1) now (p.run (answer now) l).2 := by
  simp [Attempts, or_and_right, exists_or]

theorem spares_done (a : α) (l : Ledger) : (Script.done a).Spares now l a l where
  quiet := by simp [Attempts]
  run _ := rfl

theorem Spares.bind (hp : p.Spares now l a g) (hf : (f a).Spares now g r m) :
    (p >>= f).Spares now l r m where
  quiet := by
    rw [attempts_bind, hp.run]
    exact not_or.2 ⟨hp.quiet, hf.quiet⟩
  run k := by rw [run_bind, hp.run, hf.run]

theorem Spares.bind_meets (hp : p.Spares now l a g) (hf : (f a).Meets n now g r m) :
    (p >>= f).Meets n now l r m where
  attempts := by
    rw [attempts_bind, hp.run]
    exact .inr hf.attempts
  hidden k hk := by rw [run_bind, run_bind, hp.run, hp.run, hf.hidden k hk]
  shown k hk := by rw [run_bind, hp.run, hf.shown k hk]

/-- A sequence that goes on after a refusal without trying to write. -/
theorem Meets.bind (hp : p.Meets n now l a g) (hf : (f a).Spares now g r m) :
    (p >>= f).Meets n now l r m where
  attempts := attempts_bind.2 (.inl hp.attempts)
  hidden k hk := by rw [run_bind, run_bind, hp.hidden k hk]
  shown k hk := by rw [run_bind, hp.shown k hk, hf.run]

theorem spares_level (p : ProductId) (l : Ledger) :
    (Stock.level p).Spares now l (l.level? p) l where
  quiet := by simp [Attempts, Stock.level, ask, Call.isAttempt]
  run _ := rfl

theorem spares_isOpen (store : StoreId) (l : Ledger) :
    (Stock.isOpen store).Spares now l (l.isOpen store) l where
  quiet := by simp [Attempts, Stock.isOpen, ask, Call.isAttempt]
  run _ := rfl

theorem spares_getHold (id : ReservationId) (l : Ledger) :
    (Stock.getHold id).Spares now l (l.getHold now id).1 (l.getHold now id).2 where
  quiet := by simp [Attempts, Stock.getHold, ask, Call.isAttempt]
  run _ := Ledger.getHold_forcing now id

end Script

namespace Reservation

open Stock Ledger

variable {now : Instant} {l : Ledger} {line : StockLine} {lines ls : List StockLine}
  {store : StoreId} {id : ReservationId}

/-! ## Counters -/

/-- What a refused line is answered with. -/
def shortage (l : Ledger) (line : StockLine) : StockError :=
  .insufficientStock line.product line.quantity (l.stockOf line.product)

/-- A counter that does not cover the line is read and left alone. -/
theorem spares_updateAfter (h : ¬ l.Covers line.product line.quantity.toNat) (made : Nat)
    (seen : Int) (left : Nat) :
    (Counter.updateAfter line.product (Counter.remainder? · line.quantity) made seen
      (left + 1)).Spares now l (.rejected (l.stockOf line.product)) l := by
  refine (spares_level line.product l).bind ?_
  cases hlevel : l.level? line.product with
  | none =>
    have hstock : l.stockOf line.product = 0 := by simp [stockOf, available?, hlevel]
    rw [hstock]
    exact spares_done _ l
  | some level =>
    have hstock : l.stockOf line.product = level.available := by
      simp [stockOf, available?, hlevel]
    have hnone : Counter.remainder? level.available line.quantity = none := by
      rw [covers_iff_of_level? hlevel, hstock, Counter.remainder?] at h
      rw [Counter.remainder?]
      split at h <;> simp_all
    simp only [hnone, hstock]
    exact spares_done _ l

section Covered

variable (h : l.Covers line.product line.quantity.toNat)

include h

/-- The next conflict is met, or the counter is written. -/
theorem run_updateAfter_succ (made : Nat) (seen : Int) (left k : Nat) :
    (Counter.updateAfter line.product (Counter.remainder? · line.quantity) made seen
        (left + 1)).run (answer now) (l.forcing k) =
      match k with
      | 0 => (.applied (l.stockOf line.product) (l.stockOf line.product - line.quantity.toNat)
          (made + 1),
          (l.write line.product (l.stockOf line.product - line.quantity.toNat)).forcing 0)
      | k + 1 =>
        (Counter.updateAfter line.product (Counter.remainder? · line.quantity) (made + 1)
          (l.stockOf line.product) left).run (answer now) (l.forcing k) := by
  obtain ⟨level, hlevel⟩ := h.exists_level
  have hstock : l.stockOf line.product = level.available := by simp [stockOf, available?, hlevel]
  have hnext := (covers_iff_of_level? hlevel line.quantity).1 h
  have hread : (Stock.level line.product).run (answer now) (l.forcing k) =
      (some level, l.forcing k) := Prod.ext hlevel rfl
  have hcas : ∀ available, (Stock.compareAndSet line.product level.revision available).run
      (answer now) (l.forcing k) =
        (l.forcing k).compareAndSet line.product level.revision available := fun _ => rfl
  rw [Counter.updateAfter, run_bind, hread]
  simp only [hnext]
  rw [run_bind, hcas]
  cases k with
  | zero =>
    rw [compareAndSet_forcing_zero hlevel, hstock]
    rfl
  | succ k =>
    rw [compareAndSet_forcing_succ, hstock]
    rfl

theorem run_updateAfter_of_lt {left k : Nat} (hk : k < left) (made : Nat) (seen : Int)
    (now : Instant) :
    ∃ attempts, (Counter.updateAfter line.product (Counter.remainder? · line.quantity) made seen
        left).run (answer now) (l.forcing k) =
      (.applied (l.stockOf line.product) (l.stockOf line.product - line.quantity.toNat) attempts,
        (l.write line.product (l.stockOf line.product - line.quantity.toNat)).forcing 0) := by
  induction k generalizing left made seen with
  | zero =>
    obtain ⟨left, rfl⟩ := Nat.exists_eq_add_one.2 hk
    exact ⟨_, run_updateAfter_succ h made seen left 0⟩
  | succ k ih =>
    obtain ⟨left, rfl⟩ := Nat.exists_eq_add_one.2 (Nat.lt_of_le_of_lt (Nat.zero_le _) hk)
    rw [run_updateAfter_succ h]
    exact ih (Nat.lt_of_succ_lt_succ hk) _ _

/-- As many conflicts as attempts use up all of these. -/
theorem run_updateAfter_of_le {left k : Nat} (hk : left + 1 ≤ k) (made : Nat) (seen : Int)
    (now : Instant) :
    ∃ attempts, (Counter.updateAfter line.product (Counter.remainder? · line.quantity) made seen
        (left + 1)).run (answer now) (l.forcing k) =
      (.exhausted attempts (l.stockOf line.product), l.forcing (k - (left + 1))) := by
  obtain ⟨k, rfl⟩ := Nat.exists_eq_add_one.2 (Nat.lt_of_lt_of_le left.succ_pos hk)
  induction left generalizing k made seen with
  | zero => exact ⟨made + 1, run_updateAfter_succ h made seen 0 (k + 1)⟩
  | succ left ih =>
    obtain ⟨k, rfl⟩ := Nat.exists_eq_add_one.2 (Nat.lt_of_lt_of_le left.succ_pos
      (Nat.le_of_succ_le_succ hk))
    rw [run_updateAfter_succ h, Nat.add_sub_add_right]
    exact ih _ _ k (Nat.le_of_succ_le_succ hk)

theorem attempts_updateAfter (made : Nat) (seen : Int) (left : Nat) :
    Attempts (Counter.updateAfter line.product (Counter.remainder? · line.quantity) made seen
      (left + 1)) now l := by
  obtain ⟨level, hlevel⟩ := h.exists_level
  have hnext := (covers_iff_of_level? hlevel line.quantity).1 h
  have hread : (Stock.level line.product).run (answer now) l = (some level, l) :=
    Prod.ext hlevel rfl
  rw [Counter.updateAfter, attempts_bind, hread]
  simp only [hnext]
  rw [attempts_bind]
  exact .inr (.inl (by simp [Attempts, Stock.compareAndSet, ask, Call.isAttempt]))

/-- Taking a line that is covered meets the conflicts. -/
theorem meets_take (budget : RetryBudget) :
    (take budget line).Meets budget.attempts now l (.error (shortage l line)) l := by
  obtain ⟨left, hleft⟩ := Nat.exists_eq_add_one.2 budget.attempts_pos
  have hrun : ∀ k < budget.attempts, (take budget line).run (answer now) (l.forcing k) =
      (.ok (),
        (l.write line.product (l.stockOf line.product - line.quantity.toNat)).forcing 0) := by
    intro k hk
    obtain ⟨attempts, happlied⟩ := run_updateAfter_of_lt h hk 0 0 now
    rw [take, run_bind, Counter.update, happlied]
    rfl
  constructor
  · rw [take, attempts_bind, Counter.update, hleft]
    exact .inl (attempts_updateAfter (l := l.forcing 0) h 0 0 left)
  · intro k hk
    rw [hrun k hk, hrun 0 budget.attempts_pos]
  · intro k hk
    rw [hleft] at hk
    obtain ⟨attempts, hexhausted⟩ := run_updateAfter_of_le h hk 0 0 now
    rw [take, run_bind, Counter.update, hleft, hexhausted]
    rfl

end Covered

theorem spares_take (h : ¬ l.Covers line.product line.quantity.toNat) (budget : RetryBudget) :
    (take budget line).Spares now l (.error (shortage l line)) l := by
  obtain ⟨left, hleft⟩ := Nat.exists_eq_add_one.2 budget.attempts_pos
  rw [take, Counter.update, hleft]
  exact (spares_updateAfter h 0 0 left).bind (spares_done _ l)

/-! ## Reservations -/

/-- Of lines that are taken in turn the first one meets the conflicts, if it is covered. -/
theorem meets_takeAll (h : l.Covers line.product line.quantity.toNat) (budget : RetryBudget)
    (ls : List StockLine) :
    (takeAll budget [] (line :: ls)).Meets budget.attempts now l (.error (shortage l line)) l :=
  (meets_take h budget).bind (spares_done _ l)

theorem spares_takeAll (h : ¬ l.Covers line.product line.quantity.toNat) (budget : RetryBudget)
    (ls : List StockLine) :
    (takeAll budget [] (line :: ls)).Spares now l (.error (shortage l line)) l :=
  (spares_take h budget).bind (spares_done _ l)

/-- The request is answered before any counter is written: it is invalid, or a hold answers it, or
the store is closed, or the ledger has not enough of the least product that is asked for. -/
inductive Forestalled (l : Ledger) (now : Instant) (store : StoreId) (lines : List StockLine)
    (id : ReservationId) : Prop where
  | invalid {e : StockError} (objected : objection lines = some e)
  | replayed {held : Hold} (found : (l.getHold now id).1 = some held)
  | closed (closed : l.isOpen store = false)
  | short {p : ProductId} (least : StockLine.Least lines p)
      (short : ¬ l.Covers p (StockLine.quantityOf p lines % 2 ^ 32))

/-- A reservation is forestalled and spares the conflicts, or meets them with the line of its least
product. -/
theorem reserve_spares_or_meets (budget : RetryBudget) (store : StoreId) (lines : List StockLine)
    (id : ReservationId) (ttl : Span) (now : Instant) (l : Ledger) :
    (Forestalled l now store lines id ∧
        ∃ r m, (reserve budget store lines id ttl).Spares now l r m) ∨
      (∀ held, l.holds.get? id = some held → held.expiresAt ≤ now) ∧
        ∃ p total, StockLine.Least lines p ∧
          total.toNat = StockLine.quantityOf p lines % 2 ^ 32 ∧
          (reserve budget store lines id ttl).Meets budget.attempts now l
            (.answered (.error (.insufficientStock p total (l.stockOf p))))
            (l.withoutRecord id) := by
  unfold reserve
  cases hobjection : objection lines with
  | some e => exact .inl ⟨.invalid hobjection, _, _, spares_done _ l⟩
  | none =>
    have hget : (Stock.getHold id).Spares now l _ _ := spares_getHold id l
    cases hfound : (l.getHold now id).1 with
    | some held =>
      rw [hfound] at hget
      exact .inl ⟨.replayed hfound, _, _, hget.bind (spares_done _ _)⟩
    | none =>
      obtain ⟨hrest, hdue⟩ := getHold_of_none hfound
      rw [hfound, hrest] at hget
      have hopen : (Stock.isOpen store).Spares now (l.withoutRecord id) _ _ :=
        spares_isOpen store (l.withoutRecord id)
      cases hstore : l.isOpen store with
      | false =>
        rw [show (l.withoutRecord id).isOpen store = false from hstore] at hopen
        exact .inl ⟨.closed hstore, _, _, hget.bind (hopen.bind (spares_done _ _))⟩
      | true =>
        rw [show (l.withoutRecord id).isOpen store = true from hstore] at hopen
        obtain ⟨line, rest, hmerge⟩ := List.exists_cons_of_ne_nil
          (StockLine.merge_ne_nil (objection_eq_none_iff.1 hobjection).1)
        have hleast := StockLine.least_of_merge hmerge
        have htotal : line.quantity.toNat =
            StockLine.quantityOf line.product lines % 2 ^ 32 := by
          rw [← StockLine.quantityOf_merge]
          exact StockLine.quantity_of_mem_merge (by simp [hmerge])
        by_cases hcovers : (l.withoutRecord id).Covers line.product line.quantity.toNat
        · have hmeets : (takeAll budget [] (line :: rest)).Meets _ now _ _ _ :=
            meets_takeAll hcovers budget rest
          rw [hmerge]
          exact .inr ⟨hdue, line.product, line.quantity, hleast, htotal,
            hget.bind_meets (hopen.bind_meets (hmeets.bind (spares_done _ _)))⟩
        · have hspares : (takeAll budget [] (line :: rest)).Spares now _ _ _ :=
            spares_takeAll hcovers budget rest
          rw [hmerge]
          exact .inl ⟨.short hleast (htotal ▸ hcovers), _, _,
            hget.bind (hopen.bind (hspares.bind (spares_done _ _)))⟩

end Reservation

namespace Ledger

/-- **Forced conflicts are not seen up to the retry budget.**

Take a reservation on any ledger, and compare what it ends with when so many conditional writes are
made to fail with what it ends with when none is. Fewer failures than the budget has attempts make
no difference to the answer, nor to the ledger but for the failures that are left. With as many or
more it depends on whether a write is tried without failures. If none is, the request is forestalled
and ends the same, with all failures left. Otherwise the first product is refused with its stock as
it is, nothing has changed but that the record of the same reservation, past its deadline, is
dropped, and as many failures are used up as there were attempts. It does not matter whether
increments succeed.
-/
theorem conflicts_are_hidden_within_budget (l : Ledger) (budget : RetryBudget) (store : StoreId)
    (lines : List StockLine) (id : ReservationId) (ttl : Span) (now : Instant) :
    let reserving := Reservation.reserve budget store lines id ttl
    let outcome := fun k => reserving.run (Stock.answer now) (l.forcing k)
    (∀ k < budget.attempts,
      (outcome k).1 = (outcome 0).1 ∧ (outcome k).2.forcing 0 = (outcome 0).2.forcing 0) ∧
    ∀ k, budget.attempts ≤ k →
      (¬ Stock.Attempts reserving now (l.forcing 0) →
        Reservation.Forestalled l now store lines id ∧
          outcome k = ((outcome 0).1, (outcome 0).2.forcing k)) ∧
      (Stock.Attempts reserving now (l.forcing 0) →
        (∀ held, l.holds.get? id = some held → held.expiresAt ≤ now) ∧
          ∃ p total, StockLine.Least lines p ∧
            total.toNat = StockLine.quantityOf p lines % 2 ^ 32 ∧
            outcome k = (.answered (.error (.insufficientStock p total (l.stockOf p))),
              (l.withoutRecord id).forcing (k - budget.attempts))) := by
  intro reserving outcome
  rcases Reservation.reserve_spares_or_meets budget store lines id ttl now l with
    ⟨hforestalled, r, m, hspares⟩ | ⟨hdue, p, total, hleast, htotal, hmeets⟩
  · have houtcome : ∀ k, outcome k = (r, m.forcing k) := hspares.run
    refine ⟨fun k _ => ?_, fun k _ => ⟨fun _ => ?_, fun htries => absurd htries hspares.quiet⟩⟩
    · simp [houtcome]
    · simp [houtcome, hforestalled]
  · refine ⟨fun k hk => ?_, fun k hk => ⟨fun hquiet => absurd hmeets.attempts hquiet, fun _ => ?_⟩⟩
    · have hsame : outcome k = outcome 0 := hmeets.hidden k hk
      simp [hsame]
    · exact ⟨hdue, p, total, hleast, htotal, hmeets.shown k hk⟩

/-- Four of five widgets are reserved if two writes fail and three are tried. If three fail the
widgets are refused, with five in stock, and a fourth failure is left. -/
theorem widgets_are_reserved_despite_conflicts :
    let outcome := fun k =>
      (Reservation.reserve (.ofNat 3) ⟨"store"⟩ fourWidgets ⟨"first"⟩ (.ofMinutes 15)).run
        (Stock.answer (.ofSecond 0)) (Stock.fiveWidgets.forcing k)
    (outcome 2).1 = .answered (.ok
        ⟨⟨"first"⟩, ⟨"store"⟩, [⟨⟨"widget"⟩, 4⟩], .ofSecond 0, .ofSecond 900⟩) ∧
      outcome 4 = (.answered (.error (.insufficientStock ⟨"widget"⟩ 4 5)),
        (Stock.fiveWidgets.withoutRecord ⟨"first"⟩).forcing 1) := by
  intro outcome
  obtain ⟨hhidden, hshown⟩ := conflicts_are_hidden_within_budget Stock.fiveWidgets (.ofNat 3)
    ⟨"store"⟩ fourWidgets ⟨"first"⟩ (.ofMinutes 15) (.ofSecond 0)
  have hreserved : (outcome 0).1 = .answered (.ok
      ⟨⟨"first"⟩, ⟨"store"⟩, [⟨⟨"widget"⟩, 4⟩], .ofSecond 0, .ofSecond 900⟩) := by decide +kernel
  have hattempts : Stock.Attempts (Reservation.reserve (.ofNat 3) ⟨"store"⟩ fourWidgets ⟨"first"⟩
      (.ofMinutes 15)) (.ofSecond 0) (Stock.fiveWidgets.forcing 0) :=
    List.any_eq_true.1 (by decide +kernel)
  have hsame : (outcome 2).1 = (outcome 0).1 := (hhidden 2 (by decide)).1
  obtain ⟨-, p, total, ⟨⟨line, hline, rfl⟩, -⟩, htotal, hrefused⟩ :=
    (hshown 4 (by decide)).2 hattempts
  have honly : ∀ line ∈ fourWidgets, line.product = ⟨"widget"⟩ := by decide
  rw [honly line hline] at htotal hrefused
  obtain rfl : total = 4 := UInt32.toNat_inj.1 htotal
  exact ⟨hsame.trans hreserved, hrefused⟩

end Ledger
end Fulfilment
