import Fulfilment.Proofs.Stock.Clearing
import Fulfilment.Proofs.Stock.Conflicts
import Fulfilment.Proofs.Stock.Sweeping

/-!
# What operations spend

By how much counters and holds have less after an operation that had the ledger to itself
(`Ledger.Spends`), whether increments succeed or fail. The amount is read off the exchanges of the
operation: the lines whose counters a reservation has written, and the holds that other operations
have taken.

While increments succeed, only settling spends anything, and a reservation that breaks off. While
they fail nothing can be given back. Then a reservation that is refused spends the lines that it had
taken by then, and a release spends its hold. A sweep stops at the first hold that it takes, so it
spends that one, the earliest of all.
-/
namespace Fulfilment

open Script

namespace Stock

/-- What an exchange takes out of a product's counter for a reservation of these lines. -/
def drawnBy (lines : List StockLine) (p : ProductId) : Exchange calls → Nat
  | ⟨.compareAndSet q _ _, true⟩ => if q = p then StockLine.quantityOf p lines else 0
  | _ => 0

/-- What some exchanges take out of a product's counter for a reservation of these lines. -/
def drawn (lines : List StockLine) (p : ProductId) (log : List (Exchange calls)) : Nat :=
  (log.map (drawnBy lines p)).sum

/-- The quantity of a product in the holds that were taken. -/
def takenOf (p : ProductId) (log : List (Exchange calls)) : Nat :=
  ((taken log).map fun h => StockLine.quantityOf p h.lines).sum

/-! ## Exchanges -/

section Drawn

variable {lines : List StockLine} {p : ProductId} {log : List (Exchange calls)}

@[simp] theorem drawn_nil : drawn lines p [] = 0 := rfl

@[simp] theorem drawn_cons (e : Exchange calls) :
    drawn lines p (e :: log) = drawnBy lines p e + drawn lines p log := by
  simp [drawn]

@[simp] theorem drawn_append (more : List (Exchange calls)) :
    drawn lines p (log ++ more) = drawn lines p log + drawn lines p more := by
  simp [drawn]

theorem drawnBy_of_not_isAttempt {e : Exchange calls} (h : ¬ e.request.isAttempt = true) :
    drawnBy lines p e = 0 := by
  obtain ⟨request, reply⟩ := e
  cases request <;> first | rfl | exact absurd rfl h

end Drawn

theorem drawn_transcript {α : Type} {q : Script calls α} {now : Instant} {l : Ledger}
    (h : ¬ Attempts q now l) (lines : List StockLine) (p : ProductId) :
    drawn lines p (q.transcript (answer now) l) = 0 := by
  refine List.sum_eq_zero fun n hn => ?_
  obtain ⟨e, he, rfl⟩ := List.mem_map.1 hn
  exact drawnBy_of_not_isAttempt fun hattempt => h ⟨e, he, hattempt⟩

variable {l : Ledger} {now : Instant}

theorem leaves_now {left : Instant → Ledger → List (Exchange calls) → Prop} :
    Stock.now.Leaves (answer now) left l ↔ left now l [⟨.now, now⟩] := Iff.rfl

theorem leaves_isOpen {store : StoreId} {left : Bool → Ledger → List (Exchange calls) → Prop} :
    (isOpen store).Leaves (answer now) left l ↔
      left (l.isOpen store) l [⟨.isOpen store, l.isOpen store⟩] := Iff.rfl

theorem leaves_increment {p : ProductId} {q : UInt32}
    {left : Except StockError Int → Ledger → List (Exchange calls) → Prop} :
    (increment p q).Leaves (answer now) left l ↔
      left (l.increment p q).1 (l.increment p q).2 [⟨.increment p q, (l.increment p q).1⟩] :=
  Iff.rfl

theorem leaves_getHold {id : ReservationId}
    {left : Option Hold → Ledger → List (Exchange calls) → Prop} :
    (getHold id).Leaves (answer now) left l ↔
      left (l.getHold now id).1 (l.getHold now id).2 [⟨.getHold id, (l.getHold now id).1⟩] :=
  Iff.rfl

theorem leaves_takeHold {id : ReservationId}
    {left : Option Hold → Ledger → List (Exchange calls) → Prop} :
    (takeHold id).Leaves (answer now) left l ↔
      left (l.takeHold id).1 (l.takeHold id).2 [⟨.takeHold id, (l.takeHold id).1⟩] := Iff.rfl

theorem leaves_expired {t : Instant} {limit : Nat}
    {left : List ReservationId → Ledger → List (Exchange calls) → Prop} :
    (expired t limit).Leaves (answer now) left l ↔
      left (l.expired t limit) l [⟨.expired t limit, l.expired t limit⟩] := Iff.rfl

end Stock

/-! ## What an operation spends -/

namespace Ledger

/-- The places of holds agree, and every hold has a line. -/
structure Tidy (l : Ledger) : Prop extends l.Consistent where
  lined : ∀ {e h}, l.index.get? e = some h → h.lines ≠ []

/-- The ledger `m` is tidy, and counters and holds have so much less there than in `l`. -/
structure Spends (l m : Ledger) (spent : ProductId → Nat) : Prop where
  tidy : m.Tidy
  balance : ∀ p, l.stockOf p + l.heldOf p = m.stockOf p + m.heldOf p + spent p

variable {l m n : Ledger} {id : ReservationId} {ls : List StockLine}
  {spent more : ProductId → Nat}

theorem tidy_of_empty (hh : l.holds = ∅) (hi : l.index = ∅) (hd : l.deadlines = ∅) : l.Tidy where
  toConsistent := consistent_of_empty hh hi hd
  lined he := by simp [hi] at he

theorem Tidy.of_fewer (t : l.Tidy) (c : m.Consistent)
    (h : ∀ {e r}, m.index.get? e = some r → l.index.get? e = some r) : m.Tidy where
  toConsistent := c
  lined he := t.lined (h he)

theorem Tidy.lines_ne_nil (t : l.Tidy) {h : Hold} (hl : l.listed? id = some h) : h.lines ≠ [] :=
  t.lined (t.listed?_eq_some_iff.1 hl).2

namespace Spends

theorem of_eq (t : l.Tidy) (c : m.Consistent) (hs : m.stock = l.stock) (hi : m.index = l.index) :
    l.Spends m fun _ => 0 where
  tidy := t.of_fewer c fun he => hi ▸ he
  balance p := by simp [stockOf, available?, level?, heldOf, hs, hi]

theorem refl (t : l.Tidy) : l.Spends l fun _ => 0 := .of_eq t t.toConsistent rfl rfl

theorem trans (h : l.Spends m spent) (h' : m.Spends n more) :
    l.Spends n fun p => spent p + more p where
  tidy := h'.tidy
  balance p := by
    have hfirst := h.balance p
    have hsecond := h'.balance p
    omega

theorem congr (h : l.Spends m spent) (heq : ∀ p, spent p = more p) : l.Spends m more :=
  (funext heq : spent = more) ▸ h

theorem of_above (t : l.Tidy) (h : l.Above m ls) :
    l.Spends m fun p => StockLine.quantityOf p ls where
  tidy := t.of_fewer (h.consistent t.toConsistent) fun he => h.index ▸ he
  balance p := by
    rw [h.stock, heldOf, heldOf, h.index]
    omega

/-- Lines that were taken out and are held are not spent. -/
theorem withHold (t : l.Tidy) {h : Hold} (habove : l.Above m h.lines) (hl : l.listed? h.id = none)
    (hlines : h.lines ≠ []) : l.Spends (m.withHold h) fun _ => 0 where
  tidy :=
    { toConsistent :=
        consistent_withHold (habove.consistent t.toConsistent) ((habove.listed?_eq h.id).trans hl)
      lined := by
        intro e r he
        by_cases heq : e = h.expiry
        · subst heq
          simp only [Ledger.withHold, Table.get?_insert_self, Option.some.injEq] at he
          exact he ▸ hlines
        · simp only [Ledger.withHold, Table.get?_insert_of_ne _ _ heq, habove.index] at he
          exact t.lined he }
  balance p := by
    have hheld := heldOf_withHold (habove.consistent t.toConsistent)
      ((habove.listed?_eq h.id).trans hl) p
    have hstock : (m.withHold h).stockOf p = m.stockOf p := rfl
    have hsame : m.heldOf p = l.heldOf p := by rw [heldOf, heldOf, habove.index]
    rw [hheld, hstock, hsame, habove.stock]
    omega

theorem withoutHold (t : l.Tidy) (id : ReservationId) :
    l.Spends (l.withoutHold id) fun p => StockLine.quantityOf p (Reservation.heldLines l id) where
  tidy := by
    refine t.of_fewer (consistent_withoutHold t.toConsistent id) fun {e r} he => ?_
    rw [index_get?_withoutHold t.toConsistent] at he
    split at he
    · cases he
    · exact he
  balance p := by
    have hstock : (l.withoutHold id).stockOf p = l.stockOf p := rfl
    cases hl : l.listed? id with
    | none => simp [Reservation.heldLines, hl, hstock, heldOf_withoutHold_of_none t.toConsistent hl]
    | some h =>
      simp only [Reservation.heldLines, hl, Option.elim_some, hstock,
        heldOf_withoutHold t.toConsistent hl]
      omega

theorem releasedAll (t : l.Tidy) (ids : List ReservationId) :
    l.Spends (l.releasedAll ids) fun _ => 0 where
  tidy := by
    refine t.of_fewer (t.toConsistent.releasedAll ids) fun {e r} he => ?_
    rw [(returned_releasedAll t.toConsistent ids).index, Table.get?_filter,
      Option.filter_eq_some_iff] at he
    exact he.1
  balance p := by
    have hback := returned_releasedAll t.toConsistent ids
    have hstock := hback.stock p
    have hheld := heldOf_eq_add_heldUnder hback.index p
    omega

end Spends

theorem spends_getHold (t : l.Tidy) (now : Instant) (id : ReservationId) :
    l.Spends (l.getHold now id).2 fun _ => 0 := by
  unfold getHold
  split
  · split
    · exact .refl t
    · exact .of_eq t (t.toConsistent.withoutRecord id) rfl rfl
  · exact .refl t

/-- What is not given back of some lines: all of them while increments fail. -/
def unreturned (l : Ledger) (ls : List StockLine) : List StockLine :=
  if l.incrementsFail then ls else []

end Ledger

namespace Reservation

open Stock Ledger

variable {now : Instant} {l l₀ : Ledger} {taken ls lines : List StockLine} {id : ReservationId}

/-! ## Reserving -/

theorem increment_of_failing (hinc : l.incrementsFail = true) (p : ProductId) (q : UInt32) :
    ∃ detail, l.increment p q = (.error (.ledger detail), l) := by
  simp [Ledger.increment, hinc]

theorem yields_giveBack_of_failing (ls : List StockLine) (hinc : l.incrementsFail = true) :
    (giveBack ls).Yields (answer now) (fun _ m => m = l) l := by
  induction ls with
  | nil => rfl
  | cons line ls ih =>
    obtain ⟨detail, hfails⟩ := increment_of_failing hinc line.product line.quantity
    rw [giveBack, yields_bind, yields_increment, hfails]
    exact ih

/-- Lines are given back as far as increments succeed. -/
theorem yields_giveBack_of_drawn (h : l₀.Drawn l ls) :
    (giveBack ls).Yields (answer now) (fun _ m => l₀.Drawn m (l₀.unreturned ls)) l := by
  unfold unreturned
  cases hinc : l₀.incrementsFail with
  | false =>
    refine (yields_giveBack ls (h.increments.trans hinc)).mono fun _ m hm => ?_
    subst hm
    exact h.deposit
  | true =>
    refine (yields_giveBack_of_failing ls (h.increments.trans hinc)).mono fun _ m hm => ?_
    subst hm
    exact h

theorem not_attempts_giveBack (ls : List StockLine) (l : Ledger) :
    ¬ Attempts (giveBack ls) now l := by
  induction ls generalizing l with
  | nil => simp [giveBack, Attempts]
  | cons line ls ih =>
    rw [giveBack, attempts_bind, not_or]
    exact ⟨by simp [Attempts, Stock.increment, ask, Call.isAttempt], ih _⟩

theorem not_attempts_hold (store : StoreId) (ls : List StockLine) (id : ReservationId) (ttl : Span)
    (l : Ledger) : ¬ Attempts (hold store ls id ttl) now l := by
  rw [hold, attempts_bind, not_or]
  refine ⟨by simp [Attempts, Stock.now, ask, Call.isAttempt], ?_⟩
  split
  · simp [Attempts]
  · rw [attempts_bind, not_or]
    refine ⟨by simp [Attempts, Stock.insertHold, ask, Call.isAttempt], ?_⟩
    split
    · simp [Attempts]
    · rw [attempts_bind, not_or, attempts_bind, not_or]
      refine ⟨not_attempts_giveBack ls _,
        by simp [Attempts, Stock.getHold, ask, Call.isAttempt], ?_⟩
      split <;> simp [Attempts]

/-- Lowering a counter draws what is asked for of its product exactly if the write is applied. -/
theorem obeys_updateAfter_drawn (lines : List StockLine) (p : ProductId)
    (decide : Int → Option Int) (made : Nat) (seen : Int) (left : Nat)
    (log : List (Exchange calls)) :
    (Counter.updateAfter p decide made seen left).Obeys .free
      (fun o log' => ∀ r, Stock.drawn lines r log' = Stock.drawn lines r log +
        match o with
        | .applied .. => if p = r then StockLine.quantityOf r lines else 0
        | _ => 0) log := by
  induction left generalizing made seen log with
  | zero => simp [Counter.updateAfter]
  | succ left ih =>
    refine obeys_bind.2 ⟨trivial, fun reply _ => ?_⟩
    cases reply with
    | none => simp [drawnBy]
    | some level =>
      dsimp only [Script.Obeys]
      cases decide level.available with
      | none => simp [drawnBy]
      | some next =>
        refine obeys_bind.2 ⟨trivial, fun written _ => ?_⟩
        cases written with
        | true => simp [drawnBy]
        | false =>
          refine (ih _ _ _).mono fun o log' hlog r => ?_
          simpa [drawnBy] using hlog r

/-- Taking a line draws it exactly if that succeeds. -/
theorem leaves_take (budget : RetryBudget) {line : StockLine}
    (hline : line.quantity.toNat = StockLine.quantityOf line.product lines)
    (h : l₀.Drawn l taken) :
    (take budget line).Leaves (answer now) (fun r m log => match r with
      | .ok () => l₀.Drawn m (taken ++ [line]) ∧
          ∀ p, Stock.drawn lines p log = StockLine.quantityOf p [line]
      | .error _ => l₀.Drawn m taken ∧ ∀ p, Stock.drawn lines p log = 0) l := by
  have hobeys : (take budget line).Obeys .free (fun r log =>
      ∀ p, Stock.drawn lines p log = match r with
        | .ok () => StockLine.quantityOf p [line]
        | .error _ => 0) [] := by
    have hupdate := obeys_updateAfter_drawn lines line.product
      (Counter.remainder? · line.quantity) 0 0 budget.attempts []
    refine obeys_bind.2 (hupdate.mono ?_)
    intro o log hlog
    cases o with
    | applied previous current attempts =>
      intro p
      rw [hlog p]
      by_cases hp : line.product = p
      · subst hp
        simp [hline]
      · simp [hp]
    | rejected observed => exact fun p => by simpa using hlog p
    | exhausted attempts seen => exact fun p => by simpa using hlog p
  refine ((yields_take budget line h).leaves hobeys fun _ _ => trivial).mono ?_
  intro r m log hboth
  cases r with
  | error e => exact hboth
  | ok _ => exact hboth

/-- Of lines that are taken in turn all are drawn, or those before the one that is refused. While
increments fail these are not given back. -/
theorem leaves_takeAll (budget : RetryBudget)
    (hls : ∀ line ∈ ls, line.quantity.toNat = StockLine.quantityOf line.product lines)
    (h : l₀.Drawn l taken) :
    (takeAll budget taken ls).Leaves (answer now) (fun r m log => match r with
      | .ok () => l₀.Drawn m (taken ++ ls) ∧
          ∀ p, Stock.drawn lines p log = StockLine.quantityOf p ls
      | .error _ => ∃ before, l₀.Drawn m (l₀.unreturned (taken ++ before)) ∧
          ∀ p, Stock.drawn lines p log = StockLine.quantityOf p before) l := by
  induction ls generalizing l taken with
  | nil =>
    rw [takeAll, pure_eq, leaves_done]
    simpa using h
  | cons line ls ih =>
    obtain ⟨hline, hrest⟩ := List.forall_mem_cons.1 hls
    refine leaves_bind.2 ((leaves_take budget hline h).mono ?_)
    intro r m log hr
    cases r with
    | error e =>
      obtain ⟨hdrawn, hnone⟩ := hr
      have hback : (giveBack taken).Leaves (answer now) (fun _ k log' =>
          l₀.Drawn k (l₀.unreturned taken) ∧ ∀ p, Stock.drawn lines p log' = 0) m :=
        ⟨yields_giveBack_of_drawn hdrawn,
          fun p => drawn_transcript (not_attempts_giveBack taken m) _ p⟩
      refine leaves_bind.2 (hback.mono fun _ k log' hk => ⟨[], ?_, fun p => ?_⟩)
      · rw [List.append_nil]
        exact hk.1
      · simp [hnone p, hk.2 p]
    | ok _ =>
      obtain ⟨hdrawn, hone⟩ := hr
      refine (ih hrest hdrawn).mono fun r k log' hk => ?_
      cases r with
      | ok _ => exact ⟨by simpa using hk.1, fun p => by simp [hone p, hk.2 p]⟩
      | error e =>
        obtain ⟨before, hbefore, hlog⟩ := hk
        refine ⟨line :: before, by simpa using hbefore, fun p => ?_⟩
        simp [hone p, hlog p]

/-- What a reservation of merged lines spends by how it ends. Refused while increments fail, it
spends what it has drawn, and broken off all of its lines. -/
def spentBy (l : Ledger) (ls : List StockLine) (p : ProductId) (log : List (Exchange calls)) :
    Ending (Except StockError Hold) → Nat
  | .answered (.ok _) => 0
  | .answered (.error _) => if l.incrementsFail then Stock.drawn ls p log else 0
  | .brokeOff => StockLine.quantityOf p ls

section Record

variable (t : l₀.Tidy) (hrecord : l₀.holds.get? id = none) (hls : ls ≠ []) (store : StoreId)
  (ttl : Span)

include t hrecord hls

/-- Lines that were drawn are held, or given back as far as increments succeed, or stay drawn. -/
theorem yields_hold (h : l₀.Drawn l ls) :
    (hold store ls id ttl).Yields (answer now) (fun r m => match r with
      | .answered (.ok _) => l₀.Spends m fun _ => 0
      | .answered (.error _) => l₀.Drawn m (l₀.unreturned ls)
      | .brokeOff => l₀.Drawn m ls) l := by
  rw [hold, yields_bind, yields_now]
  cases now.add? ttl with
  | none => exact h
  | some deadline =>
    have c := h.toAbove.consistent t.toConsistent
    dsimp only
    rw [yields_bind, yields_insertHold, insertHold_eq c, h.toAbove.listed?_eq]
    cases hl : l₀.listed? id with
    | none => exact Spends.withHold t h.toAbove hl hls
    | some held =>
      refine yields_bind.2 ((yields_giveBack_of_drawn h).mono fun _ m hm => ?_)
      have hgone : m.getHold now id = (none, m) := by rw [Ledger.getHold, hm.holds, hrecord]
      rw [yields_bind, yields_getHold, hgone]
      exact hm

/-- A reservation under a name without a record spends what it has drawn and cannot give back. -/
theorem leaves_reserveNew (budget : RetryBudget)
    (hexact : ∀ line ∈ ls, line.quantity.toNat = StockLine.quantityOf line.product ls) :
    (reserveNew budget store ls id ttl).Leaves (answer now)
      (fun r m log => l₀.Spends m fun p => spentBy l₀ ls p log r) l₀ := by
  have unspent : ∀ {log : List (Exchange calls)} {before : List StockLine},
      (∀ p, Stock.drawn ls p log = StockLine.quantityOf p before) → ∀ p,
      StockLine.quantityOf p (l₀.unreturned before) =
        if l₀.incrementsFail then Stock.drawn ls p log else 0 := by
    intro log before hlog p
    rw [hlog p, unreturned]
    split <;> rfl
  rw [reserveNew, leaves_bind, leaves_isOpen]
  cases l₀.isOpen store with
  | false => exact (Spends.refl t).congr fun p => by simp [spentBy, drawnBy]
  | true =>
    refine leaves_bind.2 ((leaves_takeAll budget hexact (.refl l₀)).mono ?_)
    intro r m log hr
    cases r with
    | error e =>
      obtain ⟨before, hdrawn, hlog⟩ := hr
      exact (Spends.of_above t hdrawn.toAbove).congr fun p => by
        simpa [spentBy, drawnBy] using unspent hlog p
    | ok _ =>
      obtain ⟨hdrawn, hlog⟩ := hr
      have hhold : (hold store ls id ttl).Leaves (answer now) (fun r k log' =>
          (match r with
            | .answered (.ok _) => l₀.Spends k fun _ => 0
            | .answered (.error _) => l₀.Drawn k (l₀.unreturned ls)
            | .brokeOff => l₀.Drawn k ls) ∧
          ∀ p, Stock.drawn ls p log' = 0) m :=
        ⟨yields_hold t hrecord hls store ttl hdrawn,
          fun p => drawn_transcript (not_attempts_hold store ls id ttl m) _ p⟩
      refine hhold.mono fun r k log' hk => ?_
      rcases r with (e | held) | _
      · exact (Spends.of_above t hk.1.toAbove).congr fun p => by
          simpa [spentBy, drawnBy, hk.2 p] using unspent hlog p
      · exact hk.1
      · exact Spends.of_above t hk.1.toAbove

end Record

/-- A reservation spends what it has drawn when it is refused while increments fail, and its lines
when it breaks off. -/
theorem leaves_reserve (t : l.Tidy) (budget : RetryBudget) (store : StoreId)
    (lines : List StockLine) (id : ReservationId) (ttl : Span) :
    (reserve budget store lines id ttl).Leaves (answer now)
      (fun r m log => l.Spends m fun p => spentBy l (StockLine.merge lines) p log r) l := by
  unfold reserve
  cases hobjection : objection lines with
  | some e => exact (Spends.refl t).congr fun p => by simp [spentBy]
  | none =>
    have hget := spends_getHold t now id
    rw [leaves_bind, leaves_getHold]
    cases hfound : (l.getHold now id).1 with
    | some held =>
      refine hget.congr fun p => ?_
      dsimp only
      cases replay held store (StockLine.merge lines) <;> simp [spentBy, drawnBy]
    | none =>
      obtain ⟨hrest, -⟩ := getHold_of_none hfound
      rw [hrest] at hget ⊢
      have hrecord : (l.withoutRecord id).holds.get? id = none := Table.get?_erase_self ..
      have hmerge := StockLine.merge_ne_nil (objection_eq_none_iff.1 hobjection).1
      refine (leaves_reserveNew hget.tidy hrecord hmerge store ttl budget fun line hline =>
        StockLine.quantity_of_mem_merge hline).mono fun r m log hm => ?_
      refine (hget.trans hm).congr fun p => ?_
      have hswitch : (l.withoutRecord id).incrementsFail = l.incrementsFail := rfl
      rcases r with (_ | _) | _ <;> simp [spentBy, drawnBy, hswitch]

/-- Holding breaks off only if the calendar does not have the deadline. -/
theorem add?_eq_none_of_hold (store : StoreId) (ls : List StockLine) (id : ReservationId)
    (ttl : Span) (l : Ledger) :
    (hold store ls id ttl).Yields (answer now) (fun r _ => r = .brokeOff → now.add? ttl = none)
      l := by
  rw [hold, yields_bind, yields_now]
  cases now.add? ttl with
  | none => exact fun _ => rfl
  | some deadline =>
    dsimp only
    rw [yields_bind, yields_insertHold]
    split
    · exact fun h => by cases h
    · rw [yields_bind, Yields, yields_bind, yields_getHold]
      split <;> exact fun h => by cases h

/-- Reserving breaks off only if the calendar does not have the deadline. -/
theorem add?_eq_none_of_reserve (budget : RetryBudget) (store : StoreId) (lines : List StockLine)
    (id : ReservationId) (ttl : Span) (l : Ledger) :
    (reserve budget store lines id ttl).Yields (answer now)
      (fun r _ => r = .brokeOff → now.add? ttl = none) l := by
  rw [reserve]
  cases objection lines with
  | some e => exact fun h => by cases h
  | none =>
    rw [yields_bind, yields_getHold]
    cases (l.getHold now id).1 with
    | some held => exact fun h => by cases h
    | none =>
      rw [reserveNew, yields_bind, yields_isOpen]
      split
      · rw [yields_bind, Yields]
        split
        · exact add?_eq_none_of_hold store _ id ttl _
        · exact fun h => by cases h
      · exact fun h => by cases h

/-! ## Settling and releasing -/

theorem spends_taken (t : l.Tidy) {h : Hold} (hl : l.listed? id = some h)
    {log : List (Exchange calls)} (htaken : Stock.taken log = [h]) :
    l.Spends (l.withoutHold id) fun p => takenOf p log :=
  (Spends.withoutHold t id).congr fun p => by simp [heldLines, hl, takenOf, htaken]

theorem leaves_settle (t : l.Tidy) (id : ReservationId) :
    (settle id).Leaves (answer now) (fun _ m log => l.Spends m fun p => takenOf p log) l := by
  rw [settle, leaves_bind, leaves_takeHold, takeHold_eq t.toConsistent]
  refine (Spends.withoutHold t id).congr fun p => ?_
  cases hl : l.listed? id <;> simp [heldLines, hl, takenOf, taken?]

/-- While increments fail, releasing takes the hold and fails. -/
theorem leaves_release_of_failing (t : l.Tidy) (hinc : l.incrementsFail = true)
    (id : ReservationId) :
    (release id).Leaves (answer now) (fun r m log => m = l.withoutHold id ∧
      match l.listed? id with
      | none => r = .ok false
      | some h => (∃ detail, r = .error (.ledger detail)) ∧ Stock.taken log = [h]) l := by
  rw [release, leaves_bind, leaves_takeHold, takeHold_eq t.toConsistent]
  cases hl : l.listed? id with
  | none => exact ⟨rfl, rfl⟩
  | some h =>
    obtain ⟨line, rest, hlines⟩ := List.exists_cons_of_ne_nil (t.lines_ne_nil hl)
    have hswitch : (l.withoutHold id).incrementsFail = true := hinc
    obtain ⟨detail, hfails⟩ := increment_of_failing hswitch line.product line.quantity
    dsimp only
    rw [hlines, restore, leaves_bind, leaves_bind, leaves_increment, hfails]
    exact ⟨rfl, ⟨detail, rfl⟩, by simp [taken?]⟩

/-- Releasing spends the hold that it takes exactly if it fails. -/
theorem leaves_release (t : l.Tidy) (id : ReservationId) :
    (release id).Leaves (answer now) (fun r m log => l.Spends m fun p =>
      match r with
      | .error (.ledger _) => takenOf p log
      | _ => 0) l := by
  cases hinc : l.incrementsFail with
  | false =>
    rw [Leaves, run_release t.toConsistent hinc]
    exact Spends.releasedAll t [id]
  | true =>
    refine (leaves_release_of_failing t hinc id).mono fun r m log h => ?_
    obtain ⟨rfl, hr⟩ := h
    cases hl : l.listed? id with
    | none =>
      rw [hl] at hr
      exact (Spends.withoutHold t id).congr fun p => by simp [heldLines, hl, hr]
    | some held =>
      rw [hl] at hr
      obtain ⟨⟨detail, rfl⟩, htaken⟩ := hr
      exact spends_taken t hl htaken

end Reservation

/-! ## Sweeping -/

namespace Ledger

/-- The hold stands before all others in the list by deadline. -/
structure Earliest (l : Ledger) (h : Hold) : Prop where
  listed : l.index.get? h.expiry = some h
  first : ∀ e r, l.index.get? e = some r → e ≠ h.expiry → compare h.expiry e = .lt

/-- The ledger `m` is `l` without its earliest hold, which had expired at `now`. -/
structure LosesEarliest (l m : Ledger) (now : Instant) (h : Hold) : Prop where
  earliest : l.Earliest h
  due : h.expiresAt ≤ now
  left : m = l.withoutHold h.id

variable {l : Ledger}

theorem Earliest.listed?_eq (c : l.Consistent) {h : Hold} (he : l.Earliest h) :
    l.listed? h.id = some h :=
  c.listed?_eq_some_iff.2 ⟨rfl, he.listed⟩

/-- The first entry of the list is the earliest. -/
theorem earliest_of_toList (c : l.Consistent) {e : Expiry} {h : Hold} {rest : List (Expiry × Hold)}
    (hlist : l.index.toList = (e, h) :: rest) : e = h.expiry ∧ l.Earliest h := by
  have hget : l.index.get? e = some h := Table.mem_toList_iff.1 (by simp [hlist])
  obtain rfl := c.expiry_eq hget
  refine ⟨rfl, hget, fun e r he hne => ?_⟩
  have hmem : (e, r) ∈ l.index.toList := Table.mem_toList_iff.2 he
  have hsorted := l.index.ascending
  rw [hlist] at hmem hsorted
  rcases List.mem_cons.1 hmem with heq | hmem
  · cases heq
    exact absurd rfl hne
  · exact List.rel_of_pairwise_cons hsorted hmem

/-- A scan lists nothing, or the earliest hold first. -/
theorem expired_cases (c : l.Consistent) (now : Instant) {limit : Nat} (hlimit : 0 < limit) :
    l.expired now limit = [] ∨
      ∃ h ids, l.Earliest h ∧ h.expiresAt ≤ now ∧ l.expired now limit = h.id :: ids := by
  obtain ⟨n, rfl⟩ := Nat.exists_eq_add_one.2 hlimit
  cases hlist : l.index.toList with
  | nil => exact .inl (by simp [expired, Table.keys, hlist])
  | cons entry rest =>
    obtain ⟨e, h⟩ := entry
    obtain ⟨rfl, hearliest⟩ := earliest_of_toList c hlist
    simp only [expired, Table.keys, hlist, List.map_cons]
    by_cases hdue : h.expiry.deadline ≤ now
    · rw [List.takeWhile_cons, if_pos (decide_eq_true hdue)]
      exact .inr ⟨h, _, hearliest, hdue, rfl⟩
    · rw [List.takeWhile_cons, if_neg (mt of_decide_eq_true hdue)]
      exact .inl rfl

end Ledger

namespace Reservation

open Stock Ledger

variable {now : Instant} {l : Ledger}

/-- While increments succeed, a sweep of any number of rounds gives some holds back. -/
theorem run_sweepRounds_of_working (c : l.Consistent) (hinc : l.incrementsFail = false)
    (now : Instant) (batch : BatchSize) (report : SweepReport) (rounds : Nat) :
    ∃ report' ids, (sweepRounds batch now report rounds).run (answer now) l =
      (.ok report', l.releasedAll ids) := by
  induction rounds generalizing l report with
  | zero => exact ⟨report, [], rfl⟩
  | succ rounds ih =>
    have hscan : (Stock.expired now batch.count).run (answer now) l =
        (l.expired now batch.count, l) := rfl
    rw [sweepRounds, run_bind, hscan, run_bind, run_round c hinc]
    dsimp only
    split
    · exact ⟨_, _, rfl⟩
    · have hinc' := (incrementsFail_releasedAll c ((l.due now).take batch.count)).trans hinc
      obtain ⟨report', ids, hrest⟩ := ih (c.releasedAll _) hinc' _
      exact ⟨report', _, by rw [hrest, ← releasedAll_append]⟩

/-- While increments fail, a sweep finds nothing to give back, or fails at the earliest hold. -/
theorem leaves_sweep_of_failing (t : l.Tidy) (hinc : l.incrementsFail = true) (rounds : Nat)
    (batch : BatchSize) :
    (sweep rounds batch).Leaves (answer now) (fun r m log =>
      (∃ report, r = .ok report) ∧ m = l ∨
        ∃ h, l.LosesEarliest m now h ∧ (∃ detail, r = .error (.ledger detail)) ∧
          Stock.taken log = [h]) l := by
  rw [sweep, leaves_bind, leaves_now]
  cases rounds with
  | zero => exact .inl ⟨⟨_, rfl⟩, rfl⟩
  | succ rounds =>
    rw [sweepRounds, leaves_bind, leaves_expired, leaves_bind]
    have hcases := expired_cases t.toConsistent now batch.count_pos
    rcases hcases with hnone | ⟨h, ids, hfirst, hdue, hids⟩
    · rw [hnone, sweepBatch, pure_eq, leaves_done]
      dsimp only
      rw [List.length_nil, if_pos batch.count_pos]
      exact .inl ⟨⟨_, rfl⟩, rfl⟩
    · rw [hids, sweepBatch, leaves_bind]
      refine (leaves_release_of_failing t hinc h.id).mono fun r m log hr => ?_
      rw [hfirst.listed?_eq t.toConsistent] at hr
      obtain ⟨hm, ⟨detail, rfl⟩, htaken⟩ := hr
      refine .inr ⟨h, ⟨hfirst, hdue, hm⟩, ⟨detail, rfl⟩, ?_⟩
      simpa [taken?] using htaken

/-- A sweep spends the hold that it takes exactly if it fails. -/
theorem leaves_sweep (t : l.Tidy) (rounds : Nat) (batch : BatchSize) :
    (sweep rounds batch).Leaves (answer now) (fun r m log => l.Spends m fun p =>
      match r with
      | .error (.ledger _) => takenOf p log
      | _ => 0) l := by
  cases hinc : l.incrementsFail with
  | false =>
    obtain ⟨report, ids, hrun⟩ :=
      run_sweepRounds_of_working t.toConsistent hinc now batch {} rounds
    have hsweep : (sweep rounds batch).run (answer now) l = (.ok report, l.releasedAll ids) := hrun
    rw [Leaves, hsweep]
    exact Spends.releasedAll t ids
  | true =>
    refine (leaves_sweep_of_failing t hinc rounds batch).mono fun r m log h => ?_
    rcases h with ⟨⟨report, rfl⟩, rfl⟩ | ⟨held, hloses, ⟨detail, rfl⟩, htaken⟩
    · exact .refl t
    · rw [hloses.left]
      exact spends_taken t (hloses.earliest.listed?_eq t.toConsistent) htaken

end Reservation
end Fulfilment
