import Fulfilment.Proofs.Stock.Traffic

/-!
# Stock in hand

What operations on reservations do with stock between taking it and putting it back. A counter is
lowered only by what was requested, from the value that was read with its revision; no more is given
back than is in hand; a hold is added for exactly what is in hand. While increments succeed, every
operation that has ended has nothing in hand, except that settling keeps what it took, and a
reservation that broke off keeps what it asked for.
-/
namespace Fulfilment
namespace Stock

/-- The counter that an exchange reads. -/
def reading? : Exchange calls → Option (ProductId × StockLevel)
  | ⟨.level p, some level⟩ => some (p, level)
  | _ => none

/-- The counter that was read last, as it was then. -/
def lastReading? (log : List (Exchange calls)) : Option (ProductId × StockLevel) :=
  (log.filterMap reading?).getLast?

@[simp] theorem lastReading?_append (log : List (Exchange calls)) (e : Exchange calls) :
    lastReading? (log ++ [e]) = (reading? e).or (lastReading? log) := by
  cases h : reading? e <;> simp [lastReading?, h]

namespace Job

/-- How an operation handles stock. It relies on increments not to fail. -/
def protocol (j : Job) : Protocol calls where
  allows log
    | .compareAndSet p revision available =>
      ∃ seen, lastReading? log = some (p, ⟨seen, revision⟩) ∧
        available = seen - j.requested p ∧ 0 ≤ available
    | .increment p n => (n.toNat : Int) ≤ j.inHand p log
    | .insertHold h => ∀ p, j.inHand p log = StockLine.quantityOf p h.lines
    | _ => True
  expects
    | ⟨.increment .., .error _⟩ => False
    | _ => True

/-- The operation has exactly these lines in hand. -/
def Carries (j : Job) (log : List (Exchange calls)) (ls : List StockLine) : Prop :=
  ∀ p, j.inHand p log = StockLine.quantityOf p ls

/-- How the operation ends. If it breaks off, it is a reservation without a deadline on the
calendar, and has in hand all that it asked for. Otherwise it has nothing in hand, except that
settling keeps what it took. -/
def ends (j : Job) (o : Outcome) (log : List (Exchange calls)) : Prop :=
  if o.brokeOff then j.LacksDeadline log ∧ ∀ p, j.inHand p log = j.requested p
  else j.settles = false → j.Carries log []

theorem Carries.append_of_moved_eq_zero {j : Job} {log : List (Exchange calls)}
    {ls : List StockLine} (h : j.Carries log ls) {e : Exchange calls}
    (he : ∀ p, j.moved p e = 0) : j.Carries (log ++ [e]) ls := by
  intro p
  rw [inHand_append, he, h p, add_zero]

variable {j : Job} {log : List (Exchange calls)}

/-- No more than what is in hand is given back with the first line. -/
theorem Carries.head_le {l : StockLine} {ls : List StockLine} (h : j.Carries log (l :: ls)) :
    (l.quantity.toNat : Int) ≤ j.inHand l.product log := by
  rw [h]
  simp

theorem Carries.tail {l : StockLine} {ls : List StockLine} (h : j.Carries log (l :: ls)) (n : Int) :
    j.Carries (log ++ [⟨.increment l.product l.quantity, .ok n⟩]) ls := by
  intro p
  rw [inHand_append, h]
  by_cases hp : l.product = p <;> simp [moved, hp]

/-! ## Taking stock -/

/-- Lowering a counter puts the quantity in hand exactly if the write is applied. -/
theorem obeys_updateAfter {p : ProductId} {q : UInt32} (hq : q.toNat = j.requested p)
    {taken : List StockLine} (made : Nat) (seen : Int) (left : Nat) (h : j.Carries log taken) :
    (Counter.updateAfter p (Counter.remainder? · q) made seen left).Obeys j.protocol
      (fun o log => match o with
        | .applied .. => j.Carries log (taken ++ [⟨p, q⟩])
        | _ => j.Carries log taken) log := by
  induction left generalizing log made seen with
  | zero => exact h
  | succ left ih =>
    refine Script.obeys_bind.2 ⟨trivial, fun reply _ => ?_⟩
    have hread : j.Carries (log ++ [⟨.level p, reply⟩]) taken :=
      h.append_of_moved_eq_zero fun _ => rfl
    cases reply with
    | none => exact hread
    | some level =>
      dsimp only [Script.Obeys]
      cases hnext : Counter.remainder? level.available q with
      | none => exact hread
      | some next =>
        have hnext := Counter.eq_of_remainder? hnext
        refine Script.obeys_bind.2 ⟨⟨level.available, ?_, ?_, hnext.2⟩, fun written _ => ?_⟩
        · simp [reading?]
        · rw [hnext.1, hq]
        · cases written with
          | true =>
            intro r
            rw [inHand_append, hread r]
            by_cases hr : p = r
            · subst hr
              simp [moved, hq]
            · simp [moved, hr]
          | false => exact ih _ _ (hread.append_of_moved_eq_zero fun _ => rfl)

theorem obeys_take (budget : RetryBudget) {l : StockLine}
    (hl : l.quantity.toNat = j.requested l.product) {taken : List StockLine}
    (h : j.Carries log taken) :
    (Reservation.take budget l).Obeys j.protocol
      (fun r log => match r with
        | .ok () => j.Carries log (taken ++ [l])
        | .error _ => j.Carries log taken) log := by
  refine Script.obeys_bind.2 ((obeys_updateAfter hl 0 0 budget.attempts h).mono ?_)
  rintro (_ | _ | _) log ho <;> exact ho

theorem obeys_giveBack {ls : List StockLine} (h : j.Carries log ls) :
    (Reservation.giveBack ls).Obeys j.protocol (fun _ log => j.Carries log []) log := by
  induction ls generalizing log with
  | nil => exact h
  | cons l ls ih =>
    refine Script.obeys_bind.2 ⟨h.head_le, fun reply hreply => ?_⟩
    cases reply with
    | error e => exact hreply.elim
    | ok n => exact ih (h.tail n)

/-- Taking several lines puts all of them in hand, or none. -/
theorem obeys_takeAll (budget : RetryBudget) {taken ls : List StockLine}
    (hls : ∀ l ∈ ls, l.quantity.toNat = j.requested l.product) (h : j.Carries log taken) :
    (Reservation.takeAll budget taken ls).Obeys j.protocol
      (fun r log => match r with
        | .ok () => j.Carries log (taken ++ ls)
        | .error _ => j.Carries log []) log := by
  induction ls generalizing log taken with
  | nil => exact (List.append_nil taken).symm ▸ h
  | cons l ls ih =>
    refine Script.obeys_bind.2 ((obeys_take budget (hls l (by simp)) h).mono ?_)
    intro result log hlog
    cases result with
    | error e => exact Script.obeys_bind.2 (obeys_giveBack hlog)
    | ok _ =>
      rw [List.append_cons]
      exact ih (fun m hm => hls m (by simp [hm])) hlog

/-! ## Holding and restoring stock -/

/-- How holding lines ends: without the lines, unless the calendar did not have the deadline. -/
def HoldEnds (j : Job) (ls : List StockLine) (ttl : Span) :
    Ending (Except StockError Hold) → List (Exchange calls) → Prop
  | .answered _, log => j.Carries log []
  | .brokeOff, log =>
    (∃ now, (⟨.now, now⟩ : Exchange calls) ∈ log ∧ now.add? ttl = none) ∧ j.Carries log ls

/-- Holding lines hands them to the ledger, or gives them back, or breaks off with them. -/
theorem obeys_hold (store : StoreId) {ls : List StockLine} (id : ReservationId) (ttl : Span)
    (h : j.Carries log ls) :
    (Reservation.hold store ls id ttl).Obeys j.protocol (j.HoldEnds ls ttl) log := by
  refine Script.obeys_bind.2 ⟨trivial, fun now _ => ?_⟩
  have hnow : j.Carries (log ++ [⟨.now, now⟩]) ls := h.append_of_moved_eq_zero fun _ => rfl
  dsimp only [Script.Obeys]
  cases hdeadline : now.add? ttl with
  | none => exact ⟨⟨now, by simp, hdeadline⟩, hnow⟩
  | some deadline =>
    refine Script.obeys_bind.2 ⟨hnow, fun added _ => ?_⟩
    cases added with
    | true =>
      intro p
      rw [inHand_append, hnow p]
      simp [moved]
    | false =>
      refine Script.obeys_bind.2 <|
        (obeys_giveBack (hnow.append_of_moved_eq_zero fun _ => rfl)).mono ?_
      refine fun _ log hlog => Script.obeys_bind.2 ⟨trivial, fun found _ => ?_⟩
      have hfound : j.Carries (log ++ [⟨.getHold id, found⟩]) [] :=
        hlog.append_of_moved_eq_zero fun _ => rfl
      cases found <;> exact hfound

/-- Reserving leaves nothing in hand, unless it breaks off with all of its lines. -/
theorem obeys_reserve (budget : RetryBudget) (store : StoreId) {lines : List StockLine}
    (hfits : StockLine.Fits lines) (id : ReservationId) (ttl : Span)
    (hj : ∀ p, j.requested p = StockLine.quantityOf p lines) (h : j.Carries log []) :
    (Reservation.reserve budget store lines id ttl).Obeys j.protocol
      (j.HoldEnds (StockLine.merge lines) ttl) log := by
  have hmerged : ∀ l ∈ StockLine.merge lines, l.quantity.toNat = j.requested l.product := by
    intro l hl
    rw [StockLine.quantity_of_mem_merge hl, hfits.quantityOf_merge, hj]
  unfold Reservation.reserve
  split
  · exact h
  · refine Script.obeys_bind.2 ⟨trivial, fun found _ => ?_⟩
    have hfound : j.Carries (log ++ [⟨.getHold id, found⟩]) [] :=
      h.append_of_moved_eq_zero fun _ => rfl
    cases found with
    | some held => exact hfound
    | none =>
      refine Script.obeys_bind.2 ⟨trivial, fun isOpen _ => ?_⟩
      have hopen : j.Carries (log ++ [⟨.getHold id, none⟩] ++ [⟨.isOpen store, isOpen⟩]) [] :=
        hfound.append_of_moved_eq_zero fun _ => rfl
      cases isOpen with
      | false => exact hopen
      | true =>
        refine Script.obeys_bind.2 ((obeys_takeAll budget hmerged hopen).mono ?_)
        intro result log hlog
        cases result with
        | error e => exact hlog
        | ok _ => exact obeys_hold store id ttl hlog

theorem obeys_restore {ls : List StockLine} (h : j.Carries log ls) :
    (Reservation.restore ls).Obeys j.protocol (fun _ log => j.Carries log []) log := by
  induction ls generalizing log with
  | nil => exact h
  | cons l ls ih =>
    refine Script.obeys_bind.2 ⟨h.head_le, fun reply hreply => ?_⟩
    cases reply with
    | error e => exact hreply.elim
    | ok n => exact ih (h.tail n)

theorem obeys_release (id : ReservationId) (h : j.Carries log []) :
    (Reservation.release id).Obeys j.protocol (fun _ log => j.Carries log []) log := by
  refine Script.obeys_bind.2 ⟨trivial, fun taken _ => ?_⟩
  cases taken with
  | none => exact h.append_of_moved_eq_zero fun _ => rfl
  | some held =>
    refine Script.obeys_bind.2 (obeys_restore fun p => ?_)
    rw [inHand_append, h p]
    simp [moved]

theorem obeys_sweepBatch (report : Reservation.SweepReport) (ids : List ReservationId)
    (h : j.Carries log []) :
    (Reservation.sweepBatch report ids).Obeys j.protocol (fun _ log => j.Carries log []) log := by
  induction ids generalizing log report with
  | nil => exact h
  | cons id ids ih =>
    refine Script.obeys_bind.2 ((obeys_release id h).mono ?_)
    intro result log hlog
    cases result with
    | error e => exact hlog
    | ok given => exact ih _ hlog

/-- Sweeping leaves nothing in hand, however many batches there are. -/
theorem obeys_sweepRounds (batch : BatchSize) (now : Instant) (report : Reservation.SweepReport)
    (rounds : Nat) (h : j.Carries log []) :
    (Reservation.sweepRounds batch now report rounds).Obeys j.protocol
      (fun _ log => j.Carries log []) log := by
  induction rounds generalizing log report with
  | zero => exact h
  | succ rounds ih =>
    refine Script.obeys_bind.2 ⟨trivial, fun ids _ => ?_⟩
    have hids : j.Carries (log ++ [⟨.expired now batch.count, ids⟩]) [] :=
      h.append_of_moved_eq_zero fun _ => rfl
    refine Script.obeys_bind.2 ((obeys_sweepBatch report ids hids).mono ?_)
    intro result log hlog
    cases result with
    | error e => exact hlog
    | ok report =>
      dsimp only
      split
      · exact hlog
      · exact ih _ hlog

/-- Every operation handles stock by its protocol. -/
theorem obeys_script (hfits : j.Fits) : j.script.Obeys j.protocol j.ends [] := by
  have hnone : j.Carries [] [] := fun p => rfl
  cases j with
  | reserve budget store lines id ttl =>
    refine Script.obeys_map.2 <|
      (obeys_reserve budget store hfits id ttl (fun _ => rfl) hnone).mono ?_
    intro result log hlog
    cases result with
    | answered r => exact fun _ => hlog
    | brokeOff =>
      obtain ⟨hlacks, hcarries⟩ := hlog
      refine ⟨hlacks, fun p => ?_⟩
      rw [hcarries p, StockLine.Fits.quantityOf_merge hfits]
      rfl
  | settle id =>
    exact Script.obeys_map.2 (Script.obeys_bind.2 ⟨trivial, fun _ _ => nofun⟩)
  | release id =>
    exact Script.obeys_map.2 ((obeys_release id hnone).mono fun _ _ h _ => h)
  | sweep rounds batch =>
    refine Script.obeys_map.2 (Script.obeys_bind.2 ⟨trivial, fun now _ => ?_⟩)
    have hnow : (sweep rounds batch).Carries [⟨.now, now⟩] [] := fun p => rfl
    exact (obeys_sweepRounds batch now {} rounds hnow).mono fun _ _ h _ => h

end Job
end Stock
end Fulfilment
