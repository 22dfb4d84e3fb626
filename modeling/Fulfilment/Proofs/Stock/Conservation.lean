import Fulfilment.Proofs.Stock.InHand
import Fulfilment.Proofs.Stock.Index

/-!
# Conservation of stock

However reservations, settlements, releases and sweeps interleave, no stock is lost and none is made
up: the stock of a product is in its counter, in a listed hold, in the hands of an operation, or was
settled, and no counter falls below zero. The argument is one account for all operations: every call
leaves the sum of counter, holds and hands as it is. For lowering a counter this needs that a
counter with an unchanged revision has an unchanged value (`Ledger.Follows`).
-/
namespace Fulfilment
namespace Ledger

/-- Counters are not negative, and nothing is held. -/
structure Unheld (l : Ledger) : Prop where
  stock_nonneg : ∀ p, 0 ≤ l.stockOf p
  holds_eq : l.holds = ∅
  index_eq : l.index = ∅
  deadlines_eq : l.deadlines = ∅
  increments : l.incrementsFail = false

/-- What all operations rely on. -/
structure Sound (l : Ledger) : Prop where
  consistent : l.Consistent
  stock_nonneg : ∀ p, 0 ≤ l.stockOf p
  increments : l.incrementsFail = false

/-- The counter has not been written since it was read, or has a later revision. -/
def Follows (l : Ledger) (p : ProductId) (seen : StockLevel) : Prop :=
  ∃ level, l.level? p = some level ∧ seen.revision ≤ level.revision ∧
    (level.revision = seen.revision → level.available = seen.available)

/-- What a call or a change keeps of a ledger, while it adds to the sum of counter and holds. -/
structure Balances (l m : Ledger) (added : ProductId → Int) : Prop where
  sound : m.Sound
  balance : ∀ p, m.stockOf p + m.heldOf p = l.stockOf p + l.heldOf p + added p
  follows : ∀ {p seen}, l.Follows p seen → m.Follows p seen

theorem Unheld.sound {l : Ledger} (h : l.Unheld) : l.Sound where
  consistent := consistent_of_empty h.holds_eq h.index_eq h.deadlines_eq
  stock_nonneg := h.stock_nonneg
  increments := h.increments

/-- Writing a counter raises its revision, so readings stay behind it. -/
theorem Follows.write {l : Ledger} {q : ProductId} {seen : StockLevel} (h : l.Follows q seen)
    (p : ProductId) (available : Int) : (l.write p available).Follows q seen := by
  obtain ⟨level, hlevel, hle, hsame⟩ := h
  by_cases hq : q = p
  · subst hq
    refine ⟨level.write available, ?_, ?_, ?_⟩
    · simp [Ledger.write, level?] at hlevel ⊢
      simp [hlevel]
    · exact Nat.le_succ_of_le hle
    · intro heq
      simp only [StockLevel.write] at heq
      omega
  · refine ⟨level, ?_, hle, hsame⟩
    rw [← hlevel]
    exact Table.get?_insert_of_ne _ _ hq

variable {l m : Ledger}

/-- Writing a counter adds what it changes. -/
theorem balances_write (h : l.Sound) (p : ProductId) {available : Int} (ha : 0 ≤ available) :
    Balances l (l.write p available) fun q => if p = q then available - l.stockOf p else 0 where
  sound :=
    { consistent := h.consistent.of_eq rfl rfl rfl
      stock_nonneg := fun q => by
        rw [stockOf_write]
        split
        · exact ha
        · exact h.stock_nonneg q
      increments := h.increments }
  balance q := by
    have hheld : (l.write p available).heldOf q = l.heldOf q := rfl
    rw [stockOf_write, hheld]
    by_cases hq : p = q
    · subst hq
      simp only [if_true]
      omega
    · simp only [if_neg hq, if_neg (Ne.symm hq)]
      omega
  follows hf := hf.write p available

/-- Whatever leaves counters and the list of holds alone adds nothing. -/
theorem balances_of_eq (h : l.Sound) (hc : m.Consistent) (hs : m.stock = l.stock)
    (hi : m.index = l.index) (hf : m.incrementsFail = l.incrementsFail) :
    Balances l m fun _ => 0 where
  sound :=
    { consistent := hc
      stock_nonneg := fun p => by
        simp only [stockOf, available?, level?, hs]
        exact h.stock_nonneg p
      increments := hf.trans h.increments }
  balance p := by simp only [stockOf, available?, level?, heldOf, hs, hi, add_zero]
  follows hfollows := by
    simp only [Follows, level?, hs]
    exact hfollows

theorem balances_withHold (h : l.Sound) {r : Hold} (hl : l.listed? r.id = none) :
    Balances l (l.withHold r) fun p => StockLine.quantityOf p r.lines where
  sound := ⟨consistent_withHold h.consistent hl, h.stock_nonneg, h.increments⟩
  balance p := by
    have hstock : (l.withHold r).stockOf p = l.stockOf p := rfl
    rw [hstock, heldOf_withHold h.consistent hl]
    omega
  follows hf := hf

theorem balances_withoutHold (h : l.Sound) (id : ReservationId) :
    Balances l (l.withoutHold id) fun p =>
      match l.listed? id with
      | some r => -StockLine.quantityOf p r.lines
      | none => 0 where
  sound := ⟨consistent_withoutHold h.consistent id, h.stock_nonneg, h.increments⟩
  balance p := by
    have hstock : (l.withoutHold id).stockOf p = l.stockOf p := rfl
    cases hl : l.listed? id with
    | none => rw [hstock, heldOf_withoutHold_of_none h.consistent hl, add_zero]
    | some r =>
      rw [hstock, heldOf_withoutHold h.consistent hl p]
      dsimp only
      omega
  follows hf := hf

/-! ## Calls -/

section Calls

open Stock

variable {j : Job} {log : List (Exchange calls)}

/-- Writing at a revision that was read replaces the value that was read. -/
theorem balances_compareAndSet (h : l.Sound) {p : ProductId} {revision : Nat} {available : Int}
    (hread : ∀ {p seen}, lastReading? log = some (p, seen) → l.Follows p seen)
    (hallowed : j.protocol.allows log (.compareAndSet p revision available)) :
    Balances l (l.compareAndSet p revision available).2 fun q =>
      -j.moved q
        ⟨.compareAndSet p revision available, (l.compareAndSet p revision available).1⟩ := by
  obtain ⟨seen, hseen, havail, hnonneg⟩ := hallowed
  have idle : ∀ n, Balances l { l with forcedConflicts := n } fun _ => 0 := fun n =>
    balances_of_eq h (h.consistent.of_eq rfl rfl rfl) rfl rfl rfl
  obtain ⟨level, hlevel, -, hsame⟩ := hread hseen
  simp only [compareAndSet, hlevel]
  split
  · exact idle _
  · by_cases hrev : level.revision = revision
    · have hstock : l.stockOf p = seen := by
        simp [stockOf, available?, hlevel, hsame hrev]
      have hwrite := balances_write h p hnonneg
      rw [if_pos hrev]
      refine ⟨hwrite.sound, fun q => ?_, hwrite.follows⟩
      rw [hwrite.balance]
      by_cases hq : p = q
      · subst hq
        simp only [Job.moved, if_true, hstock, havail]
        omega
      · simp only [Job.moved, if_neg hq]
        omega
    · rw [if_neg hrev]
      exact idle _

/-- While increments succeed, an increment adds what the operation gives back. -/
theorem balances_increment (h : l.Sound) (p : ProductId) (n : UInt32) :
    j.protocol.expects ⟨.increment p n, (l.increment p n).1⟩ ∧
      Balances l (l.increment p n).2 fun q => -j.moved q ⟨.increment p n, (l.increment p n).1⟩ := by
  have hinc :
      l.increment p n = (.ok (l.stockOf p + n.toNat), l.write p (l.stockOf p + n.toNat)) := by
    simp [increment, h.increments, stockOf]
  have hnonneg : 0 ≤ l.stockOf p + n.toNat := by
    have := h.stock_nonneg p
    omega
  have hwrite := balances_write h p hnonneg
  rw [hinc]
  refine ⟨trivial, hwrite.sound, fun q => ?_, hwrite.follows⟩
  rw [hwrite.balance]
  by_cases hq : p = q
  · subst hq
    simp only [Job.moved, if_true]
    omega
  · simp only [Job.moved, if_neg hq]
    omega

/-- An added hold keeps what the operation had in hand. -/
theorem balances_insertHold (h : l.Sound) (r : Hold) :
    Balances l (l.insertHold r).2 fun p => -j.moved p ⟨.insertHold r, (l.insertHold r).1⟩ := by
  cases hl : l.listed? r.id with
  | some _ =>
    have heq : l.insertHold r = (false, l) := by rw [insertHold_eq h.consistent, hl]; rfl
    rw [heq]
    exact balances_of_eq h h.consistent rfl rfl rfl
  | none =>
    have heq : l.insertHold r = (true, l.withHold r) := by
      rw [insertHold_eq h.consistent, hl]; rfl
    have hwith := balances_withHold h hl
    rw [heq]
    refine ⟨hwith.sound, fun p => ?_, hwith.follows⟩
    rw [hwith.balance]
    simp [Job.moved]

theorem balances_takeHold (h : l.Sound) (id : ReservationId) :
    Balances l (l.takeHold id).2 fun p => -j.moved p ⟨.takeHold id, (l.takeHold id).1⟩ := by
  rw [takeHold_eq h.consistent]
  have hwithout := balances_withoutHold h id
  refine ⟨hwithout.sound, fun p => ?_, hwithout.follows⟩
  rw [hwithout.balance]
  cases l.listed? id <;> simp [Job.moved]

theorem balances_getHold (h : l.Sound) (now : Instant) (id : ReservationId) :
    Balances l (l.getHold now id).2 fun _ => 0 := by
  unfold getHold
  split
  · split
    · exact balances_of_eq h h.consistent rfl rfl rfl
    · exact balances_of_eq h (h.consistent.withoutRecord id) rfl rfl rfl
  · exact balances_of_eq h h.consistent rfl rfl rfl

/-- Every call that an operation makes moves stock between ledger and hands, as the exchange
says. -/
theorem balances_answer (h : l.Sound) (now : Instant) {request : Call}
    (hread : ∀ {p seen}, lastReading? log = some (p, seen) → l.Follows p seen)
    (hallowed : j.protocol.allows log request) :
    j.protocol.expects ⟨request, (Stock.answer now request l).1⟩ ∧
      Balances l (Stock.answer now request l).2 fun p =>
        -j.moved p ⟨request, (Stock.answer now request l).1⟩ := by
  have idle : Balances l l fun _ => 0 := balances_of_eq h h.consistent rfl rfl rfl
  cases request with
  | increment p n => exact balances_increment h p n
  | compareAndSet p revision available => exact ⟨trivial, balances_compareAndSet h hread hallowed⟩
  | insertHold r => exact ⟨trivial, balances_insertHold h r⟩
  | takeHold id => exact ⟨trivial, balances_takeHold h id⟩
  | getHold id => exact ⟨trivial, balances_getHold h now id⟩
  | now => exact ⟨trivial, idle⟩
  | level p => exact ⟨trivial, idle⟩
  | isOpen store => exact ⟨trivial, idle⟩
  | expired t limit => exact ⟨trivial, idle⟩

/-- No operation has less than nothing in hand. -/
theorem inHand_append_nonneg (now : Instant) {request : Call}
    (hnonneg : ∀ p, 0 ≤ j.inHand p log) (hallowed : j.protocol.allows log request) (p : ProductId) :
    0 ≤ j.inHand p (log ++ [⟨request, (Stock.answer now request l).1⟩]) := by
  have hp := hnonneg p
  generalize (Stock.answer now request l).1 = reply
  rw [Job.inHand_append]
  cases request with
  | compareAndSet q revision available =>
    cases reply <;> simp only [Job.moved] <;> omega
  | increment q n =>
    have hq : (n.toNat : Int) ≤ j.inHand q log := hallowed
    cases reply with
    | error e => simpa [Job.moved] using hp
    | ok v =>
      by_cases hqp : q = p
      · subst hqp
        simp only [Job.moved, if_true]
        omega
      · simp only [Job.moved, if_neg hqp]
        omega
  | insertHold r =>
    have hr : j.inHand p log = StockLine.quantityOf p r.lines := hallowed p
    cases reply <;> simp only [Job.moved] <;> omega
  | takeHold id => cases reply <;> simp only [Job.moved] <;> omega
  | _ => simpa [Job.moved] using hp

/-- A counter that was just read has the value that was read. -/
theorem follows_of_reading {now : Instant} {request : Call} {p : ProductId} {seen : StockLevel}
    (h : reading? ⟨request, (Stock.answer now request l).1⟩ = some (p, seen)) :
    l.Follows p seen := by
  cases request with
  | level q =>
    simp only [Stock.answer] at h
    cases hl : l.level? q with
    | none => rw [hl] at h; cases h
    | some level =>
      rw [hl] at h
      cases h
      exact ⟨_, hl, le_rfl, fun _ => rfl⟩
  | _ => cases h

end Calls

end Ledger

/-! ## Schedules -/

namespace Stock

open Ledger

namespace Traffic

/-- The account of all operations started on a site that began with the ledger `l`. -/
structure Accounted (l : Ledger) (s : Traffic) : Prop where
  sound : s.stores.ledger.Sound
  balance : ∀ p, s.stores.ledger.stockOf p + s.stores.ledger.heldOf p +
    (s.tasks.map fun t => t.job.inHand p t.log).sum = l.stockOf p
  inHand_nonneg : ∀ t ∈ s.tasks, ∀ p, 0 ≤ t.job.inHand p t.log
  readings : ∀ t ∈ s.tasks, ∀ {p seen}, lastReading? t.log = some (p, seen) →
    s.stores.ledger.Follows p seen

theorem accounted_init {l : Ledger} (h : l.Unheld) (start : Instant) :
    Accounted l ⟨⟨start, l⟩, [], []⟩ where
  sound := h.sound
  balance p := by simp [heldOf_eq_zero h.index_eq]
  inHand_nonneg := by simp
  readings := by simp

theorem Accounted.start {l : Ledger} {s : Traffic} (a : Accounted l s) (j : Job) :
    Accounted l { s with tasks := s.tasks ++ [system.begun j] } where
  sound := a.sound
  balance p := by simpa [System.begun] using a.balance p
  inHand_nonneg t ht p := by
    rcases List.mem_append.1 ht with ht | ht
    · exact a.inHand_nonneg t ht p
    · rw [List.mem_singleton.1 ht]
      exact le_rfl
  readings t ht p seen hseen := by
    rcases List.mem_append.1 ht with ht | ht
    · exact a.readings t ht hseen
    · rw [List.mem_singleton.1 ht] at hseen
      cases hseen

/-- A call of one operation keeps the account. -/
theorem Accounted.proceed {l : Ledger} {site : Site} {before after : List (Task calls Job Outcome)}
    {t : Task calls Job Outcome} {trace : List (Exchange calls)} {request : Call}
    (a : Accounted l ⟨site, before ++ t :: after, trace⟩)
    (hallowed : t.job.protocol.allows t.log request) (rest : Script calls Outcome) :
    t.job.protocol.expects (system.exchange request site) ∧
      Accounted l
        { stores := (system.answer request site).2
          tasks := before ++ t.tell (system.exchange request site) rest :: after
          trace := trace ++ [system.exchange request site] } := by
  have hmem : t ∈ before ++ t :: after := by simp
  obtain ⟨hexpected, hbalance⟩ :=
    balances_answer a.sound site.clock (a.readings t hmem) hallowed
  refine ⟨hexpected, hbalance.sound, fun p => ?_, fun u hu p => ?_, fun u hu p seen hseen => ?_⟩
  · have hbefore := a.balance p
    have hcall := hbalance.balance p
    simp only [List.map_append, List.map_cons, List.sum_append, List.sum_cons, Task.job_tell,
      Task.log_tell, Job.inHand_append] at hbefore ⊢
    simp only [system, Site.answer, System.exchange] at hcall ⊢
    omega
  · rcases Task.mem_of_mem_tell hu with rfl | hu
    · exact inHand_append_nonneg site.clock (a.inHand_nonneg t hmem) hallowed p
    · exact a.inHand_nonneg u hu p
  · rcases Task.mem_of_mem_tell hu with rfl | hu
    · rw [Task.log_tell, lastReading?_append, Option.or_eq_some_iff] at hseen
      refine hbalance.follows ?_
      rcases hseen with hseen | ⟨-, hseen⟩
      · exact follows_of_reading hseen
      · exact a.readings t hmem hseen
    · exact hbalance.follows (a.readings u hu hseen)

theorem balances_change {s : Site} (h : s.ledger.Sound) (c : Site.Change) :
    Balances s.ledger (Site.change c s).ledger fun _ => 0 := by
  cases c with
  | evict => exact balances_of_eq h (h.consistent.evict s.clock) rfl rfl rfl
  | _ => exact balances_of_eq h (h.consistent.of_eq rfl rfl rfl) rfl rfl rfl

theorem Accounted.disturb {l : Ledger} {s : Traffic} (a : Accounted l s) (c : Site.Change) :
    Accounted l { s with stores := Site.change c s.stores } := by
  have hbalance := balances_change a.sound c
  refine ⟨hbalance.sound, fun p => ?_, a.inHand_nonneg, fun t ht p seen hseen => ?_⟩
  · have hcall := hbalance.balance p
    have hbefore := a.balance p
    dsimp only at hbefore ⊢
    omega
  · exact hbalance.follows (a.readings t ht hseen)

/-- The account is kept by every schedule, and an operation that has ended has nothing in hand,
except for settled stock. -/
theorem accounted_run {l : Ledger} (h : l.Unheld) (start : Instant)
    {acts : List (Act Job Site.Change)} (hfits : ∀ j, .start j ∈ acts → j.Fits) :
    Accounted l (system.run ⟨⟨start, l⟩, [], []⟩ acts) ∧
      ∀ t ∈ (system.run ⟨⟨start, l⟩, [], []⟩ acts).tasks,
        t.script.Obeys t.job.protocol t.job.ends t.log :=
  System.run_obeys rfl (accounted_init h start) (fun j hj => Job.obeys_script (hfits j hj))
    (fun _ j _ a => a.start j)
    (fun _ _ _ _ _ _ _ _ hallowed a => a.proceed hallowed _)
    (fun _ c _ a => a.disturb c)

theorem reserves_of_lacksDeadline {j : Job} {log : List (Exchange calls)}
    (h : j.LacksDeadline log) : j.reserves = true ∧ j.restores = false ∧ j.settles = false := by
  cases j with
  | reserve => exact ⟨rfl, rfl, rfl⟩
  | _ => exact h.elim

/-- Stock in the hands of operations is being reserved, being restored, settled, or abandoned. -/
theorem sum_inHand {s : Traffic} (p : ProductId)
    (hends : ∀ t ∈ s.tasks, ∀ o, t.result? = some o → t.job.ends o t.log) :
    (s.tasks.map fun t => t.job.inHand p t.log).sum =
      s.reserving p + s.restoring p + s.settled p + s.abandoned p := by
  unfold reserving restoring settled abandoned inHandOf
  generalize s.tasks = ts at hends
  induction ts with
  | nil => rfl
  | cons t ts ih =>
    have ih := ih fun u hu => hends u (List.mem_cons_of_mem t hu)
    have ht := hends t (List.mem_cons_self ..)
    simp only [List.map_cons, List.sum_cons, List.filter_cons, ih]
    cases hresult : t.result? with
    | none =>
      cases hj : t.job <;>
        simp [Task.isRunning, hresult, hj, Job.reserves, Job.restores, Job.settles] <;> omega
    | some o =>
      have ho := ht o hresult
      cases hbroke : o.brokeOff with
      | true =>
        simp only [Job.ends, hbroke, if_true] at ho
        obtain ⟨hlacks, hinHand⟩ := ho
        have hreserves := reserves_of_lacksDeadline hlacks
        simp [Task.isRunning, hresult, hbroke, hinHand p, hreserves]
        omega
      | false =>
        simp only [Job.ends, hbroke, Bool.false_eq_true, if_false] at ho
        cases hsettles : t.job.settles with
        | true =>
          simp [Task.isRunning, hresult, hbroke]
          omega
        | false =>
          have hnone : t.job.inHand p t.log = 0 := by simpa using ho hsettles p
          simp [Task.isRunning, hresult, hbroke, hnone]

theorem abandoned_eq_zero {s : Traffic} {p : ProductId}
    (h : ∀ t ∈ s.tasks, ¬ t.result?.any Outcome.brokeOff) : s.abandoned p = 0 := by
  rw [abandoned, List.filter_eq_nil_iff.2 h]
  rfl

theorem inHandOf_nonneg {s : Traffic} {p : ProductId}
    (h : ∀ t ∈ s.tasks, 0 ≤ t.job.inHand p t.log) (choose : Task calls Job Outcome → Bool) :
    0 ≤ s.inHandOf p choose := by
  refine List.sum_nonneg fun x hx => ?_
  obtain ⟨t, ht, rfl⟩ := List.mem_map.1 hx
  exact h t (List.mem_filter.1 ht).1

end Traffic

/-- **Stock is conserved by every schedule.** Counter, holds, running operations, settlements and
reservations that broke off share the stock that a product began with, none of them below zero. So
no more is ever held and settled than there was. A reservation breaks off only if the calendar does
not have its deadline; where the calendar has all deadlines, the others share the stock. -/
theorem stock_conserved {l : Ledger} (h : l.Unheld) (start : Instant)
    {acts : List (Act Job Site.Change)} (hfits : ∀ j, .start j ∈ acts → j.Fits) (p : ProductId) :
    let s : Traffic := system.run ⟨⟨start, l⟩, [], []⟩ acts
    s.stores.ledger.stockOf p + s.stores.ledger.heldOf p + s.reserving p + s.restoring p +
        s.settled p + s.abandoned p = l.stockOf p ∧
      0 ≤ s.stores.ledger.stockOf p ∧ 0 ≤ s.reserving p ∧ 0 ≤ s.restoring p ∧ 0 ≤ s.settled p ∧
      s.stores.ledger.heldOf p + s.settled p ≤ l.stockOf p ∧
      (∀ t ∈ s.tasks, t.result?.any Outcome.brokeOff → t.job.LacksDeadline t.log) ∧
      ((∀ t ∈ s.tasks, ¬ t.job.LacksDeadline t.log) →
        s.stores.ledger.stockOf p + s.stores.ledger.heldOf p + s.reserving p + s.restoring p +
          s.settled p = l.stockOf p) := by
  intro s
  obtain ⟨a, hobeys⟩ := Traffic.accounted_run h start hfits
  have hends : ∀ t ∈ s.tasks, ∀ o, t.result? = some o → t.job.ends o t.log := by
    intro t ht o ho
    have hobeys := hobeys t ht
    rwa [Task.script_of_result? ho] at hobeys
  have hlacks : ∀ t ∈ s.tasks, t.result?.any Outcome.brokeOff → t.job.LacksDeadline t.log := by
    intro t ht hbroke
    obtain ⟨o, hresult, ho⟩ := (Option.any_eq_true ..).1 hbroke
    have hend := hends t ht o hresult
    rw [Job.ends, if_pos ho] at hend
    exact hend.1
  have hsum := Traffic.sum_inHand p hends
  have nonneg := fun choose => Traffic.inHandOf_nonneg (fun t ht => a.inHand_nonneg t ht p) choose
  have hreserving : 0 ≤ s.reserving p := nonneg _
  have hrestoring : 0 ≤ s.restoring p := nonneg _
  have hsettled : 0 ≤ s.settled p := nonneg _
  have hstock : 0 ≤ s.stores.ledger.stockOf p := a.sound.stock_nonneg p
  have hheld := s.stores.ledger.heldOf_nonneg p
  have hbalance : s.stores.ledger.stockOf p + s.stores.ledger.heldOf p +
      (s.reserving p + s.restoring p + s.settled p + s.abandoned p) = l.stockOf p :=
    hsum ▸ a.balance p
  refine ⟨?_, hstock, hreserving, hrestoring, hsettled, ?_, hlacks, fun hdeadlines => ?_⟩
  · omega
  · omega
  · have habandoned : s.abandoned p = 0 := Traffic.abandoned_eq_zero fun t ht hbroke =>
      hdeadlines t ht (hlacks t ht hbroke)
    omega

/-- One store that is open, with five of one product. -/
def fiveWidgets : Ledger := (({} : Ledger).write ⟨"widget"⟩ 5).openStore ⟨"store"⟩

/-- Two reservations, of two and of four widgets, read the counter before either writes it. The
second loses the race, reads again and is refused, while the first has yet to add its hold. A third
one, of one widget, takes it and breaks off, since its deadline is off the calendar. -/
def widgetRace : List (Act Job Site.Change) :=
  [.start (.reserve {} ⟨"store"⟩ [⟨⟨"widget"⟩, 2⟩] ⟨"first"⟩ (.ofMinutes 15)),
    .start (.reserve {} ⟨"store"⟩ [⟨⟨"widget"⟩, 4⟩] ⟨"second"⟩ (.ofMinutes 15)),
    .start (.reserve {} ⟨"store"⟩ [⟨⟨"widget"⟩, 1⟩] ⟨"third"⟩ (.ofSeconds 10000000000000)),
    .proceed 0, .proceed 1, .proceed 0, .proceed 1, .proceed 0, .proceed 1, .proceed 0, .proceed 1,
    .proceed 1, .proceed 2, .proceed 2, .proceed 2, .proceed 2, .proceed 2]

/-- In the middle of the race two widgets are in the counter, two in hand and one is abandoned. -/
theorem stock_conserved_in_race :
    fiveWidgets.Unheld ∧ (∀ j, .start j ∈ widgetRace → j.Fits) ∧
      let s : Traffic := system.run ⟨⟨.ofSecond 0, fiveWidgets⟩, [], []⟩ widgetRace
      s.stores.ledger.stockOf ⟨"widget"⟩ = 2 ∧ s.reserving ⟨"widget"⟩ = 2 ∧
        s.abandoned ⟨"widget"⟩ = 1 ∧
        s.stores.ledger.stockOf ⟨"widget"⟩ + s.stores.ledger.heldOf ⟨"widget"⟩ +
          s.reserving ⟨"widget"⟩ + s.restoring ⟨"widget"⟩ + s.settled ⟨"widget"⟩ +
          s.abandoned ⟨"widget"⟩ = 5 := by
  have hunheld : fiveWidgets.Unheld := by
    refine ⟨fun p => ?_, rfl, rfl, rfl, rfl⟩
    have hwrite : fiveWidgets.stockOf p = (({} : Ledger).write ⟨"widget"⟩ 5).stockOf p := rfl
    rw [hwrite, stockOf_write]
    split
    · decide
    · exact le_rfl
  have hfits : ∀ j, .start j ∈ widgetRace → j.Fits := by
    intro j hj
    simp only [widgetRace, List.mem_cons, Act.start.injEq, reduceCtorEq, List.not_mem_nil,
      or_false] at hj
    rcases hj with rfl | rfl | rfl <;> exact StockLine.fits_singleton _
  exact ⟨hunheld, hfits, by decide, by decide, by decide, (stock_conserved hunheld _ hfits _).1⟩

end Stock
end Fulfilment
