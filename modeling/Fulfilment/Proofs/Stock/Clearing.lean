import Fulfilment.Proofs.Lists
import Fulfilment.Proofs.Stock.Reachable
import Fulfilment.Proofs.Stock.Releasing
import Mathlib.Data.List.Nodup

/-!
# What a sweep comes to

A sweep goes on until a batch is not full, and nothing in it says that this happens. It does because
every reservation that a scan has listed is out of the list when the batch is done, so that the next
scan goes on exactly where this one ended (`Ledger.due_releasedAll`). Batches thus cut one list into
pieces, and a sweep ends where the pieces are used up, with the same ledger for every batch size.
-/
namespace Fulfilment

open Script

theorem Expiry.deadline_le_of_lt {a b : Expiry} (h : compare a b = .lt) :
    a.deadline ≤ b.deadline := by
  have hlex : (compare a.deadline.rank b.deadline.rank).then (compare a.id b.id) = .lt := h
  rcases Ordering.then_eq_lt.1 hlex with hlt | ⟨heq, -⟩
  · exact le_of_lt (compare_lt_iff_lt.1 hlt)
  · exact le_of_eq (compare_eq_iff_eq.1 heq)

namespace Ledger

variable {l m : Ledger} {now : Instant} {ids : List ReservationId}

/-! ## What is due -/

/-- The reservations whose deadline has passed, oldest first. -/
def due (l : Ledger) (now : Instant) : List ReservationId :=
  (l.index.keys.filter fun e => e.deadline ≤ now).map Expiry.id

/-- The list is by deadline, so a scan takes the first of those that are due. -/
theorem expired_eq_take (l : Ledger) (now : Instant) (limit : Nat) :
    l.expired now limit = (l.due now).take limit := by
  have hsorted : l.index.keys.Pairwise fun a b =>
      decide (b.deadline ≤ now) = true → decide (a.deadline ≤ now) = true := by
    refine List.pairwise_map.2 (l.index.ascending.imp fun {a b} hab hb => ?_)
    have hle : a.1.deadline.rank ≤ b.1.deadline.rank := Expiry.deadline_le_of_lt hab
    exact decide_eq_true (le_trans hle (of_decide_eq_true hb))
  rw [expired, takeWhile_eq_filter hsorted, List.map_take, due]

/-- A reservation is due if it has an entry whose deadline has passed. -/
theorem mem_due {id : ReservationId} :
    id ∈ l.due now ↔ ∃ e h, l.index.get? e = some h ∧ e.id = id ∧ e.deadline ≤ now := by
  simp only [due, List.mem_map, List.mem_filter, Table.mem_keys_iff, decide_eq_true_eq]
  constructor
  · rintro ⟨e, ⟨⟨h, he⟩, hdue⟩, hid⟩
    exact ⟨e, h, he, hid, hdue⟩
  · rintro ⟨e, h, he, hid, hdue⟩
    exact ⟨e, ⟨⟨h, he⟩, hdue⟩, hid⟩

theorem Consistent.entry_unique (c : l.Consistent) {d e : Expiry} {h r : Hold}
    (hd : l.index.get? d = some h) (he : l.index.get? e = some r) (hid : d.id = e.id) : d = e := by
  have hdeadline := c.deadline_of_index hd
  rw [hid, c.deadline_of_index he, Option.some.injEq] at hdeadline
  exact congrArg₂ Expiry.mk hdeadline.symm hid

/-- Among the entries of the list, those that are due are those whose deadline has passed. -/
theorem mem_due_iff (c : l.Consistent) {e : Expiry} {h : Hold} (he : l.index.get? e = some h) :
    e.id ∈ l.due now ↔ e.deadline ≤ now := by
  rw [mem_due]
  constructor
  · rintro ⟨d, r, hd, hid, hdue⟩
    exact c.entry_unique hd he hid ▸ hdue
  · exact fun hdue => ⟨e, h, he, rfl, hdue⟩

theorem isSome_listed?_of_mem_due (c : l.Consistent) {id : ReservationId} (h : id ∈ l.due now) :
    (l.listed? id).isSome = true := by
  obtain ⟨e, r, he, rfl, -⟩ := mem_due.1 h
  have hplace := c.expiry_eq he
  subst hplace
  rw [show l.listed? r.expiry.id = some r from c.listed?_eq_some_iff.2 ⟨rfl, he⟩]
  rfl

theorem nodup_due (c : l.Consistent) (now : Instant) : (l.due now).Nodup := by
  refine List.Nodup.map_on ?_ (l.index.nodup_keys.filter _)
  intro a ha b hb hid
  obtain ⟨h, ha⟩ := Table.mem_keys_iff.1 (List.mem_filter.1 ha).1
  obtain ⟨r, hb⟩ := Table.mem_keys_iff.1 (List.mem_filter.1 hb).1
  exact c.entry_unique ha hb hid

theorem length_due (l : Ledger) (now : Instant) :
    (l.due now).length = (l.index.filter fun e _ => e.deadline ≤ now).size := by
  rw [due, ← Table.keys_filter, List.length_map, Table.keys, List.length_map, Table.size]

/-- What is given back is due no more, and the rest is. -/
theorem Returned.due_eq (h : l.Returned m ids) (now : Instant) :
    m.due now = (l.due now).filter (· ∉ ids) := by
  rw [due, due, h.index, Table.keys_filter, List.filter_map, List.filter_filter,
    List.filter_filter]
  simp only [Bool.and_comm, Function.comp_def]

/-- When a batch is done, the next scan goes on where this one ended. -/
theorem due_releasedAll (c : l.Consistent) (now : Instant) (count : Nat) :
    (l.releasedAll ((l.due now).take count)).due now = (l.due now).drop count := by
  rw [(returned_releasedAll c _).due_eq now, filter_notMem_take (nodup_due c now)]

/-! ## Batches -/

theorem listed?_released (c : l.Consistent) (id a : ReservationId) :
    (l.released id).listed? a = if a = id then none else l.listed? a := by
  have habove := deposit_above (l.withoutHold id) (Reservation.heldLines l id)
  rw [released, ← habove.listed?_eq a, listed?_withoutHold c]

theorem releasedAll_append (l : Ledger) (ids more : List ReservationId) :
    l.releasedAll (ids ++ more) = (l.releasedAll ids).releasedAll more := List.foldl_append ..

theorem incrementsFail_releasedAll (c : l.Consistent) (ids : List ReservationId) :
    (l.releasedAll ids).incrementsFail = l.incrementsFail :=
  (returned_releasedAll c ids).increments

end Ledger

namespace Reservation

open Ledger

variable {l : Ledger} {now : Instant}

/-- The report when so many more reservations were met, all of which had holds. -/
def SweepReport.plus (r : SweepReport) (n : Nat) : SweepReport := ⟨r.scanned + n, r.restored + n⟩

theorem SweepReport.plus_plus (r : SweepReport) (m n : Nat) :
    (r.plus m).plus n = r.plus (m + n) := by
  simp only [plus, Nat.add_assoc]

/-- A batch of listed reservations is given back. -/
theorem run_sweepBatch (c : l.Consistent) (hinc : l.incrementsFail = false) (report : SweepReport)
    {ids : List ReservationId} (hnodup : ids.Nodup)
    (hlisted : ∀ id ∈ ids, (l.listed? id).isSome = true) :
    (sweepBatch report ids).run (Stock.answer now) l =
      (.ok (report.plus ids.length), l.releasedAll ids) := by
  induction ids generalizing l report with
  | nil => rfl
  | cons id ids ih =>
    obtain ⟨hid, hnodup⟩ := List.nodup_cons.1 hnodup
    obtain ⟨hfirst, hrest⟩ := List.forall_mem_cons.1 hlisted
    have hinc' := (returned_released c id).increments.trans hinc
    have hlisted' : ∀ a ∈ ids, ((l.released id).listed? a).isSome = true := by
      intro a ha
      have hne : a ≠ id := fun h => hid (h ▸ ha)
      rw [listed?_released c, if_neg hne]
      exact hrest a ha
    have hnext : (⟨report.scanned + 1, report.restored + (if true then 1 else 0)⟩ : SweepReport) =
        report.plus 1 := rfl
    rw [sweepBatch, run_bind, run_release c hinc, hfirst]
    dsimp only
    rw [hnext, ih (c.released id) hinc' _ hnodup hlisted', SweepReport.plus_plus,
      List.length_cons, Nat.add_comm]
    rfl

theorem run_round (c : l.Consistent) (hinc : l.incrementsFail = false) (batch : BatchSize)
    (report : SweepReport) :
    (sweepBatch report (l.expired now batch.count)).run (Stock.answer now) l =
      (.ok (report.plus (min batch.count (l.due now).length)),
        l.releasedAll ((l.due now).take batch.count)) := by
  have hnodup := (nodup_due c now).sublist (List.take_sublist batch.count _)
  have hlisted : ∀ id ∈ (l.due now).take batch.count, (l.listed? id).isSome = true :=
    fun id hid => isSome_listed?_of_mem_due c (List.mem_of_mem_take hid)
  rw [expired_eq_take, run_sweepBatch c hinc report hnodup hlisted, List.length_take]

/-! ## Whole sweeps -/

/-- What a sweep ends with that has reported so much: all that is due is given back. -/
def swept (report : SweepReport) (l : Ledger) (now : Instant) :
    Except StockError SweepReport × Ledger :=
  (.ok (report.plus (l.due now).length), l.releasedAll (l.due now))

/-- A round that is not full gives all back. -/
theorem round_eq_swept (report : SweepReport) {count : Nat} (hlast : (l.due now).length < count) :
    (Except.ok (report.plus (min count (l.due now).length)),
      l.releasedAll ((l.due now).take count)) = swept report l now := by
  rw [swept, List.take_of_length_le hlast.le, Nat.min_eq_right hlast.le]

/-- After a full round the sweep still ends with the same. -/
theorem swept_round (c : l.Consistent) (report : SweepReport) {count : Nat}
    (hfull : count ≤ (l.due now).length) :
    swept (report.plus (min count (l.due now).length)) (l.releasedAll ((l.due now).take count))
      now = swept report l now := by
  have hall : min count (l.due now).length + ((l.due now).length - count) =
      (l.due now).length := by
    omega
  rw [swept, swept, due_releasedAll c, ← releasedAll_append, List.take_append_drop,
    List.length_drop, SweepReport.plus_plus, hall]

/-- How a sweep goes on from a report, round after round, and what it ends with. Nothing bounds the
number of rounds. -/
inductive Sweeps (batch : BatchSize) (now : Instant) :
    SweepReport → Ledger → Except StockError SweepReport × Ledger → Prop where
  | fails {report : SweepReport} {l m : Ledger} {e : StockError}
      (round : (sweepBatch report (l.expired now batch.count)).run (Stock.answer now) l =
        (.error e, m)) : Sweeps batch now report l (.error e, m)
  | ends {report report' : SweepReport} {l m : Ledger}
      (round : (sweepBatch report (l.expired now batch.count)).run (Stock.answer now) l =
        (.ok report', m))
      (last : (l.expired now batch.count).length < batch.count) :
      Sweeps batch now report l (.ok report', m)
  | goesOn {report report' : SweepReport} {l m : Ledger}
      {outcome : Except StockError SweepReport × Ledger}
      (round : (sweepBatch report (l.expired now batch.count)).run (Stock.answer now) l =
        (.ok report', m))
      (full : ¬ (l.expired now batch.count).length < batch.count)
      (rest : Sweeps batch now report' m outcome) : Sweeps batch now report l outcome

theorem length_expired_lt_iff {count : Nat} :
    (l.expired now count).length < count ↔ (l.due now).length < count := by
  rw [expired_eq_take, List.length_take]
  omega

/-- A sweep ends, and gives back all that is due. -/
theorem sweeps_iff (c : l.Consistent) (hinc : l.incrementsFail = false) (batch : BatchSize)
    (report : SweepReport) {outcome : Except StockError SweepReport × Ledger} :
    Sweeps batch now report l outcome ↔ outcome = swept report l now := by
  constructor
  · intro h
    induction h with
    | fails round =>
      rw [run_round c hinc] at round
      cases round
    | ends round last =>
      rw [run_round c hinc] at round
      rw [← round, round_eq_swept _ (length_expired_lt_iff.1 last)]
    | goesOn round full rest ih =>
      rw [run_round c hinc, Prod.mk.injEq, Except.ok.injEq] at round
      obtain ⟨rfl, rfl⟩ := round
      have hfull := Nat.le_of_not_lt (mt length_expired_lt_iff.2 full)
      rw [ih (c.releasedAll _) ((incrementsFail_releasedAll c _).trans hinc), swept_round c _ hfull]
  · rintro rfl
    generalize hn : (l.due now).length = n
    induction n using Nat.strong_induction_on generalizing l report with
    | _ n ih =>
      by_cases hlast : (l.due now).length < batch.count
      · rw [← round_eq_swept report hlast]
        exact .ends (run_round c hinc batch report) (length_expired_lt_iff.2 hlast)
      · have hfull := Nat.le_of_not_lt hlast
        have hpos := batch.count_pos
        rw [← swept_round c report hfull]
        refine .goesOn (run_round c hinc batch report) (mt length_expired_lt_iff.1 hlast)
          (ih _ ?_ (c.releasedAll _) ((incrementsFail_releasedAll c _).trans hinc) _ rfl)
        rw [due_releasedAll c, List.length_drop]
        omega

/-- As many rounds as there are reservations that are due are enough, and one more. -/
theorem run_sweepRounds (c : l.Consistent) (hinc : l.incrementsFail = false) (batch : BatchSize)
    (report : SweepReport) {rounds : Nat} (henough : (l.due now).length < rounds) :
    (sweepRounds batch now report rounds).run (Stock.answer now) l = swept report l now := by
  induction rounds generalizing l report with
  | zero => omega
  | succ rounds ih =>
    have hscan : (Stock.expired now batch.count).run (Stock.answer now) l =
        (l.expired now batch.count, l) := rfl
    rw [sweepRounds, run_bind, hscan, run_bind, run_round c hinc]
    dsimp only
    by_cases hlast : (l.due now).length < batch.count
    · rw [if_pos (length_expired_lt_iff.2 hlast)]
      exact round_eq_swept report hlast
    · have hfull := Nat.le_of_not_lt hlast
      have hpos := batch.count_pos
      have hinc' := (incrementsFail_releasedAll c ((l.due now).take batch.count)).trans hinc
      have hfewer : ((l.releasedAll ((l.due now).take batch.count)).due now).length < rounds := by
        rw [due_releasedAll c, List.length_drop]
        omega
      rw [if_neg (mt length_expired_lt_iff.1 hlast), ih (c.releasedAll _) hinc' _ hfewer,
        swept_round c report hfull]

end Reservation

namespace Ledger

variable {l m : Ledger} {now : Instant}

theorem length_due_le (l : Ledger) (now : Instant) : (l.due now).length ≤ l.index.size := by
  rw [length_due]
  exact List.length_filter_le ..

/-- Sweeping the ledger gives back all that is due. -/
theorem sweep_eq (c : l.Consistent) (hinc : l.incrementsFail = false) (now : Instant)
    (batch : BatchSize) : l.sweep now batch = Reservation.swept {} l now :=
  Reservation.run_sweepRounds c hinc batch {} (Nat.lt_succ_of_le (l.length_due_le now))

/-- The ledger `m` is `l` after a sweep at `now`. -/
structure Cleared (l m : Ledger) (now : Instant) : Prop where
  index : m.index = l.index.filter fun e _ => now < e.deadline
  holds : m.holds = l.holds.filter fun id _ => id ∉ l.due now
  deadlines : m.deadlines = l.deadlines.filter fun id _ => id ∉ l.due now
  stock : ∀ p, m.stockOf p = l.stockOf p + l.index.total fun e h =>
    if e.deadline ≤ now then (StockLine.quantityOf p h.lines : Int) else 0
  counted : ∀ e h, l.index.get? e = some h → e.deadline ≤ now → ∀ line ∈ h.lines,
    (m.available? line.product).isSome = true
  untouched : ∀ p, (∀ e h, l.index.get? e = some h → e.deadline ≤ now →
    ∀ line ∈ h.lines, line.product ≠ p) → m.level? p = l.level? p
  openStores : m.openStores = l.openStores
  forcedConflicts : m.forcedConflicts = l.forcedConflicts
  increments : m.incrementsFail = l.incrementsFail

/-- When all that is due was given back, the ledger is cleared. -/
theorem Returned.cleared (c : l.Consistent) (h : l.Returned m (l.due now)) : l.Cleared m now where
  index := by
    rw [h.index]
    refine Table.ext_get? fun e => ?_
    rw [Table.get?_filter, Table.get?_filter]
    cases he : l.index.get? e with
    | none => rfl
    | some r =>
      have hdue : e.id ∈ l.due now ↔ _ := mem_due_iff c he
      simp only [Option.filter_some, hdue, Instant.lt_iff, Instant.le_iff, not_le]
  holds := h.holds
  deadlines := h.deadlines
  stock p := by
    have hheld : l.heldUnder (l.due now) p = l.index.total fun e h =>
        if e.deadline ≤ now then (StockLine.quantityOf p h.lines : Int) else 0 :=
      Table.total_congr fun e r he => by simp only [mem_due_iff c he]
    rw [h.stock, hheld]
  counted e r he hdue := h.counted e r he ((mem_due_iff c he).2 hdue)
  untouched p hp := h.untouched p fun e r he hid => hp e r he ((mem_due_iff c he).1 hid)
  openStores := h.openStores
  forcedConflicts := h.forcedConflicts
  increments := h.increments

/-- **A sweep ends, and clears the ledger of just what is due.**

In every ledger that can be reached, and while increments succeed, a sweep ends whatever its batch
size is: it has met and given back as many reservations as there are entries whose deadline has
passed, and leaves a ledger that is cleared of these and no others. The ledger is the same for every
batch size, and a second sweep at the same instant finds nothing and leaves it so. The bound on the
number of rounds plays no part. Where 64-bit counters have room for what is held, they have room for
what is given back.
-/
theorem sweep_is_exact (hl : l.Reachable) (hinc : l.incrementsFail = false) (now : Instant) :
    let n := (l.index.filter fun e _ => e.deadline ≤ now).size
    ∃ m, l.Cleared m now ∧ (l.HasRoom → m.HasRoom) ∧ ∀ batch : BatchSize,
      (∀ outcome, Reservation.Sweeps batch now {} l outcome ↔ outcome = (.ok ⟨n, n⟩, m)) ∧
        l.sweep now batch = (.ok ⟨n, n⟩, m) ∧
        (∀ outcome, Reservation.Sweeps batch now {} m outcome ↔ outcome = (.ok {}, m)) ∧
        m.sweep now batch = (.ok {}, m) := by
  intro n
  have c := hl.consistent
  have hswept : Reservation.swept {} l now = (.ok ⟨n, n⟩, l.releasedAll (l.due now)) := by
    rw [Reservation.swept, Reservation.SweepReport.plus, length_due, Nat.zero_add]
  have c' := c.releasedAll (l.due now)
  have hinc' := (incrementsFail_releasedAll c (l.due now)).trans hinc
  have hnone : (l.releasedAll (l.due now)).due now = [] := by
    have hrest := due_releasedAll c now (l.due now).length
    rwa [List.take_length, List.drop_length] at hrest
  have hagain : Reservation.swept {} (l.releasedAll (l.due now)) now =
      (.ok {}, l.releasedAll (l.due now)) := by
    rw [Reservation.swept, hnone]
    rfl
  have hreturned := returned_releasedAll c (l.due now)
  refine ⟨_, hreturned.cleared c, hreturned.hasRoom, fun batch => ⟨fun outcome => ?_, ?_,
    fun outcome => ?_, ?_⟩⟩
  · rw [Reservation.sweeps_iff c hinc, hswept]
  · rw [sweep_eq c hinc, hswept]
  · rw [Reservation.sweeps_iff c' hinc', hagain]
  · rw [sweep_eq c' hinc', hagain]

/-- Two widgets, held for some minutes. -/
def widgetsHeldFor (minutes : UInt32) (id : ReservationId) : Hold :=
  ⟨id, ⟨"store"⟩, [⟨⟨"widget"⟩, 2⟩], .ofSecond 0, .ofSecond (minutes * 60)⟩

/-- One widget in stock and three holds, of which one has lost its record. -/
def heldWidgets : Ledger :=
  let holds := [widgetsHeldFor 30 ⟨"long"⟩, widgetsHeldFor 1 ⟨"first"⟩, widgetsHeldFor 2 ⟨"second"⟩]
  let made := holds.foldl (fun l h => (Stock.answer (.ofSecond 0) (.insertHold h) l).2)
    (({} : Ledger).write ⟨"widget"⟩ 1)
  (made.evict (.ofSecond 60)).2

/-- After two minutes a sweep in batches of one gives two of the holds back. -/
theorem widgets_are_swept_one_by_one :
    heldWidgets.Reachable ∧ heldWidgets.incrementsFail = false ∧
      ∃ m, heldWidgets.Cleared m (.ofSecond 120) ∧
        heldWidgets.sweep (.ofSecond 120) (.ofNat 1) = (.ok ⟨2, 2⟩, m) ∧
        m.stockOf ⟨"widget"⟩ = 5 := by
  have hl : heldWidgets.Reachable :=
    .evict (.answer (.answer (.answer (.setStock .empty _ _) _ _) _ _) _ _) _
  have hinc : heldWidgets.incrementsFail = false := by decide
  obtain ⟨m, hcleared, -, hsweeps⟩ := sweep_is_exact hl hinc (.ofSecond 120)
  have hn : (heldWidgets.index.filter fun e _ => e.deadline ≤ .ofSecond 120).size = 2 := by
    decide
  have hstock : heldWidgets.stockOf ⟨"widget"⟩ + heldWidgets.index.total (fun e h =>
      if e.deadline ≤ .ofSecond 120 then (StockLine.quantityOf ⟨"widget"⟩ h.lines : Int)
      else 0) = 5 := by
    decide
  obtain ⟨-, hswept, -⟩ := hsweeps (.ofNat 1)
  rw [hn] at hswept
  exact ⟨hl, hinc, m, hcleared, hswept, (hcleared.stock _).trans hstock⟩

end Ledger
end Fulfilment
