import Fulfilment.Proofs.Saga.Overdue
import Fulfilment.Proofs.Service.Change
import Fulfilment.Proofs.Stock.Reachable
import Fulfilment.Proofs.Stock.Releasing

/-!
# What scans for overdue payments come to

A scan lists orders first and then loads each of them again, so it could find that an order has
moved on. While nobody else writes and no store fails it finds all of them as listed: timing one
order out changes no other (`World.TimedOut`). So a scan times out the first of the overdue orders,
the next scan goes on with the rest (`OrderBook.Overdue.drop`), and scans of any size that are
repeated until nothing is left time out the same orders in the same order.
-/
namespace Fulfilment

open Script

namespace Order

variable {o : Order} {now : Instant}

/-- The order after its payment was not made in time. -/
def timedOut (o : Order) (now : Instant) : Order :=
  o.apply (.paymentTimedOut o.expiresAt o.timeoutReason now)

@[simp] theorem id_timedOut (o : Order) (now : Instant) : (o.timedOut now).id = o.id := rfl

/-- What is recorded of that. -/
def timeOutEntry (o : Order) (now : Instant) : AuditEntry where
  order := o.id
  action := "PaymentTimeout"
  source := some o.status
  target := .paymentTimeout
  actor := Saga.scanner
  detail := some o.timeoutReason
  recordedAt := now

/-- What others are told of it. -/
def timeOutNotice (o : Order) (now : Instant) : Notice :=
  .orderCancelled o.id o.reservation (.classify o.timeoutReason) o.timeoutReason true
    (Notice.stockLines o) now

theorem transition_timeOut (h : o.isOverdue now = true) :
    o.transition .timeOut now = .ok (o.timedOut now,
      ⟨o.status, .paymentTimeout, .paymentTimedOut o.expiresAt o.timeoutReason now⟩) := by
  have hstatus : o.status.awaitsPayment = true := by
    rw [isOverdue, Bool.and_eq_true] at h
    exact h.1
  exact transition_of_accepts (.timeOut hstatus)

end Order

namespace World

variable {w m w' : World} {o : Order} {os more : List Order}

/-! ## One order -/

/-- The world after an order was timed out. -/
def lapse (w : World) (o : Order) : World :=
  w.store
    { order := o.timedOut w.clock
      followUp := Reaction.releasing o
      entries := [o.timeOutEntry w.clock]
      notices := [o.timeOutNotice w.clock] }

/-- No store refuses what it is told. -/
structure Working (w : World) : Prop where
  saving : w.book.failing = false
  recording : w.trail.failing = false
  publishing : w.outbox.failing = false
  increments : w.ledger.incrementsFail = false

/-- The world `w'` is `w` after some orders were timed out. -/
structure TimedOut (w w' : World) (os : List Order) : Prop where
  moved : ∀ o ∈ os, w'.book.get? o.id = some
    { o with
      status := .paymentTimeout
      version := o.version + 1
      updatedAt := w.clock
      cancelledAt := w.clock
      failureReason := o.timeoutReason }
  others : ∀ id, id ∉ os.map Order.id → w'.book.get? id = w.book.get? id
  entries : w'.trail.entries = w.trail.entries ++ os.map fun o => o.timeOutEntry w.clock
  notices : w'.outbox.notices = w.outbox.notices ++ os.map fun o => o.timeOutNotice w.clock
  holds : w.ledger.Returned w'.ledger (os.filterMap Order.reservation)
  clock : w'.clock = w.clock
  saving : w'.book.failing = w.book.failing
  recording : w'.trail.failing = w.trail.failing
  publishing : w'.outbox.failing = w.outbox.failing
  keys : w'.keys = w.keys
  catalog : w'.catalog = w.catalog

/-- Timing out an order leaves the ledger with the order's hold given back. -/
theorem ledger_lapse (c : w.ledger.Consistent) (hw : w.Working) (o : Order) :
    (w.lapse o).ledger = w.ledger.releasedAll o.reservation.toList := by
  rw [lapse, store, Reaction.releasing]
  cases o.reservation with
  | none => rfl
  | some id =>
    have hrun : (Reservation.release id).run (Stock.answer w.clock) w.ledger = _ :=
      Reservation.run_release c hw.increments id
    simp only [FollowUp.ledger, hrun]
    rfl

/-- Timing out one order. -/
theorem timedOut_lapse (c : w.ledger.Consistent) (hw : w.Working) (o : Order) :
    w.TimedOut (w.lapse o) [o] where
  moved x hx := by
    rw [List.mem_singleton.1 hx]
    exact (OrderBook.get?_store ..).trans (if_pos rfl)
  others id hid := (OrderBook.get?_store ..).trans (if_neg (by simpa using hid))
  entries := by
    have hfindings := FollowUp.findings_releasing o (o.timedOut w.clock) w.clock w.ledger
    rw [lapse, store, hfindings, List.append_nil]
    exact (AuditTrail.recordAll_of_recording hw.recording _).2
  notices := by
    have hpublish : w.outbox.publish (o.timeOutNotice w.clock) =
        { w.outbox with notices := w.outbox.notices ++ [o.timeOutNotice w.clock] } := by
      simp [Outbox.publish, hw.publishing]
    exact congrArg Outbox.notices hpublish
  holds := by
    rw [ledger_lapse c hw, List.filterMap_cons]
    cases h : o.reservation <;> exact Ledger.returned_releasedAll c _
  clock := rfl
  saving := rfl
  recording := by
    have hrecord := (AuditTrail.recordAll_of_recording hw.recording
      ([o.timeOutEntry w.clock] ++ (Reaction.releasing o).findings (o.timedOut w.clock) w.clock
        w.ledger)).1
    exact hrecord.trans hw.recording.symm
  publishing := by
    have hpublish : (w.outbox.publish (o.timeOutNotice w.clock)).failing = w.outbox.failing := by
      simp [Outbox.publish, hw.publishing]
    exact hpublish
  keys := rfl
  catalog := rfl

/-! ## Several orders -/

namespace TimedOut

theorem refl (w : World) : w.TimedOut w [] := by
  constructor <;> simp [Ledger.Returned.refl]

theorem working (h : w.TimedOut m os) (hw : w.Working) : m.Working where
  saving := h.saving.trans hw.saving
  recording := h.recording.trans hw.recording
  publishing := h.publishing.trans hw.publishing
  increments := h.holds.increments.trans hw.increments

/-- Some orders and then some others are all of them. -/
theorem trans (h : w.TimedOut m os) (h' : m.TimedOut w' more)
    (hapart : ∀ o ∈ os, o.id ∉ more.map Order.id) : w.TimedOut w' (os ++ more) where
  moved o ho := by
    rcases List.mem_append.1 ho with ho | ho
    · rw [h'.others o.id (hapart o ho), h.moved o ho]
    · rw [h'.moved o ho, h.clock]
  others id hid := by
    rw [List.map_append, List.mem_append, not_or] at hid
    rw [h'.others id hid.2, h.others id hid.1]
  entries := by rw [h'.entries, h.entries, h.clock, List.map_append, List.append_assoc]
  notices := by rw [h'.notices, h.notices, h.clock, List.map_append, List.append_assoc]
  holds := by
    rw [List.filterMap_append]
    exact h.holds.trans h'.holds
  clock := h'.clock.trans h.clock
  saving := h'.saving.trans h.saving
  recording := h'.recording.trans h.recording
  publishing := h'.publishing.trans h.publishing
  keys := h'.keys.trans h.keys
  catalog := h'.catalog.trans h.catalog

theorem get?_rest (h : w.TimedOut m [o]) (hid : o.id ∉ os.map Order.id) {x : Order} (hx : x ∈ os) :
    m.book.get? x.id = w.book.get? x.id := by
  refine h.others x.id fun hmem => hid ?_
  rw [← List.mem_singleton.1 hmem]
  exact List.mem_map_of_mem hx

/-- Orders that were timed out are overdue no more, and the others are as before. -/
theorem overdue {due : List Order} {count : Nat} (h : w.TimedOut m (due.take count))
    (hdue : w.book.Overdue w.clock due) : m.book.Overdue m.clock (due.drop count) := by
  rw [h.clock]
  exact hdue.drop count (fun o ho => ⟨_, h.moved o ho, rfl⟩) h.others

end TimedOut

/-- The world after several orders were timed out in turn. -/
def lapseAll (w : World) (os : List Order) : World := os.foldl lapse w

/-- The stores are in order, and all of them work. -/
structure Sound (w : World) : Prop extends w.Working where
  kept : w.book.WellKept
  consistent : w.ledger.Consistent

theorem Sound.lapse (h : w.Sound) (ho : w.book.get? o.id = some o) : (w.lapse o).Sound where
  toWorking := (timedOut_lapse h.consistent h.toWorking o).working h.toWorking
  kept := h.kept.store (Int.le_of_lt (h.kept _ _ ho).2)
  consistent := by
    rw [ledger_lapse h.consistent h.toWorking]
    exact h.consistent.releasedAll _

theorem Sound.lapseAll (h : w.Sound) (hstored : ∀ o ∈ os, w.book.get? o.id = some o)
    (hids : (os.map Order.id).Nodup) : (w.lapseAll os).Sound ∧ w.TimedOut (w.lapseAll os) os := by
  induction os generalizing w with
  | nil => exact ⟨h, .refl w⟩
  | cons o os ih =>
    obtain ⟨ho, hos⟩ := List.forall_mem_cons.1 hstored
    obtain ⟨hid, hids⟩ := List.nodup_cons.1 hids
    have hfirst := timedOut_lapse h.consistent h.toWorking o
    have hstored' : ∀ x ∈ os, (w.lapse o).book.get? x.id = some x := by
      intro x hx
      rw [hfirst.get?_rest hid hx, hos x hx]
    obtain ⟨hsound, hrest⟩ := ih (h.lapse ho) hstored' hids
    refine ⟨hsound, hfirst.trans hrest fun x hx => ?_⟩
    rw [List.mem_singleton.1 hx]
    exact hid

theorem Sound.lapse_take (h : w.Sound) (hdue : w.book.Overdue w.clock os) (count : Nat) :
    (w.lapseAll (os.take count)).Sound ∧ w.TimedOut (w.lapseAll (os.take count)) (os.take count) :=
  h.lapseAll (fun o ho => ((hdue.mem o).1 (List.mem_of_mem_take ho)).1)
    (hdue.nodup_ids_take count)

end World

namespace Saga

variable {w : World} {o : Order} {os due : List Order}

/-! ## Runs -/

theorem run_timeOut (h : w.Sound) (ho : w.book.get? o.id = some o)
    (hoverdue : o.isOverdue w.clock = true) :
    (timeOut .direct o.id).run World.answer w = (.ok true, w.lapse o) := by
  have haccepted : w.book.objection (o.timedOut w.clock) = none :=
    OrderBook.objection_eq_none h.saving ho rfl rfl (h.kept _ _ ho).2
  have hends : (timeOut .direct o.id).Yields World.answer
      (fun r w' => r = .ok true ∧ w' = w.lapse o) w := by
    rw [timeOut, yields_bind, Shop.yields_load, ho]
    dsimp only
    rw [yields_bind, Shop.yields_now, if_pos hoverdue, Order.transition_timeOut hoverdue]
    refine yields_bind.2 (Shop.yields_save_of (fun cause hcause => ?_) fun _ => ?_)
    · rw [haccepted] at hcause
      cases hcause
    · refine yields_bind.2 (yields_afterTimeOut_iff.2 ⟨rfl, ?_⟩)
      exact (w.store_releasing (o.timedOut w.clock) (o.timeOutEntry w.clock)
        (o.timeOutNotice w.clock)).symm
  exact Prod.ext hends.1 hends.2

/-- Overdue orders of different ids are all timed out. -/
theorem run_timeOutAll (h : w.Sound) (count : Nat)
    (hstored : ∀ o ∈ os, w.book.get? o.id = some o ∧ o.isOverdue w.clock = true)
    (hids : (os.map Order.id).Nodup) :
    (timeOutAll .direct count (os.map Order.id)).run World.answer w =
      (count + os.length, w.lapseAll os) := by
  induction os generalizing w count with
  | nil => rfl
  | cons o os ih =>
    obtain ⟨⟨ho, hoverdue⟩, hos⟩ := List.forall_mem_cons.1 hstored
    obtain ⟨hid, hids⟩ := List.nodup_cons.1 hids
    have hfirst := World.timedOut_lapse h.consistent h.toWorking o
    have hstored' : ∀ x ∈ os, (w.lapse o).book.get? x.id = some x ∧
        x.isOverdue (w.lapse o).clock = true := by
      intro x hx
      rw [hfirst.get?_rest hid hx]
      exact hos x hx
    rw [List.map_cons, timeOutAll, run_bind, run_timeOut h ho hoverdue]
    dsimp only
    rw [ih (h.lapse ho) (count + 1) hstored' hids, List.length_cons, Nat.add_assoc,
      Nat.add_comm 1]
    rfl

/-- A scan times out the first of the overdue orders. -/
theorem run_scan (h : w.Sound) (hdue : w.book.Overdue w.clock due) (batch : BatchSize) :
    (scan .direct batch).run World.answer w =
      (.ok (min batch.count due.length), w.lapseAll (due.take batch.count)) := by
  have hnow : Shop.now.run World.answer w = (w.clock, w) := rfl
  have hlisted : (Shop.overdue w.clock batch.count).run World.answer w =
      (.ok (w.book.overdue w.clock batch.count), w) := rfl
  have hstored : ∀ o ∈ due.take batch.count,
      w.book.get? o.id = some o ∧ o.isOverdue w.clock = true := by
    intro o ho
    obtain ⟨hstored, hoverdue⟩ := (hdue.mem o).1 (List.mem_of_mem_take ho)
    exact ⟨hstored, Order.isOverdue_iff.2 hoverdue⟩
  rw [scan, run_bind, hnow, run_bind, hlisted, hdue.overdue_eq h.kept]
  dsimp only
  rw [run_bind, run_timeOutAll h 0 hstored (hdue.nodup_ids_take _), Nat.zero_add, List.length_take]
  rfl

/-! ## Scans that are repeated -/

/-- Scans that are repeated until one of them times out nothing, what each of the others has
counted, and the world after them. -/
inductive Scans (batch : BatchSize) : World → List Nat → World → Prop where
  | ends {w w' : World} (last : (scan .direct batch).run World.answer w = (.ok 0, w')) :
      Scans batch w [] w'
  | goesOn {w m w' : World} {n : Nat} {counts : List Nat}
      (some : (scan .direct batch).run World.answer w = (.ok (n + 1), m))
      (rest : Scans batch m counts w') : Scans batch w ((n + 1) :: counts) w'

section Scans

variable {batch : BatchSize} {counts : List Nat} {m w' : World}

theorem scans_iff_of_none (h : (scan .direct batch).run World.answer w = (.ok 0, m)) :
    Scans batch w counts w' ↔ counts = [] ∧ w' = m := by
  constructor
  · intro hscans
    cases hscans with
    | ends last =>
      rw [h] at last
      cases last
      exact ⟨rfl, rfl⟩
    | goesOn some rest =>
      rw [h] at some
      cases some
  · rintro ⟨rfl, rfl⟩
    exact .ends h

/-- Where something is left, scans are repeated after the first. -/
theorem scans_iff_of_some {n : Nat}
    (h : (scan .direct batch).run World.answer w = (.ok (n + 1), m)) :
    Scans batch w counts w' ↔ ∃ rest, counts = (n + 1) :: rest ∧ Scans batch m rest w' := by
  constructor
  · intro hscans
    cases hscans with
    | ends last =>
      rw [h] at last
      cases last
    | goesOn some rest =>
      rw [h] at some
      cases some
      exact ⟨_, rfl, rest⟩
  · rintro ⟨rest, rfl, hrest⟩
    exact .goesOn h hrest

end Scans

/-- A scan takes one page of the list. -/
theorem pages_add {n size : Nat} (hn : 0 < n) (hsize : 0 < size) :
    (n + size - 1) / size = (n - size + size - 1) / size + 1 := by
  rcases Nat.lt_or_ge n size with hlt | hge
  · have hfirst : n + size - 1 = (n - 1) + size := by omega
    have hlast : n - size + size - 1 = size - 1 := by omega
    rw [hfirst, hlast, Nat.add_div_right _ hsize, Nat.div_eq_of_lt (by omega),
      Nat.div_eq_of_lt (by omega)]
  · have hall : n + size - 1 = (n - size + size - 1) + size := by omega
    rw [hall, Nat.add_div_right _ hsize]

/-- Repeated scans end, and time out all overdue orders. -/
theorem scans_iff (h : w.Sound) (hdue : w.book.Overdue w.clock due) (batch : BatchSize) :
    ∃ counts, counts.length = (due.length + batch.count - 1) / batch.count ∧
      counts.sum = due.length ∧
      ∀ counts' w', Scans batch w counts' w' ↔ counts' = counts ∧ w' = w.lapseAll due := by
  have hpos := batch.count_pos
  generalize hn : due.length = n
  induction n using Nat.strong_induction_on generalizing w due with
  | _ n ih =>
    have hscan := run_scan h hdue batch
    rw [hn] at hscan
    rcases Nat.eq_zero_or_pos n with rfl | hsome
    · obtain rfl := List.eq_nil_of_length_eq_zero hn
      rw [Nat.min_zero, List.take_nil] at hscan
      refine ⟨[], ?_, rfl, fun counts' w' => scans_iff_of_none hscan⟩
      rw [Nat.zero_add, Nat.div_eq_of_lt (by omega)]
      rfl
    · -- the first scan takes some orders, and the others are due in the world after it
      obtain ⟨k, hk⟩ := Nat.exists_eq_add_one.2 (Nat.lt_min.2 ⟨hpos, hsome⟩)
      obtain ⟨hsound, htimed⟩ := h.lapse_take hdue batch.count
      have hlength : (due.drop batch.count).length = n - batch.count := by
        rw [List.length_drop, hn]
      obtain ⟨counts, hcount, hsum, hscans⟩ :=
        ih _ (by omega) hsound (htimed.overdue hdue) hlength
      have hall : (w.lapseAll (due.take batch.count)).lapseAll (due.drop batch.count) =
          w.lapseAll due := by
        rw [World.lapseAll, World.lapseAll, ← List.foldl_append, List.take_append_drop]
        rfl
      rw [hk] at hscan
      refine ⟨(k + 1) :: counts, ?_, ?_, fun counts' w' => ?_⟩
      · rw [List.length_cons, hcount, pages_add hsome hpos]
      · rw [List.sum_cons, hsum]
        omega
      · rw [scans_iff_of_some hscan]
        simp only [hscans, hall]
        constructor
        · rintro ⟨rest, rfl, rfl, rfl⟩
          exact ⟨rfl, rfl⟩
        · rintro ⟨rfl, rfl⟩
          exact ⟨counts, rfl, rfl, rfl⟩

/-- **Scans for overdue payments are exact, whatever their size is.**

Take a book and a ledger that can be reached, at any instant, and let all stores work. Among the
orders some are overdue, in the order of their deadlines. A scan times out the first of these, as
many as fit the batch, and counts them: they are saved as timed out, each is recorded and told of in
this order, and their holds are given back. All other orders and holds are as before. Scans that are
repeated until one finds nothing are as many as it takes to go through the list in batches, and end
in one world for all batch sizes. Where 64-bit counters have room for what is held, they have room
for what is given back.
-/
theorem scanning_is_exact (hbook : w.book.Reachable) (hledger : w.ledger.Reachable)
    (hworking : w.Working) :
    ∃ due last, w.book.Overdue w.clock due ∧ w.TimedOut last due ∧
      (w.ledger.HasRoom → last.ledger.HasRoom) ∧ ∀ batch : BatchSize,
      (∃ w', (scan .direct batch).run World.answer w = (.ok (min batch.count due.length), w') ∧
        w.TimedOut w' (due.take batch.count)) ∧
      ∃ counts, counts.length = (due.length + batch.count - 1) / batch.count ∧
        counts.sum = due.length ∧
        ∀ counts' w', Scans batch w counts' w' ↔ counts' = counts ∧ w' = last := by
  have h : w.Sound := ⟨hworking, hbook.wellKept, hledger.consistent⟩
  have hdue := OrderBook.overdue_overdueOrders h.kept w.clock
  have hall := (h.lapse_take hdue (w.book.overdueOrders w.clock).length).2
  rw [List.take_length] at hall
  exact ⟨_, _, hdue, hall, hall.holds.hasRoom, fun batch =>
    ⟨⟨_, run_scan h hdue batch, (h.lapse_take hdue batch.count).2⟩, scans_iff h hdue batch⟩⟩

/-- An order of two widgets under another id, with some minutes to pay for them, as it is stored. -/
def unpaidWidgets (n : Nat) (minutes : UInt32) (reservation : ReservationId) : Order :=
  { placedWidgets with
    id := ⟨.ofNat n⟩
    number := .draw widgetShop.clock n
    version := 1
    status := .paymentPending
    reservation
    expiresAt := some (.ofSecond (minutes * 60)) }

/-- Four such orders after two minutes. One has time left, and one has a hold. -/
def unpaidShop : World :=
  let orders := [unpaidWidgets 3 2 ⟨"second"⟩, unpaidWidgets 4 30 ⟨"long"⟩,
    unpaidWidgets 5 1 ⟨"first"⟩, unpaidWidgets 6 1 ⟨"lost"⟩]
  let hold : Hold := ⟨⟨"first"⟩, ⟨"store"⟩, [⟨⟨"widget"⟩, 2⟩], .ofSecond 0, .ofSecond 60⟩
  { widgetShop with
    clock := .ofSecond 120
    ledger := (Stock.answer (.ofSecond 0) (.insertHold hold) widgetShop.ledger).2
    book := orders.foldl (fun b o => (b.save { o with version := 0 }).2) {} }

/-- The overdue orders of the shop. -/
def unpaidDue : List Order :=
  [unpaidWidgets 5 1 ⟨"first"⟩, unpaidWidgets 6 1 ⟨"lost"⟩, unpaidWidgets 3 2 ⟨"second"⟩]

/-- In two batches, three orders are timed out, and the one hold is given back. -/
theorem unpaid_widgets_time_out :
    unpaidShop.book.Reachable ∧ unpaidShop.ledger.Reachable ∧ unpaidShop.Working ∧
      ∃ last counts, unpaidShop.TimedOut last unpaidDue ∧ Scans (.ofNat 2) unpaidShop counts last ∧
        counts.length = 2 ∧ counts.sum = 3 ∧ last.ledger.stockOf ⟨"widget"⟩ = 7 := by
  have hbook : unpaidShop.book.Reachable := .save (.save (.save (.save .empty _) _) _) _
  have hledger : unpaidShop.ledger.Reachable := .answer (.openStore (.setStock .empty _ _) _) _ _
  have hworking : unpaidShop.Working := ⟨by decide +kernel, rfl, rfl, rfl⟩
  have hdue : unpaidShop.book.Overdue unpaidShop.clock unpaidDue := by
    have hvalues : unpaidShop.book.orders.values = [unpaidWidgets 3 2 ⟨"second"⟩,
        unpaidWidgets 4 30 ⟨"long"⟩, unpaidWidgets 5 1 ⟨"first"⟩, unpaidWidgets 6 1 ⟨"lost"⟩] := by
      decide +kernel
    refine ⟨fun o => ?_, ?_⟩
    · rw [← hbook.wellKept.mem_values, ← Order.isOverdue_iff, hvalues]
      constructor
      · revert o
        decide +kernel
      · rintro ⟨ho, hoverdue⟩
        revert o
        decide +kernel
    · have sooner : ∀ n id,
          OrderBook.Precedes (unpaidWidgets n 1 id) (unpaidWidgets 3 2 ⟨"second"⟩) :=
        fun n id => ⟨_, _, rfl, rfl, .inl (by decide)⟩
      have lower : OrderBook.Precedes (unpaidWidgets 5 1 ⟨"first"⟩) (unpaidWidgets 6 1 ⟨"lost"⟩) :=
        ⟨_, _, rfl, rfl, .inr ⟨rfl, by decide⟩⟩
      simp [unpaidDue, sooner, lower]
  obtain ⟨due, last, hdue', htimed, -, hscans⟩ := scanning_is_exact hbook hledger hworking
  obtain rfl := hdue'.unique hdue
  obtain ⟨-, counts, hcount, hsum, hends⟩ := hscans (.ofNat 2)
  have hstock : unpaidShop.ledger.stockOf ⟨"widget"⟩ +
      unpaidShop.ledger.heldUnder (unpaidDue.filterMap Order.reservation) ⟨"widget"⟩ = 7 := by
    decide +kernel
  exact ⟨hbook, hledger, hworking, last, counts, htimed, (hends _ _).2 ⟨rfl, rfl⟩, hcount, hsum,
    (htimed.holds.stock _).trans hstock⟩

end Saga
end Fulfilment
