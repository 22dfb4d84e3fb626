import Fulfilment.Proofs.Stock.Conservation

/-!
# What a sweep takes

A sweep lists reservations whose deadline has passed, and takes them one by one in later calls. In
between anyone may end such a hold, and the reservation may be made again, with a hold that is far
from its deadline. The sweep does not look: it takes whatever the reservation holds by then. That is
the only way in which it ever takes a live hold. As long as nobody makes a reservation again that a
sweep has listed, all that the sweep takes had expired when it started.

The argument follows each reservation that a scan has listed through the exchanges after the scan
(`Stock.Since`).
-/
namespace Fulfilment
namespace Ledger

theorem Consistent.change {s : Stock.Site} (c : s.ledger.Consistent) (m : Stock.Site.Change) :
    (Stock.Site.change m s).ledger.Consistent := by
  cases m with
  | evict => exact c.evict s.clock
  | _ => exact c.of_eq rfl rfl rfl

@[simp] theorem listed?_change (s : Stock.Site) (m : Stock.Site.Change) (id : ReservationId) :
    (Stock.Site.change m s).ledger.listed? id = s.ledger.listed? id := by
  cases m <;> rfl

end Ledger

namespace Stock

open Ledger

/-! ## What has been listed -/

/-- What has become of a reservation since a scan at `now` listed it. Its hold has expired by then,
or such a hold was taken after the scan. In the second case a hold that it has again was added after
that. -/
def Since (l : Ledger) (trace : List (Exchange calls)) (scan : Exchange calls) (now : Instant)
    (id : ReservationId) : Prop :=
  (∃ h, l.listed? id = some h ∧ h.expiresAt ≤ now ∧ scan ∈ trace) ∨
    ∃ old, old.expiresAt ≤ now ∧ [scan, ⟨.takeHold id, some old⟩].Sublist trace ∧
      ∀ h, l.listed? id = some h →
        [scan, ⟨.takeHold id, some old⟩, ⟨.insertHold h, true⟩].Sublist trace

namespace Since

variable {l m : Ledger} {trace : List (Exchange calls)} {scan : Exchange calls} {now : Instant}
  {id : ReservationId}

theorem append (h : Since l trace scan now id) (e : Exchange calls)
    (hsame : m.listed? id = l.listed? id) : Since m (trace ++ [e]) scan now id := by
  rcases h with ⟨held, hheld, hdue, hscan⟩ | ⟨old, hdue, htaken, hagain⟩
  · exact .inl ⟨held, hsame.trans hheld, hdue, List.mem_append_left _ hscan⟩
  · refine .inr ⟨old, hdue, htaken.trans (List.sublist_append_left ..), fun h hh => ?_⟩
    exact (hagain h (hsame ▸ hh)).trans (List.sublist_append_left ..)

theorem of_scan (c : l.Consistent) {limit : Nat} (hid : id ∈ l.expired now limit) :
    Since l (trace ++ [⟨.expired now limit, l.expired now limit⟩])
      ⟨.expired now limit, l.expired now limit⟩ now id := by
  obtain ⟨h, hh, hdue⟩ := listed?_of_mem_expired c hid
  exact .inl ⟨h, hh, hdue, by simp⟩

/-- Adding a hold of the reservation makes it one that was made again. -/
theorem insertHold (h : Since l trace scan now id) (c : l.Consistent) (added : Hold) :
    Since (l.insertHold added).2 (trace ++ [⟨.insertHold added, (l.insertHold added).1⟩])
      scan now id := by
  rw [insertHold_eq c]
  cases hfree : l.listed? added.id with
  | some _ => exact h.append _ (by simp)
  | none =>
    by_cases hid : id = added.id
    · subst hid
      rcases h with ⟨held, hheld, -⟩ | ⟨old, hdue, htaken, -⟩
      · rw [hfree] at hheld
        cases hheld
      · refine .inr ⟨old, hdue, htaken.trans (List.sublist_append_left ..), fun r hr => ?_⟩
        have hnew : added = r := by simpa [listed?_withHold c hfree] using hr
        subst hnew
        exact htaken.append (List.Sublist.refl [_])
    · exact h.append _ (by simp [listed?_withHold c hfree, hid])

/-- Taking the reservation's hold makes it one whose expired hold was taken. -/
theorem takeHold (h : Since l trace scan now id) (c : l.Consistent) (a : ReservationId) :
    Since (l.takeHold a).2 (trace ++ [⟨.takeHold a, (l.takeHold a).1⟩]) scan now id := by
  rw [takeHold_eq c]
  by_cases hid : id = a
  · subst hid
    have hgone : (l.withoutHold id).listed? id = none := by simp [listed?_withoutHold c]
    rcases h with ⟨held, hheld, hdue, hscan⟩ | ⟨old, hdue, htaken, -⟩
    · refine .inr ⟨held, hdue, ?_, by simp [hgone]⟩
      rw [hheld]
      exact (List.singleton_sublist.2 hscan).append (List.Sublist.refl [_])
    · exact .inr ⟨old, hdue, htaken.trans (List.sublist_append_left ..), by simp [hgone]⟩
  · exact h.append _ (by simp [listed?_withoutHold c, hid])

theorem answer (h : Since l trace scan now id) (c : l.Consistent) (clock : Instant)
    (request : Call) :
    Since (Stock.answer clock request l).2
      (trace ++ [⟨request, (Stock.answer clock request l).1⟩]) scan now id := by
  cases request with
  | insertHold added => exact h.insertHold c added
  | takeHold a => exact h.takeHold c a
  | getHold a => exact h.append _ (by simp [Stock.answer])
  | compareAndSet p revision available => exact h.append _ (by simp [Stock.answer])
  | increment p q => exact h.append _ (by simp [Stock.answer])
  | _ => exact h.append _ rfl

end Since

/-! ## What a sweep may take -/

/-- The instant that an operation read from the clock when it started. -/
def startedAt? : List (Exchange calls) → Option Instant
  | ⟨.now, now⟩ :: _ => some now
  | _ => none

theorem startedAt?_append {log : List (Exchange calls)} {now : Instant}
    (h : startedAt? log = some now) (e : Exchange calls) :
    startedAt? (log ++ [e]) = some now := by
  unfold startedAt? at h
  split at h
  · exact h
  · cases h

/-- The hold that an exchange took. -/
def taken? : Exchange calls → Option Hold
  | ⟨.takeHold _, held⟩ => held
  | _ => none

/-- The holds that some exchanges took, in their order. -/
def taken (log : List (Exchange calls)) : List Hold := log.filterMap taken?

@[simp] theorem taken_nil : taken [] = [] := rfl

@[simp] theorem taken_cons (e : Exchange calls) (log : List (Exchange calls)) :
    taken (e :: log) = (taken? e).toList ++ taken log := by
  cases h : taken? e <;> simp [taken, h]

@[simp] theorem taken_append (log more : List (Exchange calls)) :
    taken (log ++ more) = taken log ++ taken more := List.filterMap_append

theorem mem_taken_append {log : List (Exchange calls)} {e : Exchange calls} {h : Hold}
    (hh : h ∈ taken (log ++ [e])) : h ∈ taken log ∨ taken? e = some h := by
  simpa [taken, List.filterMap_append] using hh

/-- The reservation was listed as expired at the instant at which the operation started. -/
def Listed (log : List (Exchange calls)) (id : ReservationId) : Prop :=
  ∃ now limit ids, startedAt? log = some now ∧ ⟨.expired now limit, ids⟩ ∈ log ∧ id ∈ ids

theorem Listed.append {log : List (Exchange calls)} {id : ReservationId} (h : Listed log id)
    (e : Exchange calls) : Listed (log ++ [e]) id := by
  obtain ⟨now, limit, ids, hstart, hscan, hid⟩ := h
  exact ⟨now, limit, ids, startedAt?_append hstart e, List.mem_append_left _ hscan, hid⟩

namespace Job

def sweeps : Job → Bool
  | sweep .. => true
  | _ => false

/-- A sweep takes only what it has listed. -/
def sweepProtocol (j : Job) : Protocol calls where
  allows log
    | .takeHold id => j.sweeps = true → Listed log id
    | _ => True

variable {j : Job} {log : List (Exchange calls)} {now : Instant}

theorem obeys_restore_of_listed {listed : List ReservationId} (ls : List StockLine)
    (h : startedAt? log = some now ∧ ∀ id ∈ listed, Listed log id) :
    (Reservation.restore ls).Obeys j.sweepProtocol
      (fun _ log => startedAt? log = some now ∧ ∀ id ∈ listed, Listed log id) log := by
  induction ls generalizing log with
  | nil => exact h
  | cons line ls ih =>
    refine Script.obeys_bind.2 ⟨trivial, fun reply _ => ?_⟩
    have hnext := And.intro (startedAt?_append h.1 ⟨.increment line.product line.quantity, reply⟩)
      fun id hid => (h.2 id hid).append ⟨.increment line.product line.quantity, reply⟩
    cases reply with
    | error e => exact hnext
    | ok n => exact ih hnext

/-- Sweeping a batch takes nothing that is not in the batch. -/
theorem obeys_sweepBatch_of_listed (report : Reservation.SweepReport) (ids : List ReservationId)
    (h : startedAt? log = some now ∧ ∀ id ∈ ids, Listed log id) :
    (Reservation.sweepBatch report ids).Obeys j.sweepProtocol
      (fun _ log => startedAt? log = some now) log := by
  induction ids generalizing log report with
  | nil => exact h.1
  | cons id ids ih =>
    obtain ⟨hstart, hlisted⟩ := h
    refine Script.obeys_bind.2 (Script.obeys_bind.2
      ⟨fun _ => hlisted id (List.mem_cons_self ..), fun held _ => ?_⟩)
    have hrest := And.intro (startedAt?_append hstart ⟨.takeHold id, held⟩)
      fun a ha => (hlisted a (List.mem_cons_of_mem _ ha)).append ⟨.takeHold id, held⟩
    cases held with
    | none => exact ih _ hrest
    | some r =>
      refine Script.obeys_bind.2 ((obeys_restore_of_listed r.lines hrest).mono ?_)
      intro result log hlog
      cases result with
      | error e => exact hlog.1
      | ok _ => exact ih _ hlog

/-- Every round of a sweep lists before it takes. -/
theorem obeys_sweepRounds_of_started (batch : BatchSize) (report : Reservation.SweepReport)
    (rounds : Nat) (h : startedAt? log = some now) :
    (Reservation.sweepRounds batch now report rounds).Obeys j.sweepProtocol
      (fun _ _ => True) log := by
  induction rounds generalizing log report with
  | zero => trivial
  | succ rounds ih =>
    refine Script.obeys_bind.2 ⟨trivial, fun ids _ => ?_⟩
    have hstart := startedAt?_append h ⟨.expired now batch.count, ids⟩
    have hlisted : ∀ id ∈ ids, Listed (log ++ [⟨.expired now batch.count, ids⟩]) id :=
      fun id hid => ⟨now, batch.count, ids, hstart, by simp, hid⟩
    refine Script.obeys_bind.2 ((obeys_sweepBatch_of_listed report ids ⟨hstart, hlisted⟩).mono ?_)
    intro result log hlog
    cases result with
    | error e => trivial
    | ok report =>
      dsimp only
      split
      · trivial
      · exact ih _ hlog

/-- Every operation keeps to it; those that are no sweeps may take what they want. -/
theorem obeys_sweepProtocol (j : Job) : j.script.Obeys j.sweepProtocol (fun _ _ => True) [] := by
  by_cases hj : j.sweeps
  · cases j with
    | sweep rounds batch =>
      refine Script.obeys_map.2 (Script.obeys_bind.2 ⟨trivial, fun now _ => ?_⟩)
      exact obeys_sweepRounds_of_started batch {} rounds rfl
    | _ => cases hj
  · have free : ∀ {α} (p : Script calls α) (log),
        p.Obeys j.sweepProtocol (fun _ _ => True) log := by
      intro α p log
      induction p generalizing log with
      | done a => trivial
      | call request next ih =>
        refine ⟨?_, fun reply _ => ih reply _⟩
        cases request <;> first | trivial | exact fun h => absurd h hj
    exact free _ _

end Job

/-! ## Schedules -/

namespace Traffic

/-- A hold of the reservation that had expired at `now` was listed and then taken, the hold `h` was
added after that, and then taken in its turn. -/
def Renewed (trace log : List (Exchange calls)) (now : Instant) (h : Hold) : Prop :=
  ∃ limit ids old, ⟨.expired now limit, ids⟩ ∈ log ∧ h.id ∈ ids ∧ old.expiresAt ≤ now ∧
    [⟨.expired now limit, ids⟩, ⟨.takeHold h.id, some old⟩, ⟨.insertHold h, true⟩,
      ⟨.takeHold h.id, some h⟩].Sublist trace

/-- What the sweeps of a pool have listed and taken. -/
structure Watched (s : Traffic) : Prop where
  consistent : s.stores.ledger.Consistent
  traced : ∀ t ∈ s.tasks, ∀ e ∈ t.log, e ∈ s.trace
  since : ∀ {now limit ids}, ⟨.expired now limit, ids⟩ ∈ s.trace → ∀ id ∈ ids,
    Since s.stores.ledger s.trace ⟨.expired now limit, ids⟩ now id
  taken : ∀ t ∈ s.tasks, t.job.sweeps = true → ∀ h ∈ taken t.log,
    ∃ now, startedAt? t.log = some now ∧ (h.expiresAt ≤ now ∨ Renewed s.trace t.log now h)

theorem Renewed.append {trace log : List (Exchange calls)} {now : Instant} {h : Hold}
    (hr : Renewed trace log now h) (e : Exchange calls) {log' : List (Exchange calls)}
    (hlog : ∀ d ∈ log, d ∈ log') : Renewed (trace ++ [e]) log' now h := by
  obtain ⟨limit, ids, old, hscan, hid, hdue, horder⟩ := hr
  exact ⟨limit, ids, old, hlog _ hscan, hid, hdue, horder.trans (List.sublist_append_left ..)⟩

/-- Whatever is taken of a listed reservation had expired, or the reservation was made again. -/
theorem taken_of_since {l : Ledger} (c : l.Consistent) {trace log : List (Exchange calls)}
    {now : Instant} {limit : Nat} {ids : List ReservationId} {id : ReservationId} {h : Hold}
    (hscan : ⟨.expired now limit, ids⟩ ∈ log) (hid : id ∈ ids)
    (hsince : Since l trace ⟨.expired now limit, ids⟩ now id) (hh : l.listed? id = some h) :
    h.expiresAt ≤ now ∨ Renewed (trace ++ [⟨.takeHold id, some h⟩]) log now h := by
  obtain ⟨rfl, -⟩ := c.listed?_eq_some_iff.1 hh
  rcases hsince with ⟨held, hheld, hdue, -⟩ | ⟨old, hdue, -, hagain⟩
  · rw [hh] at hheld
    cases hheld
    exact .inl hdue
  · exact .inr ⟨limit, ids, old, hscan, hid, hdue, (hagain h hh).append (List.Sublist.refl [_])⟩

theorem watched_init {l : Ledger} (c : l.Consistent) (start : Instant) :
    Watched ⟨⟨start, l⟩, [], []⟩ where
  consistent := c
  traced := by simp
  since := by simp
  taken := by simp

theorem Watched.start {s : Traffic} (w : Watched s) (j : Job) :
    Watched { s with tasks := s.tasks ++ [system.begun j] } where
  consistent := w.consistent
  traced t ht := by
    rcases List.mem_append.1 ht with ht | ht
    · exact w.traced t ht
    · obtain rfl := List.mem_singleton.1 ht
      simp [System.begun]
  since := w.since
  taken t ht hsweeps h hh := by
    rcases List.mem_append.1 ht with ht | ht
    · exact w.taken t ht hsweeps h hh
    · obtain rfl := List.mem_singleton.1 ht
      simp [System.begun, Stock.taken] at hh

theorem Watched.disturb {s : Traffic} (w : Watched s) (m : Site.Change) :
    Watched { s with stores := Site.change m s.stores } where
  consistent := w.consistent.change m
  traced := w.traced
  since hscan id hid := by
    simpa only [Since, listed?_change] using w.since hscan id hid
  taken := w.taken

/-- A call of one operation keeps the record of what was listed and taken. -/
theorem Watched.proceed {site : Site} {before after : List (Task calls Job Outcome)}
    {t : Task calls Job Outcome} {trace : List (Exchange calls)} {request : Call}
    (w : Watched ⟨site, before ++ t :: after, trace⟩)
    (hallowed : t.job.sweepProtocol.allows t.log request) (rest : Script calls Outcome) :
    Watched
      { stores := (system.answer request site).2
        tasks := before ++ t.tell (system.exchange request site) rest :: after
        trace := trace ++ [system.exchange request site] } := by
  have hmem : t ∈ before ++ t :: after := by simp
  have hledger : (system.answer request site).2.ledger =
      (Stock.answer site.clock request site.ledger).2 := rfl
  have hexchange : system.exchange request site =
      ⟨request, (Stock.answer site.clock request site.ledger).1⟩ := rfl
  have c : site.ledger.Consistent := w.consistent
  refine ⟨c.answer site.clock request, fun u hu e he => ?_, fun {now limit ids} hscan id hid => ?_,
    fun u hu hsweeps h hh => ?_⟩
  · rcases Task.mem_of_mem_tell hu with rfl | hu
    · rcases List.mem_append.1 he with he | he
      · exact List.mem_append_left _ (w.traced t hmem e he)
      · exact List.mem_append_right _ he
    · exact List.mem_append_left _ (w.traced u hu e he)
  · rcases List.mem_append.1 hscan with hscan | hscan
    · exact (w.since hscan id hid).answer c site.clock request
    · have hlast := List.mem_singleton.1 hscan
      rw [hexchange] at hlast
      cases request with
      | expired t limit =>
        cases hlast
        exact Since.of_scan c hid
      | _ => cases hlast
  · rcases Task.mem_of_mem_tell hu with rfl | hu
    · rw [Task.log_tell] at hh ⊢
      rcases mem_taken_append hh with hh | hh
      · obtain ⟨now, hstart, hdue⟩ := w.taken t hmem hsweeps h hh
        exact ⟨now, startedAt?_append hstart _,
          hdue.imp_right fun hr => hr.append _ fun d hd => List.mem_append_left _ hd⟩
      · cases request with
        | takeHold id =>
          obtain ⟨now, limit, ids, hstart, hscan, hid⟩ := hallowed hsweeps
          have hlisted : site.ledger.listed? id = some h := by
            simpa [hexchange, Stock.answer, takeHold_eq c, taken?] using hh
          have hsince := w.since (w.traced t hmem _ hscan) id hid
          have htaken : system.exchange (.takeHold id) site = ⟨.takeHold id, some h⟩ := by
            rw [hexchange, Stock.answer, takeHold_eq c, hlisted]
          refine ⟨now, startedAt?_append hstart _, ?_⟩
          rw [htaken]
          exact taken_of_since c (List.mem_append_left _ hscan) hid hsince hlisted
        | _ => cases hh
    · obtain ⟨now, hstart, hdue⟩ := w.taken u hu hsweeps h hh
      exact ⟨now, hstart, hdue.imp_right fun hr => hr.append _ fun d hd => hd⟩

/-- The record is kept by every schedule. -/
theorem watched_run {l : Ledger} (c : l.Consistent) (start : Instant)
    (acts : List (Act Job Site.Change)) : Watched (system.run ⟨⟨start, l⟩, [], []⟩ acts) :=
  (@System.run_obeys _ _ _ _ _ system Job.sweepProtocol (fun _ _ _ => True) Watched _ acts rfl
    (watched_init c start) (fun j _ => j.obeys_sweepProtocol) (fun _ j _ w => w.start j)
    (fun _ _ _ _ _ _ _ _ hallowed w => ⟨trivial, w.proceed hallowed _⟩)
    (fun _ m _ w => w.disturb m)).1

end Traffic

/-- **What a sweep takes had expired when the sweep started, unless its reservation was made
again.** Whatever else goes on at the ledger, a sweep takes a hold with a later deadline in one case
only: it had listed the reservation, somebody took the expired hold before it, and somebody made
the reservation again. -/
theorem taken_by_sweep {l : Ledger} (c : l.Consistent) (start : Instant)
    (acts : List (Act Job Site.Change)) :
    let s : Traffic := system.run ⟨⟨start, l⟩, [], []⟩ acts
    ∀ t ∈ s.tasks, t.job.sweeps = true → ∀ h ∈ taken t.log,
      ∃ now, startedAt? t.log = some now ∧
        (h.expiresAt ≤ now ∨ Traffic.Renewed s.trace t.log now h) :=
  (Traffic.watched_run c start acts).taken

/-! ## A sweep that is overtaken -/

/-- One minute after the start of time. -/
def minuteOne : Instant := .ofSecond 60

/-- Two widgets are reserved for a minute. When the minute is over a sweep lists the reservation,
but another sweep is faster and gives its stock back. The reservation is made again, and then the
first sweep goes on. -/
def overtakenSweep : List (Act Job Site.Change) :=
  let reserve : Job :=
    .reserve (.ofNat 10) ⟨"store"⟩ [⟨⟨"widget"⟩, 2⟩] ⟨"reservation"⟩ (.ofMinutes 1)
  [.start reserve] ++ List.replicate 6 (.proceed 0) ++
    [.disturb (.setClock minuteOne)] ++
    [.start (.sweep 1 (.ofNat 100))] ++ List.replicate 2 (.proceed 1) ++
    [.start (.sweep 1 (.ofNat 100))] ++ List.replicate 4 (.proceed 2) ++
    [.start reserve] ++ List.replicate 6 (.proceed 3) ++
    List.replicate 2 (.proceed 1)

/-- The site and its operations after that. -/
def overtaken : Traffic :=
  system.run ⟨⟨.ofSecond 0, fiveWidgets⟩, [], []⟩ overtakenSweep

/-- The hold of the reservation when it has been made again. -/
def renewedHold : Hold :=
  ⟨⟨"reservation"⟩, ⟨"store"⟩, [⟨⟨"widget"⟩, 2⟩], minuteOne, .ofSecond 120⟩

theorem renewedHold_taken :
    ∃ t ∈ overtaken.tasks, t.job.sweeps = true ∧ startedAt? t.log = some minuteOne ∧
      renewedHold ∈ taken t.log := by
  have hrun : (overtaken.tasks.any fun t => t.job.sweeps &&
      decide (startedAt? t.log = some minuteOne) && decide (renewedHold ∈ taken t.log)) = true := by
    decide +kernel
  simpa [List.any_eq_true, and_assoc] using hrun

/-- A sweep takes a hold that has a minute to live, and gives its stock back: all five widgets are
in the counter again, although two have just been reserved. -/
theorem live_hold_is_swept :
    overtaken.stores.ledger.stockOf ⟨"widget"⟩ = 5 ∧
      ¬ ∀ t ∈ overtaken.tasks, t.job.sweeps = true → ∀ h ∈ taken t.log,
        ∃ now, startedAt? t.log = some now ∧ h.expiresAt ≤ now := by
  refine ⟨by decide +kernel, fun hexpired => ?_⟩
  obtain ⟨t, ht, hsweeps, hstart, htaken⟩ := renewedHold_taken
  obtain ⟨now, hnow, hdue⟩ := hexpired t ht hsweeps renewedHold htaken
  rw [hstart] at hnow
  cases hnow
  exact absurd hdue (by decide)

/-- It does so because the reservation was made again after the sweep had listed it. -/
theorem taken_by_overtaken_sweep :
    fiveWidgets.Consistent ∧ ∃ t ∈ overtaken.tasks, t.job.sweeps = true ∧
      renewedHold ∈ taken t.log ∧
      Traffic.Renewed overtaken.trace t.log minuteOne renewedHold := by
  have c : fiveWidgets.Consistent := consistent_of_empty rfl rfl rfl
  obtain ⟨t, ht, hsweeps, hstart, htaken⟩ := renewedHold_taken
  obtain ⟨now, hnow, hdue⟩ := taken_by_sweep c _ overtakenSweep t ht hsweeps renewedHold htaken
  rw [hstart] at hnow
  cases hnow
  exact ⟨c, t, ht, hsweeps, htaken, hdue.resolve_left (by decide)⟩

end Stock
end Fulfilment
