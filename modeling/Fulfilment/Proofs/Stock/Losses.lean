import Fulfilment.Proofs.Stock.Spending

/-!
# Stock that is lost

While increments fail, stock that was taken cannot be given back, and nothing remembers it. With one
operation at a time, and increments failing and succeeding in turn, no more is ever missing than the
lines that a reservation had taken when it was refused, the hold of a release that fails, and the
earliest hold of a sweep that fails. Counters, listed holds, settlements and these losses make up
the stock that there was, together with the lines of reservations that broke off as the calendar did
not have their deadlines.
-/
namespace Fulfilment

open Script

namespace Stock

/-! ## Runs -/

/-- What is done at a site, one thing after the other. -/
inductive Turn where
  | work (job : Job)
  | change (c : Site.Change)
  | failIncrements (fails : Bool)

/-- Why the operation has failed, if it has. -/
def Outcome.error? : Outcome → Option StockError
  | reserved (.answered (.error e)) | released (.error e) | swept (.error e) => some e
  | _ => none

namespace Job

/-- The quantity of a product in a hold that the operation has settled. -/
def settledOf (p : ProductId) (log : List (Exchange calls)) : Job → Nat
  | settle _ => takenOf p log
  | _ => 0

/-- The quantity of a product that is lost with the operation: what a reservation has taken that is
refused while increments fail, and what is held where a release or a sweep fails. -/
def lostOf (p : ProductId) (fails : Bool) (log : List (Exchange calls)) : Job → Outcome → Nat
  | reserve _ _ lines _ _, .reserved (.answered (.error _)) =>
    if fails then drawn (StockLine.merge lines) p log else 0
  | _, .released (.error (.ledger _)) => takenOf p log
  | _, .swept (.error (.ledger _)) => takenOf p log
  | _, _ => 0

/-- The quantity of a product in the lines of a reservation that has broken off. -/
def abandonedOf (p : ProductId) : Job → Outcome → Nat
  | reserve _ _ lines _ _, .reserved .brokeOff => StockLine.quantityOf p (StockLine.merge lines)
  | _, _ => 0

/-- If the operation makes a reservation now, the calendar has its deadline. -/
def isDated (now : Instant) : Job → Bool
  | reserve _ _ _ _ ttl => (now.add? ttl).isSome
  | _ => true

end Job

namespace Site

/-- What an operation ends with that has the site to itself. -/
def alone (s : Site) (j : Job) : Outcome × Ledger :=
  j.script.run (Stock.answer s.clock) s.ledger

/-- The exchanges of an operation that has the site to itself. -/
def heard (s : Site) (j : Job) : List (Exchange calls) :=
  j.script.transcript (Stock.answer s.clock) s.ledger

def perform (s : Site) : Turn → Site
  | .work j => { s with ledger := (s.alone j).2 }
  | .change c => change c s
  | .failIncrements fails => { s with ledger := { s.ledger with incrementsFail := fails } }

/-- The site after some turns. -/
def after (s : Site) (ts : List Turn) : Site := ts.foldl perform s

/-- The quantity of a product that is settled in a turn. -/
def settledIn (p : ProductId) (s : Site) : Turn → Nat
  | .work j => j.settledOf p (s.heard j)
  | _ => 0

/-- The quantity of a product that is lost in a turn. -/
def lostIn (p : ProductId) (s : Site) : Turn → Nat
  | .work j => j.lostOf p s.ledger.incrementsFail (s.heard j) (s.alone j).1
  | _ => 0

/-- The quantity of a product that is abandoned in a turn. -/
def abandonedIn (p : ProductId) (s : Site) : Turn → Nat
  | .work j => j.abandonedOf p (s.alone j).1
  | _ => 0

/-- If a reservation is made in the turn, the calendar has its deadline. -/
def isDated (s : Site) : Turn → Bool
  | .work j => j.isDated s.clock
  | _ => true

/-- The quantity of a product that is settled in some turns. -/
def settled (p : ProductId) : Site → List Turn → Nat
  | _, [] => 0
  | s, t :: ts => s.settledIn p t + settled p (s.perform t) ts

/-- The quantity of a product that is lost in some turns. -/
def lost (p : ProductId) : Site → List Turn → Nat
  | _, [] => 0
  | s, t :: ts => s.lostIn p t + lost p (s.perform t) ts

/-- The quantity of a product that is abandoned in some turns. -/
def abandoned (p : ProductId) : Site → List Turn → Nat
  | _, [] => 0
  | s, t :: ts => s.abandonedIn p t + abandoned p (s.perform t) ts

/-- The calendar has the deadlines of all reservations that are made in some turns. -/
def dated : Site → List Turn → Bool
  | _, [] => true
  | s, t :: ts => s.isDated t && dated (s.perform t) ts

variable {s : Site}

/-- What an operation settles, loses and abandons is what it spends. -/
theorem spends_alone (t : s.ledger.Tidy) (j : Job) :
    s.ledger.Spends (s.alone j).2 fun p =>
      j.settledOf p (s.heard j) + j.lostOf p s.ledger.incrementsFail (s.heard j) (s.alone j).1 +
        j.abandonedOf p (s.alone j).1 := by
  have hspent : j.script.Leaves (Stock.answer s.clock) (fun o m log => s.ledger.Spends m fun p =>
      j.settledOf p log + j.lostOf p s.ledger.incrementsFail log o + j.abandonedOf p o)
      s.ledger := by
    cases j with
    | reserve budget store lines id ttl =>
      refine leaves_map.2 ((Reservation.leaves_reserve t budget store lines id ttl).mono ?_)
      intro r m log h
      refine h.congr fun p => ?_
      rcases r with (_ | _) | _ <;>
        simp [Reservation.spentBy, Job.settledOf, Job.lostOf, Job.abandonedOf]
    | settle id =>
      refine leaves_map.2 ((Reservation.leaves_settle t id).mono ?_)
      intro found m log h
      exact h.congr fun p => by simp [Job.settledOf, Job.lostOf, Job.abandonedOf]
    | release id =>
      refine leaves_map.2 ((Reservation.leaves_release t id).mono ?_)
      intro r m log h
      refine h.congr fun p => ?_
      rcases r with (_ | _ | _ | _ | _ | _) | _ <;>
        simp [Job.settledOf, Job.lostOf, Job.abandonedOf]
    | sweep rounds batch =>
      refine leaves_map.2 ((Reservation.leaves_sweep t rounds batch).mono ?_)
      intro r m log h
      refine h.congr fun p => ?_
      rcases r with (_ | _ | _ | _ | _ | _) | _ <;>
        simp [Job.settledOf, Job.lostOf, Job.abandonedOf]
  exact hspent

/-- What is settled, lost and abandoned in a turn is what the ledger has less. -/
theorem spends_perform (t : s.ledger.Tidy) (turn : Turn) :
    s.ledger.Spends (s.perform turn).ledger fun p =>
      s.settledIn p turn + s.lostIn p turn + s.abandonedIn p turn := by
  cases turn with
  | work j => exact spends_alone t j
  | change c =>
    cases c with
    | evict => exact .of_eq t (t.toConsistent.evict s.clock) rfl rfl
    | _ => exact .of_eq t (t.toConsistent.of_eq rfl rfl rfl) rfl rfl
  | failIncrements fails => exact .of_eq t (t.toConsistent.of_eq rfl rfl rfl) rfl rfl

/-- What is settled, lost and abandoned in some turns is what the ledger has less. -/
theorem spends_after (t : s.ledger.Tidy) (ts : List Turn) :
    s.ledger.Spends (s.after ts).ledger fun p =>
      s.settled p ts + s.lost p ts + s.abandoned p ts := by
  induction ts generalizing s with
  | nil => exact .refl t
  | cons turn ts ih =>
    have hfirst := spends_perform t turn
    refine (hfirst.trans (ih hfirst.tidy)).congr fun p => ?_
    simp only [settled, lost, abandoned]
    omega

/-- An operation with a deadline on the calendar abandons nothing. -/
theorem abandonedOf_eq_zero {j : Job} (h : j.isDated s.clock = true) (p : ProductId) :
    j.abandonedOf p (s.alone j).1 = 0 := by
  cases j with
  | reserve budget store lines id ttl =>
    have hends : (Job.reserve budget store lines id ttl).script.Yields (Stock.answer s.clock)
        (fun o _ => o = .reserved .brokeOff → s.clock.add? ttl = none) s.ledger := by
      refine yields_map.2 ((Reservation.add?_eq_none_of_reserve budget store lines id ttl
        s.ledger).mono fun r _ hr hbroke => hr ?_)
      cases hbroke
      rfl
    have hanswered : (s.alone (.reserve budget store lines id ttl)).1 ≠ .reserved .brokeOff := by
      intro hbroke
      rw [Job.isDated, hends hbroke] at h
      cases h
    generalize (s.alone (.reserve budget store lines id ttl)).1 = o at hanswered ⊢
    match o with
    | .reserved .brokeOff => exact absurd rfl hanswered
    | .reserved (.answered _) | .settled _ | .released _ | .swept _ => rfl
  | _ => rfl

theorem abandoned_eq_zero {ts : List Turn} (h : s.dated ts = true) (p : ProductId) :
    s.abandoned p ts = 0 := by
  induction ts generalizing s with
  | nil => rfl
  | cons turn ts ih =>
    obtain ⟨hturn, hrest⟩ := (Bool.and_eq_true _ _).mp h
    rw [abandoned, ih hrest, add_zero]
    cases turn with
    | work j => exact abandonedOf_eq_zero hturn p
    | _ => rfl

/-- A sweep that fails has taken one hold, the earliest, which had expired. All others are left. -/
theorem losesEarliest_of_error (t : s.ledger.Tidy) {rounds : Nat} {batch : BatchSize}
    (h : (s.alone (.sweep rounds batch)).1.error?.isSome = true) :
    ∃ held, taken (s.heard (.sweep rounds batch)) = [held] ∧
      s.ledger.LosesEarliest (s.alone (.sweep rounds batch)).2 s.clock held := by
  have hsweep : (Reservation.sweep rounds batch).Leaves (Stock.answer s.clock) (fun r m log =>
      ∀ e, r = .error e →
        ∃ held, taken log = [held] ∧ s.ledger.LosesEarliest m s.clock held) s.ledger := by
    cases hinc : s.ledger.incrementsFail with
    | false =>
      obtain ⟨report, ids, hrun⟩ := Reservation.run_sweepRounds_of_working t.toConsistent hinc
        s.clock batch {} rounds
      have hworks : (Reservation.sweep rounds batch).run (Stock.answer s.clock) s.ledger =
          (.ok report, s.ledger.releasedAll ids) := hrun
      rw [Leaves, hworks]
      intro e he
      cases he
    | true =>
      refine (Reservation.leaves_sweep_of_failing t hinc rounds batch).mono ?_
      intro r m log hr e he
      rcases hr with ⟨⟨report, rfl⟩, -⟩ | ⟨held, hloses, -, htaken⟩
      · cases he
      · exact ⟨held, htaken, hloses⟩
  have hscript : (Job.sweep rounds batch).script.Leaves (Stock.answer s.clock) (fun o m log =>
      o.error?.isSome = true →
        ∃ held, taken log = [held] ∧ s.ledger.LosesEarliest m s.clock held) s.ledger := by
    refine leaves_map.2 (hsweep.mono fun r m log hr ho => ?_)
    cases r with
    | ok report => cases ho
    | error e => exact hr e rfl
  exact hscript h

end Site

end Stock

namespace Ledger

/-- Nothing is held. -/
structure Vacant (l : Ledger) : Prop where
  holds : l.holds = ∅
  index : l.index = ∅
  deadlines : l.deadlines = ∅

/-- Whether increments fail does not matter to the holds. -/
def switched (l : Ledger) (fails : Bool) : Ledger := { l with incrementsFail := fails }

end Ledger

namespace Stock

/-- **Stock is lost just where an operation fails that has taken it.**

A site begins without holds, and then one operation after the other is done there, while the clock
is set, records are evicted, stores open and close, writes are made to fail, and increments fail or
succeed as it comes. The stock that a product began with is in its counter, in a listed hold,
settled, or lost. Lost are the lines that a reservation had taken from their counters when it was
refused while increments failed, and the holds that were taken by releases and sweeps that failed.
Where the calendar does not have the deadline of a reservation, the lines may be abandoned as well.

A sweep that fails has taken a single hold, the earliest of all, which had expired. It leaves all
other holds listed, so when increments succeed again a sweep at whatever instant clears the ledger
of all that are due then.
-/
theorem stock_is_lost_where_increments_fail {s : Site} (h : s.ledger.Vacant) (ts : List Turn) :
    let s' := s.after ts
    (∀ p, s.ledger.stockOf p =
      s'.ledger.stockOf p + s'.ledger.heldOf p + s.settled p ts + s.lost p ts +
        s.abandoned p ts) ∧
    (s.dated ts = true → ∀ p, s.ledger.stockOf p =
      s'.ledger.stockOf p + s'.ledger.heldOf p + s.settled p ts + s.lost p ts) ∧
    ∀ rounds batch, (s'.alone (.sweep rounds batch)).1.error?.isSome = true →
      let m := (s'.alone (.sweep rounds batch)).2
      ∃ held, taken (s'.heard (.sweep rounds batch)) = [held] ∧
        s'.ledger.LosesEarliest m s'.clock held ∧
        m.index = s'.ledger.index.erase held.expiry ∧
        ∀ now batch', ∃ n k, (m.switched false).sweep now batch' = (.ok ⟨n, n⟩, k) ∧
          n = (m.index.filter fun e _ => e.deadline ≤ now).size ∧
          (m.switched false).Cleared k now := by
  intro s'
  have t : s.ledger.Tidy := Ledger.tidy_of_empty h.holds h.index h.deadlines
  have hspends : s.ledger.Spends s'.ledger _ := Site.spends_after t ts
  have hbalance : ∀ p, s.ledger.stockOf p = s'.ledger.stockOf p + s'.ledger.heldOf p +
      s.settled p ts + s.lost p ts + s.abandoned p ts := by
    intro p
    have hspent := hspends.balance p
    rw [Ledger.heldOf_eq_zero h.index] at hspent
    omega
  refine ⟨hbalance, fun hdated p => ?_, fun rounds batch herror => ?_⟩
  · have hnone := Site.abandoned_eq_zero hdated p
    have htotal := hbalance p
    omega
  · intro m
    obtain ⟨held, htaken, hloses⟩ := Site.losesEarliest_of_error hspends.tidy herror
    have hlisted := hloses.earliest.listed?_eq hspends.tidy.toConsistent
    have hleft : m = s'.ledger.withoutHold held.id := hloses.left
    have hindex : m.index = s'.ledger.index.erase held.expiry := by
      rw [hleft, Ledger.index_withoutHold hspends.tidy.toConsistent, hlisted]
    refine ⟨held, htaken, hloses, hindex, fun now batch' => ?_⟩
    have c : (m.switched false).Consistent :=
      (Site.spends_alone hspends.tidy (.sweep rounds batch)).tidy.toConsistent.of_eq rfl rfl rfl
    refine ⟨_, _, ?_, rfl, (Ledger.returned_releasedAll c _).cleared c⟩
    rw [Ledger.sweep_eq c rfl, Reservation.swept, Reservation.SweepReport.plus, Ledger.length_due,
      Nat.zero_add]
    rfl

/-- Five widgets are in an open store, and four of them are reserved one by one. The first is
settled. Then increments fail, the second is released in vain, and a fifth reservation is refused as
there are no zippers, when it has taken a widget. By then the third and the fourth have expired. -/
def widgetLosses : List Turn :=
  let reserve := fun id minutes lines =>
    Turn.work (.reserve (.ofNat 10) ⟨"store"⟩ (⟨⟨"widget"⟩, 1⟩ :: lines) id (.ofMinutes minutes))
  [reserve ⟨"first"⟩ 15 [], reserve ⟨"second"⟩ 15 [], reserve ⟨"third"⟩ 10 [],
    reserve ⟨"fourth"⟩ 15 [], .work (.settle ⟨"first"⟩), .failIncrements true,
    .work (.release ⟨"second"⟩), reserve ⟨"fifth"⟩ 15 [⟨⟨"zipper"⟩, 1⟩],
    .change (.setClock (.ofSecond 1200))]

/-- Of the five widgets two are held then, one is settled and two are lost. A sweep loses one of the
holds, and when increments succeed again a second sweep gives the other back. -/
theorem widgets_are_lost_where_increments_fail :
    let s : Site := ⟨.ofSecond 0, fiveWidgets⟩
    let s' := s.after widgetLosses
    let m := (s'.alone (.sweep 1 (.ofNat 100))).2
    s.ledger.Vacant ∧ s.dated widgetLosses = true ∧
      (5 : Int) = s'.ledger.stockOf ⟨"widget"⟩ + s'.ledger.heldOf ⟨"widget"⟩ +
        s.settled ⟨"widget"⟩ widgetLosses + s.lost ⟨"widget"⟩ widgetLosses ∧
      s'.ledger.heldOf ⟨"widget"⟩ = 2 ∧ s.settled ⟨"widget"⟩ widgetLosses = 1 ∧
      s.lost ⟨"widget"⟩ widgetLosses = 2 ∧
      ∃ held k, s'.ledger.LosesEarliest m s'.clock held ∧
        (m.switched false).sweep s'.clock (.ofNat 1) = (.ok ⟨1, 1⟩, k) := by
  intro s s' m
  have hvacant : s.ledger.Vacant := ⟨rfl, rfl, rfl⟩
  obtain ⟨-, hbalance, hsweeps⟩ := stock_is_lost_where_increments_fail hvacant widgetLosses
  have hfails : (s'.alone (.sweep 1 (.ofNat 100))).1.error?.isSome = true := by decide +kernel
  obtain ⟨held, -, hloses, -, hagain⟩ := hsweeps _ _ hfails
  obtain ⟨n, k, hswept, hn, -⟩ := hagain s'.clock (.ofNat 1)
  obtain rfl : n = 1 := hn.trans (by decide +kernel)
  have hstart : s.ledger.stockOf ⟨"widget"⟩ = 5 := by decide
  have hdated : s.dated widgetLosses = true := by decide +kernel
  have hheld : s'.ledger.heldOf ⟨"widget"⟩ = 2 := by decide +kernel
  have hsettled : s.settled ⟨"widget"⟩ widgetLosses = 1 := by decide +kernel
  have hlost : s.lost ⟨"widget"⟩ widgetLosses = 2 := by decide +kernel
  exact ⟨hvacant, hdated, hstart ▸ hbalance hdated ⟨"widget"⟩, hheld, hsettled, hlost, held, k,
    hloses, hswept⟩

end Stock
end Fulfilment
