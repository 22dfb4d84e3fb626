import Fulfilment.Proofs.Saga.Alone
import Mathlib.Data.List.Induction

/-!
# Arrivals at a confirmed order

Once an order is confirmed, its payment is linked and signals about it are delivered, in any order
and any number of times. Where the order ends does not depend on the order of arrival: each arrival
aims at a status, and moves the order there exactly if that is further on than where it stands
(`yields_arrive`). So the order ends at the furthest status that anything aimed at.
-/
namespace Fulfilment

open Script Operation

namespace OrderBook

variable {b : OrderBook}

/-! ## Well-kept books -/

/-- Every order is stored under its own id, with a version that counts its saves. -/
def WellKept (b : OrderBook) : Prop := ∀ id o, b.get? id = some o → o.id = id ∧ 0 < o.version

theorem wellKept_of_empty (h : b.orders = ∅) : b.WellKept := by
  intro id o ho
  simp [get?, h] at ho

theorem WellKept.store (h : b.WellKept) {o : Order} (hversion : 0 ≤ o.version) :
    (b.store o).WellKept := by
  intro id x hx
  rw [get?_store] at hx
  by_cases hid : id = o.id
  · rw [if_pos hid] at hx
    cases hx
    exact ⟨hid.symm, Int.lt_add_one_of_le hversion⟩
  · rw [if_neg hid] at hx
    exact h id x hx

/-- Saving keeps a book well, whether the order is stored or refused. -/
theorem WellKept.save (h : b.WellKept) (o : Order) : (b.save o).2.WellKept := by
  rw [OrderBook.save]
  cases hobjection : b.objection o with
  | some e => exact h
  | none =>
    refine h.store ?_
    by_cases hnew : o.version = 0
    · omega
    · obtain ⟨old, hold, heq⟩ := get?_of_known hobjection hnew
      have hold := (h _ old hold).2
      omega

/-- While saving works, the book has no objection to an order that is as it was loaded, but for what
has happened to it. -/
theorem objection_eq_none {id : OrderId} {o next : Order} (hsaving : b.failing = false)
    (ho : b.get? id = some o) (hid : next.id = id) (hversion : next.version = o.version)
    (hsaved : 0 < o.version) : b.objection next = none := by
  have hne : o.version ≠ 0 := by omega
  simp [objection, hsaving, hid, ho, hversion, hne]

end OrderBook

@[simp] theorem World.failing_answer (request : Shop.Call) (w : World) :
    (World.answer request w).2.book.failing = w.book.failing := by
  cases request with
  | save o =>
    simp only [World.answer, OrderBook.save]
    split <;> rfl
  | _ => rfl

@[simp] theorem World.failing_run {α : Type} (p : Script Shop.calls α) (w : World) :
    (p.run World.answer w).2.book.failing = w.book.failing :=
  run_keeps (motive := fun w' : World => w'.book.failing = w.book.failing)
    (fun request h => (failing_answer request _).trans h) p rfl

namespace Service

variable {w : World}

/-! ## Moving an order on alone -/

/-- How moving an order on ends, and in which world. -/
inductive MovesOn (id : OrderId) (act : Action) (w : World) :
    Except ServiceError Order → World → Prop where
  | missing (unknown : w.book.get? id = none) : MovesOn id act w (.error (.orderNotFound id)) w
  | rejected {o : Order} {rejection : Rejection} (stored : w.book.get? id = some o)
      (rejects : o.transition act w.clock = .error rejection) :
      MovesOn id act w (.error (.order rejection)) w
  | refused {o next : Order} {t : Transition} {cause : BookError}
      (stored : w.book.get? id = some o) (accepts : o.transition act w.clock = .ok (next, t))
      (objection : w.book.objection next = some cause) : MovesOn id act w (.error (.book cause)) w
  | saved {o next : Order} {t : Transition} {w' : World} (stored : w.book.get? id = some o)
      (accepts : o.transition act w.clock = .ok (next, t))
      (accepted : w.book.objection next = none) (book : w'.book = w.book.store next) :
      MovesOn id act w (.ok { next with version := next.version + 1 }) w'

theorem yields_moveOn (id : OrderId) (name : String) (act : Action) (w : World) :
    (moveOn id name act).run.Yields World.answer (MovesOn id act w) w := by
  refine yields_run_lift.2 (Shop.yields_now.2 ?_)
  rw [yields_run_bind, loadOrder, yields_run_bind, call_run, yields_bind, Shop.yields_load,
    yields_done]
  cases ho : w.book.get? id with
  | none => exact .missing ho
  | some o =>
    refine yields_run_bind.2 ?_
    rw [accept, require_run, yields_done]
    cases ht : o.transition act w.clock with
    | error rejection => exact .rejected ho ht
    | ok moved =>
      refine yields_run_bind.2 (yields_saveOrder (fun cause hcause => ?_) fun haccepted => ?_)
      · exact .refused ho ht hcause
      · exact .saved ho ht haccepted rfl

end Service

/-- The status is one that a confirmed order can be brought to by a payment or a cancellation. -/
def Status.IsOnCourse (s : Status) : Prop :=
  s = .confirmed ∨ s = .paymentPending ∨ s = .preparing ∨ s = .cancelled

namespace Saga

/-! ## Arrivals -/

/-- What arrives for an order: the link of its payment, or a signal. -/
inductive Arrival where
  | link
  | signal (s : Signal)
deriving DecidableEq, Repr

namespace Arrival

/-- The arrival is about this order, and about no other payment. -/
def Concerns (id : OrderId) (payment : PaymentId) : Arrival → Prop
  | link => True
  | signal s => s.order = id ∧ ∀ p, s.payment? = some p → p = payment

def script (desk : HoldDesk) (retries : ConflictRetries) (id : OrderId) (payment : PaymentId) :
    Arrival → Script Shop.calls Unit
  | link => (fun _ => ()) <$> (Service.linkPayment id payment).run
  | signal s => (fun _ => ()) <$> handle desk retries s

/-- The status that the arrival aims at. -/
def target : Arrival → Status
  | link => .paymentPending
  | signal s => s.target

theorem isOnCourse_target (a : Arrival) : a.target.IsOnCourse := by
  cases a with
  | link => simp [target, Status.IsOnCourse]
  | signal s => cases s <;> simp [target, Signal.target, Status.IsOnCourse]

end Arrival

/-- Where a confirmed order ends after some arrivals. -/
def outcome (as : List Arrival) : Status :=
  let targets := as.map Arrival.target
  if .cancelled ∈ targets then .cancelled
  else if .preparing ∈ targets then .preparing
  else if .paymentPending ∈ targets then .paymentPending
  else .confirmed

/-- The second status, if it is further on than the first. -/
def further (s t : Status) : Status := if s.rank < t.rank then t else s

theorem outcome_concat (as : List Arrival) (a : Arrival) :
    outcome (as ++ [a]) = further (outcome as) a.target := by
  have haims := a.isOnCourse_target
  simp only [outcome, List.map_append, List.map_cons, List.map_nil, List.mem_append,
    List.mem_singleton]
  generalize as.map Arrival.target = targets
  generalize a.target = t at haims
  by_cases hcancels : Status.cancelled ∈ targets <;> by_cases hpays : Status.preparing ∈ targets <;>
    by_cases hlinks : Status.paymentPending ∈ targets <;>
    rcases haims with rfl | rfl | rfl | rfl <;>
    simp [further, Status.rank, hcancels, hpays, hlinks]

theorem outcome_congr {as bs : List Arrival} (h : ∀ a, a ∈ as ↔ a ∈ bs) :
    outcome as = outcome bs := by
  simp [outcome, h]

/-! ## One arrival -/

/-- A stored order that some arrivals have brought to a status. -/
structure Stands (id : OrderId) (payment : PaymentId) (status : Status) (o : Order) : Prop where
  own : o.id = id
  saved : 0 < o.version
  reached : o.status = status
  course : status.IsOnCourse
  free : status = .confirmed → o.payment = none
  linked : status = .paymentPending → o.payment = some payment

namespace Stands

variable {w w' : World} {id : OrderId} {payment : PaymentId} {status : Status} {o : Order}

/-- The order stands further on when a new value of it has been stored. -/
theorem store {next : Order} {target : Status} (h : Stands id payment status o)
    (hid : next.id = o.id) (hversion : next.version = o.version) (hreached : next.status = target)
    (hcourse : target.IsOnCourse) (hfree : target ≠ .confirmed)
    (hlinked : target = .paymentPending → next.payment = some payment) (b : OrderBook) :
    ∃ o', (b.store next).get? id = some o' ∧ Stands id payment target o' := by
  have hown := hid.trans h.own
  have hsaved := h.saved
  refine ⟨{ next with version := next.version + 1 }, ?_, hown, ?_, hreached, hcourse,
    fun heq => absurd heq hfree, hlinked⟩
  · rw [OrderBook.get?_store, if_pos hown.symm]
  · show 0 < next.version + 1
    omega

/-- While saving works, the book takes what has become of the order. -/
theorem objection_eq_none (h : Stands id payment status o) (ho : w.book.get? id = some o)
    (hsaving : w.book.failing = false) {next : Order} (hid : next.id = o.id)
    (hversion : next.version = o.version) : w.book.objection next = none :=
  OrderBook.objection_eq_none hsaving ho (hid.trans h.own) hversion h.saved

/-- The order is open to exactly those signals that lead further. -/
theorem isOpenTo_iff (h : Stands id payment status o) {s : Signal}
    (hs : (Arrival.signal s).Concerns id payment) :
    o.IsOpenTo s ↔ status.rank < s.target.rank := by
  obtain ⟨-, -, hreached, hcourse, hfree, hlinked⟩ := h
  obtain ⟨-, hpayment⟩ := hs
  cases s <;> rcases hcourse with rfl | rfl | rfl | rfl <;>
    simp_all [Order.IsOpenTo, Order.Awaits, Signal.target, Status.rank, Signal.payment?]

/-- The order accepts its link exactly if that leads further. -/
theorem accepts_link_iff (h : Stands id payment status o) {now : Instant} {e : Event} :
    o.Accepts now (.linkPayment payment) e ↔
      status.rank < Status.paymentPending.rank ∧ e = .paymentLinked payment now := by
  obtain ⟨-, -, hreached, hcourse, hfree, -⟩ := h
  constructor
  · intro haccepts
    cases haccepts with
    | linkPayment _ hstatus _ =>
      rw [← hreached, hstatus]
      exact ⟨by decide, rfl⟩
  · rintro ⟨hrank, rfl⟩
    have hconfirmed : status = .confirmed := by
      rcases hcourse with rfl | rfl | rfl | rfl <;> first | rfl | exact absurd hrank (by decide)
    exact .linkPayment _ (hreached.trans hconfirmed) (hfree hconfirmed)

/-- Handling a signal moves the order to the status that the signal aims at, if that is further
on. -/
theorem handles (h : Stands id payment status o) {s : Signal}
    (hs : (Arrival.signal s).Concerns id payment) (ho : w.book.get? id = some o)
    (hsaving : w.book.failing = false) {r : Except SagaError Handled} (hr : Handles s w r w') :
    ∃ o', w'.book.get? id = some o' ∧ Stands id payment (further status s.target) o' := by
  obtain rfl := hs.1
  have hopen := h.isOpenTo_iff hs
  cases hr with
  | missing unknown =>
    rw [ho] at unknown
    cases unknown
  | rejected stored reacts | duplicate stored reacts =>
    obtain rfl := Option.some_inj.1 (ho.symm.trans stored)
    have hclosed : ¬ status.rank < s.target.rank := by
      intro hrank
      obtain ⟨a, ha⟩ := Order.react_of_isOpenTo (hopen.2 hrank) w.clock
      rw [reacts] at ha
      cases ha
    rw [further, if_neg hclosed]
    exact ⟨o, ho, h⟩
  | refused stored reacts objection =>
    obtain rfl := Option.some_inj.1 (ho.symm.trans stored)
    have hid := (Order.samePlacement_of_react reacts).id
    rw [h.objection_eq_none ho hsaving hid (Order.version_of_react reacts)] at objection
    cases objection
  | saved stored reacts accepted book =>
    obtain rfl := Option.some_inj.1 (ho.symm.trans stored)
    obtain ⟨hopen', hreached, -⟩ := Order.of_react reacts
    have hrank := hopen.1 hopen'
    have hcourse := (Arrival.signal s).isOnCourse_target
    have hfree : s.target ≠ .confirmed := by
      intro heq
      rw [heq] at hrank
      rcases h.course with rfl | rfl | rfl | rfl <;> exact absurd hrank (by decide)
    have hlinked : s.target ≠ .paymentPending := by cases s <;> simp [Signal.target]
    rw [further, if_pos hrank, book]
    exact h.store (Order.samePlacement_of_react reacts).id (Order.version_of_react reacts) hreached
      hcourse hfree (fun heq => absurd heq hlinked) _

/-- Linking the payment moves the order to the open payment, if that is further on. -/
theorem movesOn (h : Stands id payment status o) (ho : w.book.get? id = some o)
    (hsaving : w.book.failing = false) {r : Except ServiceError Order}
    (hr : Service.MovesOn id (.linkPayment payment) w r w') :
    ∃ o', w'.book.get? id = some o' ∧ Stands id payment (further status .paymentPending) o' := by
  cases hr with
  | missing unknown =>
    rw [ho] at unknown
    cases unknown
  | rejected stored rejects =>
    obtain rfl := Option.some_inj.1 (ho.symm.trans stored)
    have hclosed : ¬ status.rank < Status.paymentPending.rank := by
      intro hrank
      rw [Order.transition_of_accepts (h.accepts_link_iff.2 ⟨hrank, rfl⟩)] at rejects
      cases rejects
    rw [further, if_neg hclosed]
    exact ⟨o, ho, h⟩
  | refused stored accepts objection =>
    obtain rfl := Option.some_inj.1 (ho.symm.trans stored)
    have hid := (Order.samePlacement_of_transition accepts).id
    rw [h.objection_eq_none ho hsaving hid (Order.version_of_transition accepts)] at objection
    cases objection
  | saved stored accepts accepted book =>
    obtain rfl := Option.some_inj.1 (ho.symm.trans stored)
    have hid := (Order.samePlacement_of_transition accepts).id
    have hversion := Order.version_of_transition accepts
    obtain ⟨e, he, rfl, -⟩ := Order.accepts_of_transition accepts
    obtain ⟨hrank, rfl⟩ := h.accepts_link_iff.1 he
    rw [further, if_pos hrank, book]
    exact h.store hid hversion rfl (.inr (.inl rfl)) (by simp [Order.apply]) (fun _ => rfl) _

end Stands

/-- Each arrival moves the order to the status that it aims at, if that is further on. -/
theorem yields_arrive {w : World} {id : OrderId} {payment : PaymentId} {status : Status} {o : Order}
    (h : Stands id payment status o) (ho : w.book.get? id = some o)
    (hsaving : w.book.failing = false) {a : Arrival} (ha : a.Concerns id payment) (desk : HoldDesk)
    (retries : ConflictRetries) :
    (a.script desk retries id payment).Yields World.answer
      (fun _ w' => ∃ o', w'.book.get? id = some o' ∧
        Stands id payment (further status a.target) o') w := by
  cases a with
  | link =>
    refine yields_map.2 ((Service.yields_moveOn id _ _ w).mono fun r w' hr => ?_)
    exact h.movesOn ho hsaving hr
  | signal s =>
    refine yields_map.2 ((yields_handle desk retries s w).mono fun r w' hr => ?_)
    exact h.handles ha ho hsaving hr

/-! ## All arrivals -/

/-- What happens between two arrivals: nothing to the order, and saving works then. -/
structure Meanwhile (id : OrderId) (w w' : World) : Prop where
  stored : w'.book.get? id = w.book.get? id
  saving : w'.book.failing = false

/-- Some arrivals at an order, one after the other. Between them anything else may happen, and each
may be handled by another desk. -/
inductive Course (id : OrderId) (payment : PaymentId) (w : World) : List Arrival → World → Prop
  | start : Course id payment w [] w
  | arrive {as : List Arrival} {w₁ w₂ : World} (a : Arrival) (desk : HoldDesk)
      (retries : ConflictRetries) (before : Course id payment w as w₁)
      (meanwhile : Meanwhile id w₁ w₂) :
      Course id payment w (as ++ [a]) ((a.script desk retries id payment).run World.answer w₂).2

/-- The world after some arrivals, one right after the other. -/
def afterArrivals (desk : HoldDesk) (retries : ConflictRetries) (id : OrderId) (payment : PaymentId)
    (as : List Arrival) (w : World) : World :=
  as.foldl (fun w a => ((a.script desk retries id payment).run World.answer w).2) w

@[simp] theorem failing_afterArrivals (desk : HoldDesk) (retries : ConflictRetries) (id : OrderId)
    (payment : PaymentId) (as : List Arrival) (w : World) :
    (afterArrivals desk retries id payment as w).book.failing = w.book.failing := by
  induction as generalizing w with
  | nil => rfl
  | cons a as ih => exact (ih _).trans (World.failing_run _ _)

/-- While saving works, arrivals one right after the other are a course. -/
theorem course_afterArrivals (desk : HoldDesk) (retries : ConflictRetries) (id : OrderId)
    (payment : PaymentId) (as : List Arrival) {w : World} (hsaving : w.book.failing = false) :
    Course id payment w as (afterArrivals desk retries id payment as w) := by
  induction as using List.reverseRecOn with
  | nil => exact .start
  | append_singleton as a ih =>
    have hlast := Course.arrive a desk retries ih ⟨rfl, by simp [hsaving]⟩
    rwa [afterArrivals, List.foldl_append]

/-- **The order of arrival does not matter once an order is confirmed.** If anything that arrived
calls the order off, it is cancelled in the end; if not, a completed payment has prepared it; if
there was none either, a link has left its payment open; otherwise it is still confirmed. So the
same arrivals in another order, or some of them again, end in the same status. -/
theorem arrivals_converge {w : World} (hkept : w.book.WellKept) {id : OrderId}
    {payment : PaymentId} {o : Order} (ho : w.book.get? id = some o)
    (hstatus : o.status = .confirmed) (hfree : o.payment = none) {as : List Arrival}
    (has : ∀ a ∈ as, a.Concerns id payment) {w' : World} (c : Course id payment w as w') :
    (w'.book.get? id).map Order.status = some (outcome as) ∧
      ∀ bs w'', (∀ b, b ∈ bs ↔ b ∈ as) → Course id payment w bs w'' →
        (w''.book.get? id).map Order.status = (w'.book.get? id).map Order.status := by
  have run : ∀ {as w'}, (∀ a ∈ as, a.Concerns id payment) → Course id payment w as w' →
      ∃ o', w'.book.get? id = some o' ∧ Stands id payment (outcome as) o' := by
    intro as w' has c
    induction c with
    | start =>
      obtain ⟨hown, hsaved⟩ := hkept id o ho
      exact ⟨o, ho, hown, hsaved, hstatus, .inl rfl, fun _ => hfree, nofun⟩
    | arrive a desk retries before meanwhile ih =>
      obtain ⟨x, hx, hstands⟩ := ih fun b hb => has b (List.mem_append_left _ hb)
      rw [outcome_concat]
      exact yields_arrive hstands (meanwhile.stored.trans hx) meanwhile.saving
        (has a (List.mem_append_right _ (List.mem_singleton_self a))) desk retries
  have status : ∀ {as w'}, (∀ a ∈ as, a.Concerns id payment) → Course id payment w as w' →
      (w'.book.get? id).map Order.status = some (outcome as) := by
    intro as w' has c
    obtain ⟨x, hx, hstands⟩ := run has c
    rw [hx, Option.map_some, hstands.reached]
  refine ⟨status has c, fun bs w'' hsame c' => ?_⟩
  rw [status has c, status (fun b hb => has b ((hsame b).1 hb)) c', outcome_congr hsame]

/-- The order of two widgets when it is confirmed. -/
def confirmedWidgets : Order := { placedWidgets with status := .confirmed }

/-- Where the order of two widgets stands after some arrivals. -/
def widgetStatus (as : List Arrival) : Option Status :=
  let w := afterArrivals .direct defaultRetries confirmedWidgets.id ⟨"payment"⟩ as
    (shopWith confirmedWidgets)
  (w.book.get? confirmedWidgets.id).map Order.status

/-- A payment that is completed before it is linked prepares the order, and so it does when it is
linked first, and again later. -/
theorem widget_arrivals_converge :
    widgetStatus [.signal widgetsPaid, .link, .signal widgetsHeld] = some .preparing ∧
      widgetStatus [.signal widgetsHeld, .link, .signal widgetsPaid, .link] =
        widgetStatus [.signal widgetsPaid, .link, .signal widgetsHeld] := by
  have hkept : (shopWith confirmedWidgets).book.WellKept :=
    (OrderBook.wellKept_of_empty rfl).store (by decide)
  have hstored : (shopWith confirmedWidgets).book.get? confirmedWidgets.id =
      some { confirmedWidgets with version := 1 } := by
    decide +kernel
  have hconcern : ∀ a ∈ [Arrival.signal widgetsPaid, .link, .signal widgetsHeld],
      a.Concerns confirmedWidgets.id ⟨"payment"⟩ := by
    simp [Arrival.Concerns, widgetsPaid, widgetsHeld, Signal.order, Signal.payment?,
      confirmedWidgets]
  have course : ∀ as, Course confirmedWidgets.id ⟨"payment"⟩ (shopWith confirmedWidgets) as _ :=
    fun as => course_afterArrivals .direct defaultRetries _ _ as rfl
  have converge := arrivals_converge hkept hstored rfl rfl hconcern (course _)
  have hsame : ∀ b, b ∈ [.signal widgetsHeld, .link, .signal widgetsPaid, .link] ↔
      b ∈ [Arrival.signal widgetsPaid, .link, .signal widgetsHeld] := by
    grind
  exact ⟨converge.1, converge.2 _ _ hsame (course _)⟩

end Saga
end Fulfilment
