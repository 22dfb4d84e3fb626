import Fulfilment.Proofs.Order.History
import Fulfilment.Proofs.Service.Moving
import Fulfilment.Proofs.Stock.Counters

/-!
# Creating orders with keys

What a request to create an order says to the stores, whatever is replied. `Progress` is read off
what it has said so far: where it stands with its key, which orders it stored, which holds it keeps
and what it told other services. Only who acquired the key works: it adds at most one hold, which is
taken back before the key is given back, or stores one order and tells of it before the key is bound
to that order. A request that breaks off leaves its key as it is, and has neither a hold nor an
order.
-/
namespace Fulfilment
namespace Service

open Script Operation

variable {α : Type} {log : List (Exchange Shop.calls)}

/-! ## Progress -/

/-- Where a request stands with its key. -/
inductive Phase where
  | unclaimed
  | refused
  | taken
  | replaying (order : OrderId)
  | working
  | bound (order : OrderId)
  | released
deriving DecidableEq, Repr

/-- Where a request stands after an exchange. -/
def Phase.after (ph : Phase) : Exchange Shop.calls → Phase
  | ⟨.claim _, .error _⟩ => .refused
  | ⟨.claim _, .ok .inFlight⟩ => .taken
  | ⟨.claim _, .ok (.completed id)⟩ => .replaying id
  | ⟨.claim _, .ok .acquired⟩ => .working
  | ⟨.complete _ id, _⟩ => .bound id
  | ⟨.release _, _⟩ => .released
  | _ => ph

/-- The holds that are kept after an exchange, of those kept before and those added. -/
def keptAfter (hs : List Hold) : Exchange Shop.calls → List Hold
  | ⟨.stock (.insertHold h), true⟩ => hs ++ [h]
  | ⟨.stock (.takeHold id), _⟩ => hs.filter fun h => h.id ≠ id
  | _ => hs

def told? : Exchange Shop.calls → Option Notice
  | ⟨.publish n, _⟩ => some n
  | _ => none

/-- Where a request stands with its key. -/
def phase (log : List (Exchange Shop.calls)) : Phase := log.foldl Phase.after .unclaimed

/-- The holds that were added and not taken back. -/
def kept (log : List (Exchange Shop.calls)) : List Hold := log.foldl keptAfter []

def told (log : List (Exchange Shop.calls)) : List Notice := log.filterMap told?

@[simp] theorem told_append (log es : List (Exchange Shop.calls)) :
    told (log ++ es) = told log ++ told es := List.filterMap_append

/-- How far a request has come: where it stands with its key, and what it has stored, what it keeps
and what it has told. -/
structure Progress where
  phase : Phase := .unclaimed
  saved : List Order := []
  held : List Hold := []
  told : List Notice := []

/-- How far a request has come with some exchanges. -/
def progress (log : List (Exchange Shop.calls)) : Progress :=
  ⟨phase log, commits log, kept log, told log⟩

namespace Progress

/-- How far a request has come after an exchange. -/
def after (g : Progress) (e : Exchange Shop.calls) : Progress where
  phase := g.phase.after e
  saved := g.saved ++ (stored? e).toList
  held := keptAfter g.held e
  told := g.told ++ (told? e).toList

/-- What a request may do while the key is its own. -/
def Works (g : Progress) (r : CreateRequest) : Shop.Call → Prop
  | .save o => g.saved = [] ∧ o.IsReserved ∧ o.version = 0 ∧ o.user = r.user
  | .stock (.insertHold _) => g.saved = [] ∧ g.held = []
  | .stock (.takeHold id) => g.saved = [] ∧ ∀ h ∈ g.held, h.id = id
  | .publish n => ∃ o, g.saved = [o] ∧
    (g.told = [] ∧ n = .created o ∨ g.told = [.created o] ∧ Notice.reserved? o = some n)
  | .complete k id => k = r.requestKey ∧ ∃ o, g.saved = [o] ∧ o.id = id
  | .release k => k = r.requestKey ∧ g.saved = [] ∧ g.held = []
  | .claim _ => False
  | _ => True

/-- What a request may do. -/
def Allows (g : Progress) (r : CreateRequest) (request : Shop.Call) : Prop :=
  match g.phase with
  | .unclaimed => request = .claim r.requestKey
  | .replaying id => request = .load id
  | .working => g.Works r request
  | .refused | .taken | .bound _ | .released => False

/-- A request claims its key, loads the order that the key is bound to, or does what works. -/
theorem allows_cases {g : Progress} {r : CreateRequest} {request : Shop.Call}
    (h : g.Allows r request) :
    (g.phase = .unclaimed ∧ request = .claim r.requestKey) ∨
      (∃ id, g.phase = .replaying id ∧ request = .load id) ∨
      (g.phase = .working ∧ g.Works r request) := by
  unfold Allows at h
  split at h
  · exact .inl ⟨‹_›, h⟩
  · exact .inr (.inl ⟨_, ‹_›, h⟩)
  · exact .inr (.inr ⟨‹_›, h⟩)
  all_goals exact h.elim

end Progress

@[simp] theorem progress_append (log : List (Exchange Shop.calls)) (e : Exchange Shop.calls) :
    progress (log ++ [e]) = (progress log).after e := by
  have hsaved : commits [e] = (stored? e).toList := by cases h : stored? e <;> simp [commits, h]
  have htold : [e].filterMap told? = (told? e).toList := by cases h : told? e <;> simp [h]
  simp [progress, Progress.after, phase, kept, told, hsaved, htold]

/-- Who replays was told which order the key is bound to. -/
theorem exists_claim_of_phase {id : OrderId} (h : phase log = .replaying id) :
    ∃ k, ⟨.claim k, .ok (.completed id)⟩ ∈ log := by
  have step : ∀ {ph : Phase} {e : Exchange Shop.calls}, ph.after e = .replaying id →
      ph = .replaying id ∨ ∃ k, e = ⟨.claim k, .ok (.completed id)⟩ := by
    rintro ph ⟨request, reply⟩ he
    cases request with
    | claim k =>
      rcases reply with e | _ | _ | bound <;> cases he
      exact .inr ⟨k, rfl⟩
    | complete | release => cases he
    | _ => exact .inl he
  have run : ∀ {ph : Phase}, log.foldl Phase.after ph = .replaying id →
      ph = .replaying id ∨ ∃ k, ⟨.claim k, .ok (.completed id)⟩ ∈ log := by
    clear h
    induction log with
    | nil => exact .inl
    | cons e es ih =>
      intro ph hes
      rcases ih hes with he | ⟨k, hk⟩
      · rcases step he with hph | ⟨k, rfl⟩
        · exact .inl hph
        · exact .inr ⟨k, List.mem_cons_self ..⟩
      · exact .inr ⟨k, List.mem_cons_of_mem _ hk⟩
  exact (run h).resolve_left nofun

/-- How a request goes about creating an order. -/
def creation (r : CreateRequest) : Protocol Shop.calls where
  allows log request := (progress log).Allows r request

/-! ## Calls of no consequence -/

/-- The call tells a request nothing of its progress. -/
def Idle : Shop.Call → Prop
  | .save _ | .publish _ | .claim _ | .complete .. | .release _ => False
  | .stock (.insertHold _) | .stock (.takeHold _) => False
  | _ => True

theorem Progress.after_idle (g : Progress) {request : Shop.Call} (h : Idle request)
    (reply : Shop.calls.Reply request) : g.after ⟨request, reply⟩ = g := by
  have hafter : g.after ⟨request, reply⟩ =
      { g with saved := g.saved ++ [], told := g.told ++ [] } := by
    cases request with
    | stock request => cases request <;> first | rfl | exact h.elim
    | _ => first | rfl | exact h.elim
  rw [hafter, List.append_nil, List.append_nil]

/-- While the key is its own, a request may make idle calls, which are no progress. -/
theorem obeys_of_idle {r : CreateRequest} {p : Script Shop.calls α} (h : p.Only Idle)
    {g : Progress} (hphase : g.phase = .working) (hg : progress log = g) :
    p.Obeys (creation r) (fun _ log' => progress log' = g) log := by
  refine h.obeys (motive := fun l => progress l = g) ?_ ?_ hg
  · intro l request hl hidle
    have hworks : g.Works r request := by
      cases request with
      | stock request => cases request <;> trivial
      | _ => trivial
    simpa only [creation, hl, Progress.Allows, hphase] using hworks
  · intro l request reply hl hidle
    rw [progress_append, hl, g.after_idle hidle]

section Stock

/-- The call on the ledger tells a request nothing of its progress. -/
abbrev StockIdle (request : Stock.Call) : Prop := Idle (.stock request)

theorem only_idle_onStock {p : Script Stock.calls α} (h : p.Only StockIdle) :
    (Shop.onStock p).Only Idle := by
  induction p with
  | done a => trivial
  | call request next ih => exact ⟨h.1, fun reply => ih reply (h.2 reply)⟩

theorem onStock_bind {β : Type} (p : Script Stock.calls α) (f : α → Script Stock.calls β) :
    Shop.onStock (p >>= f) = Shop.onStock p >>= fun a => Shop.onStock (f a) := by
  induction p with
  | done a => rfl
  | call request next ih => simp only [call_bind, Shop.onStock, ih]

theorem only_idle_onCounter {p : Script Stock.calls α} (h : p.Only Stock.Call.IsOnCounter) :
    (Shop.onStock p).Only Idle := by
  refine only_idle_onStock (h.mono fun {request} hcounter => ?_)
  cases request <;> trivial

end Stock

/-! ## Placing -/

section Placing

variable {r : CreateRequest} {g : Progress}

/-- A request that has its key may do what works. -/
theorem creation_allows {request : Shop.Call} (hg : progress log = g) (hphase : g.phase = .working)
    (h : g.Works r request) : (creation r).allows log request := by
  simpa only [creation, hg, Progress.Allows, hphase] using h

theorem obeys_idle (request : Shop.Call) (h : Idle request) (hphase : g.phase = .working)
    (hg : progress log = g) :
    (ask Shop.calls request).Obeys (creation r) (fun _ log' => progress log' = g) log :=
  obeys_of_idle (only_ask h) hphase hg

theorem obeys_idleStock (request : Stock.Call) (h : StockIdle request) (hphase : g.phase = .working)
    (hg : progress log = g) :
    (Shop.onStock (.ask Stock.calls request)).Obeys (creation r) (fun _ log' => progress log' = g)
      log :=
  obeys_of_idle (only_idle_onStock (only_ask h)) hphase hg

theorem obeys_askStock {P : Protocol Shop.calls} {request : Stock.Call}
    {ends : request.Reply → List (Exchange Shop.calls) → Prop} :
    (Shop.onStock (.ask Stock.calls request)).Obeys P ends log ↔
      P.allows log (.stock request) ∧ ∀ reply, P.expects ⟨.stock request, reply⟩ →
        ends reply (log ++ [⟨.stock request, reply⟩]) := Iff.rfl

/-- What a request for stock leaves a request with that has kept nothing before. -/
def Reserved (res : Ending (Except StockError Hold)) (log : List (Exchange Shop.calls)) : Prop :=
  match res with
  | .answered (.ok h) =>
    ∃ hs, (∀ x ∈ hs, x.id = h.id) ∧ progress log = { phase := .working, held := hs }
  | .answered (.error _) | .brokeOff => progress log = { phase := .working }

theorem reserved_replay (held : Hold) (store : StoreId) (ls : List StockLine)
    (hg : progress log = { phase := .working }) :
    Reserved (.answered (Reservation.replay held store ls)) log := by
  unfold Reservation.replay
  split
  · exact ⟨[], by simp, hg⟩
  · exact hg

/-- Holding lines adds one hold, or none. -/
theorem obeys_hold (store : StoreId) (ls : List StockLine) (id : ReservationId) (ttl : Span)
    (hg : progress log = { phase := .working }) :
    (Shop.onStock (Reservation.hold store ls id ttl)).Obeys (creation r) Reserved log := by
  rw [Reservation.hold, onStock_bind, obeys_bind]
  refine (obeys_idleStock .now trivial rfl hg).mono fun now log₁ hg => ?_
  cases now.add? ttl with
  | none => exact hg
  | some deadline =>
    dsimp only
    rw [onStock_bind, obeys_bind]
    refine obeys_askStock.2 ⟨creation_allows hg rfl ⟨rfl, rfl⟩, fun added _ => ?_⟩
    have hafter := progress_append log₁
      ⟨.stock (.insertHold ⟨id, store, ls, now, deadline⟩), added⟩
    rw [hg] at hafter
    cases added with
    | true => exact ⟨[⟨id, store, ls, now, deadline⟩], by simp, hafter⟩
    | false =>
      rw [if_neg Bool.false_ne_true, onStock_bind, obeys_bind]
      have hback := only_idle_onCounter (Reservation.only_counter_giveBack ls)
      refine (obeys_of_idle hback rfl hafter).mono fun _ log₂ hg => ?_
      rw [onStock_bind, obeys_bind]
      refine (obeys_idleStock (.getHold id) trivial rfl hg).mono fun found log₃ hg => ?_
      cases found with
      | some held => exact reserved_replay held store ls hg
      | none => exact hg

/-- Reserving adds one hold, or none. -/
theorem obeys_reserve (budget : RetryBudget) (store : StoreId) (ls : List StockLine)
    (id : ReservationId) (ttl : Span) (hg : progress log = { phase := .working }) :
    (Shop.onStock (Reservation.reserve budget store ls id ttl)).Obeys (creation r)
      Reserved log := by
  unfold Reservation.reserve
  split
  · exact hg
  · rw [onStock_bind, obeys_bind]
    refine (obeys_idleStock (.getHold id) trivial rfl hg).mono fun found log₁ hg => ?_
    cases found with
    | some held => exact reserved_replay held store _ hg
    | none =>
      simp only [Reservation.reserveNew]
      rw [onStock_bind, obeys_bind]
      refine (obeys_idleStock (.isOpen store) trivial rfl hg).mono fun isOpen log₂ hg => ?_
      cases isOpen with
      | false => exact hg
      | true =>
        rw [if_pos rfl, onStock_bind, obeys_bind]
        have htake := only_idle_onCounter
          (Reservation.only_counter_takeAll budget [] (StockLine.merge ls))
        refine (obeys_of_idle htake rfl hg).mono fun result log₃ hg => ?_
        cases result with
        | error e => exact hg
        | ok _ => exact obeys_hold store _ id ttl hg

theorem obeys_releaseHold {hs : List Hold} (id : ReservationId) (hhs : ∀ h ∈ hs, h.id = id)
    (hg : progress log = { phase := .working, held := hs }) :
    (releaseHold id).Obeys (creation r) (fun _ log' => progress log' = { phase := .working })
      log := by
  rw [releaseHold, Reservation.release, onStock_bind, obeys_bind, obeys_bind]
  refine obeys_askStock.2 ⟨creation_allows hg rfl ⟨rfl, hhs⟩, fun found _ => ?_⟩
  have hafter := progress_append log ⟨.stock (.takeHold id), found⟩
  have hnone : hs.filter (fun h => h.id ≠ id) = [] :=
    List.filter_eq_nil_iff.2 fun h hh => by simp [hhs h hh]
  rw [hg, Progress.after, keptAfter, hnone] at hafter
  refine (obeys_of_idle (only_idle_onCounter ?_) rfl hafter).mono fun res log₁ hg => ?_
  · cases found with
    | some held => exact only_bind (Reservation.only_counter_restore _) fun _ => trivial
    | none => trivial
  · cases res <;> exact hg

/-- What saving leaves a request with that keeps some holds. -/
def Saved (hs : List Hold) (res : Except ServiceError (Order × Transition))
    (log : List (Exchange Shop.calls)) : Prop :=
  match res with
  | .ok (o, _) => progress log = { phase := .working, saved := [o], held := hs }
  | .error _ => progress log = { phase := .working, held := hs }

/-- A placed order is saved with its reservation, or it is refused. -/
theorem obeys_saveReserved {hs : List Hold} {o : Order} (held : Hold) (now : Instant)
    (hplaced : o.IsPlaced) (hversion : o.version = 0) (huser : o.user = r.user)
    (hg : progress log = { phase := .working, held := hs }) :
    (saveReserved o held now).run.Obeys (creation r) (Saved hs) log := by
  rw [saveReserved, obeys_run_bind, accept, require_run, obeys_done]
  cases ht : o.transition (.markStockReserved held.id held.expiresAt) now with
  | error rejection => exact hg
  | ok moved =>
    obtain ⟨next, t⟩ := moved
    have hsame := Order.samePlacement_of_transition ht
    have hnext := Order.version_of_transition ht
    have hreserved : next.IsReserved :=
      ⟨o, _, _, now, hplaced, next, [t], next.version, Order.transitionAll_singleton ht, rfl⟩
    refine obeys_run_bind.2 ?_
    rw [saveOrder, obeys_run_bind, call_run, obeys_bind]
    refine ⟨creation_allows hg rfl ⟨rfl, hreserved, hnext.trans hversion, hsame.user.trans huser⟩,
      fun reply _ => ?_⟩
    have hafter := progress_append log ⟨.save next, reply⟩
    rw [hg] at hafter
    cases reply <;> exact hafter

/-- A placed order is saved with its reservation, or its hold is given back. -/
theorem obeys_saveOrRelease {hs : List Hold} {o : Order} (held : Hold) (now : Instant)
    (hhs : ∀ h ∈ hs, h.id = held.id) (hplaced : o.IsPlaced) (hversion : o.version = 0)
    (huser : o.user = r.user) (hg : progress log = { phase := .working, held := hs }) :
    (saveOrRelease o held now).run.Obeys (creation r)
      (fun res log' => match res with
        | .ok (o, _) => progress log' = { phase := .working, saved := [o], held := hs }
        | .error _ => progress log' = { phase := .working }) log := by
  refine obeys_bind.2 ((obeys_saveReserved held now hplaced hversion huser hg).mono ?_)
  intro result log₁ hg
  cases result with
  | error e => exact obeys_bind.2 ((obeys_releaseHold held.id hhs hg).mono fun _ _ hg => hg)
  | ok moved =>
    obtain ⟨o', t⟩ := moved
    exact hg

/-- A stored order is told of, and then its reservation. -/
theorem obeys_announceCreation {hs : List Hold} {o : Order} (held : Hold) (t : Transition)
    (now : Instant) (hg : progress log = { phase := .working, saved := [o], held := hs }) :
    (announceCreation o held t now).Obeys (creation r)
      (fun _ log' => ∃ ns,
        progress log' = { phase := .working, saved := [o], held := hs, told := ns })
      log := by
  refine obeys_bind.2 ((obeys_idle (.record _) trivial rfl hg).mono fun _ log₁ hg => ?_)
  refine obeys_bind.2 ((obeys_idle (.record _) trivial rfl hg).mono fun _ log₂ hg => ?_)
  refine obeys_bind.2 ⟨creation_allows hg rfl ⟨o, rfl, .inl ⟨rfl, rfl⟩⟩, fun reply _ => ?_⟩
  have hafter := progress_append log₂ ⟨.publish (.created o), reply⟩
  rw [hg] at hafter
  cases hn : Notice.reserved? o with
  | none => exact ⟨[.created o], hafter⟩
  | some n =>
    refine ⟨creation_allows hafter rfl ⟨o, rfl, .inr ⟨rfl, hn⟩⟩, fun reply' _ => ?_⟩
    have hafter' := progress_append (log₂ ++ [⟨.publish (.created o), reply⟩]) ⟨.publish n, reply'⟩
    rw [hafter] at hafter'
    exact ⟨[.created o, n], hafter'⟩

theorem obeys_requireSold (store : StoreId) (ls : List Line) (hphase : g.phase = .working)
    (hg : progress log = g) :
    (requireSold store ls).run.Obeys (creation r) (fun _ log' => progress log' = g) log := by
  induction ls generalizing log with
  | nil => exact hg
  | cons l ls ih =>
    rw [requireSold, obeys_run_bind, call_run, obeys_bind]
    refine (obeys_idle (.sells store l.product) trivial hphase hg).mono fun reply log₁ hg => ?_
    rcases reply with e | _ | _
    · exact hg
    · exact hg
    · exact ih hg

theorem obeys_requireListed (hphase : g.phase = .working) (hg : progress log = g) :
    (requireListed r).run.Obeys (creation r) (fun _ log' => progress log' = g) log := by
  rw [requireListed, obeys_run_bind, call_run, obeys_bind]
  refine (obeys_idle (.hasStore r.store) trivial hphase hg).mono fun reply log₁ hg => ?_
  rcases reply with e | _ | _
  · exact hg
  · exact hg
  · exact obeys_requireSold r.store r.lines hphase hg

/-- What storing an order leaves a request with. -/
def Stored (res : Except ServiceError Order) (log : List (Exchange Shop.calls)) : Prop :=
  match res with
  | .ok o => ∃ hs ns, progress log = { phase := .working, saved := [o], held := hs, told := ns }
  | .error _ => progress log = { phase := .working }

/-- A placed order is stored with its hold and told of, or nothing is left of it. -/
theorem obeys_storeReserved {o : Order} (now : Instant) {reserved : Except StockError Hold}
    (hplaced : o.IsPlaced) (hversion : o.version = 0) (huser : o.user = r.user)
    (hres : Reserved (.answered reserved) log) :
    (storeReserved o now reserved).run.Obeys (creation r) Stored log := by
  rw [storeReserved, obeys_run_bind, require_run, obeys_done]
  cases reserved with
  | error e => exact hres
  | ok held =>
    obtain ⟨hs, hhs, hg⟩ := hres
    refine obeys_run_bind.2 ((obeys_saveOrRelease held now hhs hplaced hversion huser hg).mono ?_)
    intro result log₁ hg
    cases result with
    | error e => exact hg
    | ok saved =>
      obtain ⟨o', t⟩ := saved
      refine obeys_run_lift.2 ((obeys_announceCreation held t now hg).mono ?_)
      intro _ log₂ hg
      obtain ⟨ns, hg⟩ := hg
      exact ⟨hs, ns, hg⟩

/-- An order is placed with its stock and told of, or nothing is left of it. -/
theorem obeys_placeAndReserve (budget : RetryBudget) (ttl : Span) (draw : Draw)
    (hg : progress log = { phase := .working }) :
    (placeAndReserve budget ttl r draw).run.Obeys (creation r)
      (fun res log' => match res with
        | .ok (.answered o) => Stored (.ok o) log'
        | .ok .brokeOff => progress log' = { phase := .working }
        | .error e => Stored (.error e) log') log := by
  rw [placeAndReserve, obeys_run_bind]
  refine (obeys_requireListed rfl hg).mono ?_
  intro result log₁ hg
  cases result with
  | error e => exact hg
  | ok _ =>
    refine obeys_run_lift.2 ((obeys_idleStock .now trivial rfl hg).mono fun now log₂ hg => ?_)
    rw [obeys_run_bind, require_run, obeys_done]
    cases hplace : Order.place (r.newOrder draw now) now with
    | error rejection => exact hg
    | ok placed =>
      obtain ⟨o, e⟩ := placed
      have ho : o = Order.ofRequest (r.newOrder draw now) now := by
        unfold Order.place at hplace
        split at hplace
        · cases hplace
        · cases hplace
          rfl
      have hplaced : o.IsPlaced := ⟨_, _, _, hplace⟩
      refine obeys_run_lift.2 ((obeys_reserve budget _ _ _ ttl hg).mono ?_)
      intro ending log₃ hres
      cases ending with
      | brokeOff => exact hres
      | answered reserved =>
        refine obeys_run_bind.2 ((obeys_storeReserved now hplaced (by rw [ho]; rfl)
          (by rw [ho]; rfl) hres).mono ?_)
        intro result log₄ hstored
        cases result <;> exact hstored

end Placing

/-! ## Keys -/

/-- How a request for an order ends. -/
inductive CreateRequest.Ends (r : CreateRequest) :
    Answer → List (Exchange Shop.calls) → Prop where
  | made {o : Order} {l : List (Exchange Shop.calls)} (hs : List Hold) (ns : List Notice)
      (h : progress l = { phase := .bound o.id, saved := [o], held := hs, told := ns }) :
      r.Ends (.order (.ok o)) l
  | replayed {o : Order} {l : List (Exchange Shop.calls)} (id : OrderId)
      (h : progress l = { phase := .replaying id }) (loaded : Loaded l id o) :
      r.Ends (.order (.ok o)) l
  | refused {e : ServiceError} {l : List (Exchange Shop.calls)}
      (h : progress l = { phase := .refused }) : r.Ends (.order (.error e)) l
  | taken {l : List (Exchange Shop.calls)} (h : progress l = { phase := .taken }) :
      r.Ends (.order (.error (.duplicateRequest r.key))) l
  | lost {e : ServiceError} {l : List (Exchange Shop.calls)} (id : OrderId)
      (h : progress l = { phase := .replaying id }) : r.Ends (.order (.error e)) l
  | failed {e : ServiceError} {l : List (Exchange Shop.calls)}
      (h : progress l = { phase := .released }) : r.Ends (.order (.error e)) l
  | stopped {l : List (Exchange Shop.calls)} (h : progress l = { phase := .working }) :
      r.Ends .brokeOff l

variable (budget : RetryBudget) (ttl : Span) (r : CreateRequest) (draw : Draw)

/-- A request binds its key to the order that it stores, or gives it back, or breaks off. -/
theorem obeys_createClaimed (hg : progress log = { phase := .working }) :
    (createClaimed budget ttl r draw).run.Obeys (creation r)
      (fun res log' => r.Ends (.ofCreation res) log') log := by
  refine obeys_bind.2 ((obeys_placeAndReserve budget ttl draw hg).mono ?_)
  intro result log₁ hg
  match result with
  | .error e =>
    refine obeys_bind.2 ⟨creation_allows hg rfl ⟨rfl, rfl, rfl⟩, fun reply _ => .failed ?_⟩
    rw [progress_append, hg]
    rfl
  | .ok .brokeOff => exact .stopped hg
  | .ok (.answered o) =>
    obtain ⟨hs, ns, hg⟩ := hg
    refine obeys_bind.2 ⟨creation_allows hg rfl ⟨rfl, o, rfl, rfl⟩, fun reply _ => ?_⟩
    refine .made hs ns ?_
    simp [hg, Progress.after, Phase.after, keptAfter, stored?, told?]

/-- A request whose key is bound answers the order that the key is bound to. -/
theorem obeys_replay {id : OrderId} (hg : progress log = { phase := .replaying id }) :
    (loadOrder id).run.Obeys (creation r) (fun res log' => r.Ends (.order res) log') log := by
  rw [loadOrder, obeys_run_bind, call_run, obeys_bind]
  refine ⟨?_, fun reply _ => ?_⟩
  · simp [creation, hg, Progress.Allows]
  · have hloaded : progress (log ++ [⟨.load id, reply⟩]) = { phase := .replaying id } := by
      rw [progress_append, hg]
      rfl
    rcases reply with e | _ | o
    · exact .lost id hloaded
    · exact .lost id hloaded
    · exact .replayed id hloaded List.mem_concat_self

/-- A request for an order goes about it as it should. -/
theorem obeys_createOrder :
    (createOrder budget ttl r draw).run.Obeys (creation r)
      (fun res log' => r.Ends (.ofCreation res) log') [] := by
  rw [createOrder, obeys_run_bind, call_run, obeys_bind]
  refine ⟨rfl, fun reply _ => ?_⟩
  have hafter := progress_append [] ⟨.claim r.requestKey, reply⟩
  rcases reply with e | _ | _ | id
  · exact .refused hafter
  · exact obeys_createClaimed budget ttl r draw hafter
  · exact .taken hafter
  · refine obeys_run_bind.2 ((obeys_replay r hafter).mono fun res log₁ hends => ?_)
    cases res <;> exact hends

end Service
end Fulfilment
