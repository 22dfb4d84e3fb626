import Fulfilment.Proofs.Service.Creating

/-!
# Histories under concurrent commands

However commands interleave, what was saved of each order is a history: its versions count up from
one, the first value is a new order with its reservation, and each other value is what accepted
actions make of the value just before. So no update is lost. The argument is that a command saves
only what it has made of a value that it loaded, and that the book takes it only if that value is
still the current one.
-/
namespace Fulfilment
namespace Service

open Fulfilment.Order

/-! ## Commands keep to their protocols -/

/-- How a command goes about it. -/
def Command.protocol : Command → Protocol Shop.calls
  | .create _ _ r _ => creation r
  | _ => moving

/-- What a command ends with. -/
def Command.Ends : Command → Answer → List (Exchange Shop.calls) → Prop
  | .create _ _ r _, a, log => r.Ends a log
  | _, a, log => a.Tells (commits log)

/-- What an answer tells of is all that was stored. -/
theorem Adds.tells {a : Answer} {cs : List Order} {log : List (Exchange Shop.calls)}
    (h : Adds [] cs log) (htells : a.Tells cs) : a.Tells (commits log) := by
  have hlog : commits log = cs := by simpa using h.commits_eq
  rwa [hlog]

theorem Adds.tells_order {res : Except ServiceError Order} {log : List (Exchange Shop.calls)}
    (h : Adds [] res.toOption.toList log) : (Answer.order res).Tells (commits log) := by
  refine h.tells ?_
  cases res <;> rfl

theorem Command.obeys (desk : HoldDesk) (c : Command) :
    (c.script desk).Obeys c.protocol c.Ends [] := by
  cases c with
  | create budget ttl r draw =>
    exact Script.obeys_map.2 ((obeys_createOrder budget ttl r draw).mono fun _ _ h => h)
  | cancel id user reason =>
    exact Script.obeys_map.2 ((obeys_cancelOrder id user reason).mono fun _ _ => Adds.tells_order)
  | refund id user reason made =>
    exact Script.obeys_map.2
      ((obeys_refundOrder id user reason made).mono fun _ _ => Adds.tells_order)
  | linkPayment | ship | deliver | completeRefund =>
    exact Script.obeys_map.2 ((obeys_moveOn _ _ _).mono fun _ _ => Adds.tells_order)
  | handle retries signal =>
    refine Script.obeys_map.2 ((obeys_handleWithin desk signal _ _).mono ?_)
    exact fun _ _ ⟨_, hlog, htells⟩ => hlog.tells htells
  | scan batch =>
    refine Script.obeys_map.2 ((obeys_scan desk batch).mono ?_)
    exact fun _ _ ⟨_, hlog, htells⟩ => hlog.tells htells

/-- Whatever a command saves is a new order with its reservation, or what it has made of an order
that it loaded. -/
theorem Command.save_cases {c : Command} {log : List (Exchange Shop.calls)} {o : Order}
    (h : c.protocol.allows log (.save o)) : (o.IsReserved ∧ o.version = 0) ∨ Moved log o := by
  cases c with
  | create budget ttl r draw =>
    have hallowed : (progress log).Allows r (.save o) := h
    rcases Progress.allows_cases hallowed with ⟨-, h⟩ | ⟨id, -, h⟩ | ⟨-, -, hreserved, hnew, -⟩
    · cases h
    · cases h
    · exact .inl ⟨hreserved, hnew⟩
  | _ => exact .inr h

/-! ## The book and its history -/

/-- What was saved of each order is its history, the book has the last value of it, and whatever was
loaded is in it. -/
structure Recorded (s : Traffic) : Prop where
  history : ∀ id, History (Service.history s.trace id)
  stored : ∀ id, s.stores.book.get? id = (Service.history s.trace id).getLast?
  loaded : ∀ t ∈ s.tasks, ∀ {id o}, Loaded t.log id o → o ∈ Service.history s.trace id

variable {w : World} {s : Traffic}

theorem recorded_init (h : w.book.orders = ∅) : Recorded ⟨w, [], []⟩ where
  history _ := .nil
  stored id := by
    rw [OrderBook.get?, h]
    exact Table.get?_empty id
  loaded := by simp

theorem Recorded.start (a : Recorded s) (desk : HoldDesk) (c : Command) :
    Recorded { s with tasks := s.tasks ++ [(system desk).begun c] } where
  history := a.history
  stored := a.stored
  loaded t ht id o ho := by
    rcases List.mem_append.1 ht with ht | ht
    · exact a.loaded t ht ho
    · rw [List.mem_singleton.1 ht] at ho
      cases ho

theorem Recorded.disturb (a : Recorded s) (c : Change) :
    Recorded { s with stores := c.apply s.stores } where
  history := a.history
  stored id := by
    refine Eq.trans ?_ (a.stored id)
    cases c <;> rfl
  loaded := a.loaded

/-- A saved order goes on from the last value of its history. -/
theorem Recorded.history_save (a : Recorded s) {t : Task Shop.calls Command Answer}
    (ht : t ∈ s.tasks) {o : Order} (hallowed : t.job.protocol.allows t.log (.save o))
    (hsaved : s.stores.book.objection o = none) :
    History (Service.history s.trace o.id ++ [{ o with version := o.version + 1 }]) := by
  rcases Command.save_cases hallowed with ⟨hreserved, hnew⟩ | ⟨id, loaded, as, ts, hload, hne, hts⟩
  · have hnone : Service.history s.trace o.id = [] := by
      have hget := OrderBook.get?_eq_none_of_new hsaved hnew
      rwa [a.stored, List.getLast?_eq_none_iff] at hget
    rw [hnone]
    exact History.nil.append (by simp [hnew]) (fun _ => hreserved.withVersion _) nofun
  · have hmem := a.loaded t ht hload
    obtain rfl : o.id = id :=
      (samePlacement_of_transitionAll hts).id.trans (id_of_mem_history hmem)
    have hversion : o.version = loaded.version := version_of_transitionAll hts
    have hh := a.history o.id
    obtain ⟨current, hget, hcurrent⟩ :=
      OrderBook.get?_of_known hsaved (hversion ▸ hh.version_ne_zero hmem)
    rw [a.stored] at hget
    obtain rfl := hh.eq_of_version_eq hmem hget (hversion.symm.trans hcurrent.symm)
    refine hh.append ?_ (fun hnil => ?_) fun hlast => ?_
    · rw [← hh.version_of_getLast? hget, ← hversion]
    · rw [hnil] at hget
      cases hget
    · cases hget.symm.trans hlast
      exact ⟨as, hne, o, ts, _, hts, rfl⟩

/-- A call stores nothing and leaves the book alone, or it is a save that nothing is to be said
against. -/
theorem answer_cases (request : Shop.Call) (w : World) :
    (stored? ⟨request, (World.answer request w).1⟩ = none ∧
      (World.answer request w).2.book = w.book) ∨
    ∃ o, request = .save o ∧ w.book.objection o = none ∧
      stored? ⟨request, (World.answer request w).1⟩ = some { o with version := o.version + 1 } ∧
      (World.answer request w).2.book = w.book.store o := by
  cases request with
  | save o =>
    cases ho : w.book.objection o with
    | none => exact .inr ⟨o, rfl, ho, by simp [World.answer, OrderBook.save, ho, stored?]⟩
    | some e => exact .inl (by simp [World.answer, OrderBook.save, ho, stored?])
  | _ => exact .inl ⟨rfl, rfl⟩

theorem get?_of_loaded {desk : HoldDesk} {request : Shop.Call} {id : OrderId} {o : Order}
    (h : Loaded [(system desk).exchange request w] id o) : w.book.get? id = some o := by
  have heq := List.mem_singleton.1 h
  obtain rfl : Shop.Call.load id = request := congrArg Exchange.request heq
  simpa [System.exchange, system, World.answer, eq_comm] using heq

/-- A call of one command keeps what is recorded. -/
theorem Recorded.proceed {before after : List (Task Shop.calls Command Answer)}
    {t : Task Shop.calls Command Answer} {trace : List (Exchange Shop.calls)} {request : Shop.Call}
    (a : Recorded ⟨w, before ++ t :: after, trace⟩) (desk : HoldDesk)
    (hallowed : t.job.protocol.allows t.log request) (rest : Script Shop.calls Answer) :
    Recorded (.afterCall desk w before t after trace request rest) := by
  have hmem : t ∈ before ++ t :: after := by simp
  have hloaded : ∀ u ∈ before ++ t.tell ((system desk).exchange request w) rest :: after,
      ∀ {id o}, Loaded u.log id o →
        o ∈ Service.history (trace ++ [(system desk).exchange request w]) id := by
    intro u hu id o ho
    rw [history_append]
    refine List.mem_append_left _ ?_
    rcases Task.mem_of_mem_tell hu with rfl | hu
    · rcases List.mem_append.1 ho with ho | ho
      · exact a.loaded t hmem ho
      · exact List.mem_of_getLast? ((a.stored id).symm.trans (get?_of_loaded ho))
    · exact a.loaded u hu ho
  rcases answer_cases request w with ⟨hnone, hbook⟩ | ⟨o, rfl, ho, hstored, hbook⟩
  · have hhistory : ∀ id, Service.history (trace ++ [(system desk).exchange request w]) id =
        Service.history trace id := by
      intro id
      have hnone : stored? ((system desk).exchange request w) = none := hnone
      rw [history_append, hnone]
      exact List.append_nil _
    refine ⟨fun id => ?_, fun id => ?_, hloaded⟩
    · rw [hhistory]
      exact a.history id
    · rw [hhistory, hbook]
      exact a.stored id
  · have hhistory : ∀ id, Service.history (trace ++ [(system desk).exchange (.save o) w]) id =
        Service.history trace id ++
          if id = o.id then [{ o with version := o.version + 1 }] else [] := by
      intro id
      have hstored : stored? ((system desk).exchange (.save o) w) =
        some { o with version := o.version + 1 } := hstored
      rw [history_append, hstored]
      by_cases hid : id = o.id
      · simp [hid]
      · simp [hid, Ne.symm hid]
    refine ⟨fun id => ?_, fun id => ?_, hloaded⟩
    · rw [hhistory]
      split
      · subst id
        exact a.history_save hmem hallowed ho
      · rw [List.append_nil]
        exact a.history id
    · rw [hhistory, hbook, OrderBook.get?_store]
      split
      · rw [List.getLast?_concat]
      · rw [List.append_nil]
        exact a.stored id

theorem Command.expects (c : Command) (e : Exchange Shop.calls) : c.protocol.expects e := by
  cases c <;> trivial

/-- Every schedule is recorded, and every command keeps to its protocol. -/
theorem recorded_run (h : w.book.orders = ∅) (desk : HoldDesk) (acts : List (Act Command Change)) :
    Recorded ((system desk).run ⟨w, [], []⟩ acts) ∧
      ∀ t ∈ ((system desk).run ⟨w, [], []⟩ acts).tasks,
        t.script.Obeys t.job.protocol t.job.Ends t.log :=
  System.run_obeys rfl (recorded_init h) (fun c _ => c.obeys desk)
    (fun _ c _ a => a.start desk c)
    (fun _ _ t _ _ _ _ _ hallowed a => ⟨t.job.expects _, a.proceed desk hallowed _⟩)
    (fun _ c _ a => a.disturb c)

/-- The command creates an order and was told that its key is bound to one. -/
def Replays (t : Task Shop.calls Command Answer) : Prop :=
  (∃ budget ttl r draw, t.job = .create budget ttl r draw) ∧
    ∃ k id, ⟨.claim k, .ok (.completed id)⟩ ∈ t.log

/-- What a command has stored can be told from its answer, except that a replay stores nothing. -/
theorem tells_of_obeys {t : Task Shop.calls Command Answer}
    (h : t.script.Obeys t.job.protocol t.job.Ends t.log) {a : Answer} (ha : t.result? = some a) :
    a.Tells (commits t.log) ∨ Replays t ∧ commits t.log = [] := by
  rw [Task.script_of_result? ha, Script.obeys_done] at h
  cases hjob : t.job with
  | create budget ttl r draw =>
    rw [hjob] at h
    have hends : r.Ends a t.log := h
    cases hends with
    | made hs ns hg => exact .inl (congrArg Progress.saved hg)
    | replayed id hg =>
      have hphase : phase t.log = .replaying id := congrArg Progress.phase hg
      obtain ⟨k, hk⟩ := exists_claim_of_phase hphase
      exact .inr ⟨⟨⟨budget, ttl, r, draw, hjob⟩, k, id, hk⟩, congrArg Progress.saved hg⟩
    | refused hg | taken hg | lost _ hg | failed hg | stopped hg =>
      exact .inl (congrArg Progress.saved hg)
  | _ =>
    rw [hjob] at h
    exact .inl h

/-- **Orders have linear histories.** Whatever commands run at the same time in a world that had no
orders, the values of each order are numbered from one, each is what accepted actions make of the
one just before, and the book has the last. So an order is called off at most once, its payment is
completed at most once, and nothing follows a final status. Every save is the work of one command,
and its answer tells what it saved. -/
theorem orders_have_histories (h : w.book.orders = ∅) (desk : HoldDesk)
    (acts : List (Act Command Change)) :
    let s := (system desk).run ⟨w, [], []⟩ acts
    (∀ id, let values := Service.history s.trace id
      History values ∧ s.stores.book.get? id = values.getLast? ∧
        (∀ {i j as bs}, Commits values i as → Commits values j bs →
          (as.any fun a => a.1.callsOff) → (bs.any fun b => b.1.callsOff) → i = j) ∧
        (∀ {i j as bs}, Commits values i as → Commits values j bs →
          (as.any fun a => a.1.completesPayment) → (bs.any fun b => b.1.completesPayment) → i = j) ∧
        ∀ {i o}, values[i]? = some o → o.status.isTerminal = true → i + 1 = values.length) ∧
      (commits s.trace).Perm (s.tasks.flatMap fun t => commits t.log) ∧
      ∀ t ∈ s.tasks, ∀ a, t.result? = some a →
        a.Tells (commits t.log) ∨ Replays t ∧ commits t.log = [] := by
  intro s
  obtain ⟨hrecorded, hobeys⟩ := recorded_run h desk acts
  refine ⟨fun id => ?_, ?_, fun t ht a ha => tells_of_obeys (hobeys t ht) ha⟩
  · have hh := hrecorded.history id
    exact ⟨hh, hrecorded.stored id, hh.callsOff_unique, hh.completesPayment_unique,
      hh.last_of_isTerminal⟩
  · have hperm := (System.trace_perm (system desk) ⟨w, [], []⟩ acts .rfl).filterMap stored?
    rwa [List.filterMap_flatMap] at hperm

/-- An order is created. Then its owner cancels it and a payment is linked to it; both load it
before either saves it. -/
def cancelRace : List (Act Command Change) :=
  .start (.create (.ofNat 10) (.ofMinutes 15) twoWidgets ⟨⟨.ofNat 2⟩, ⟨"first"⟩, 0⟩) ::
    List.replicate 16 (.proceed 0) ++
    [.start (.cancel ⟨.ofNat 2⟩ ⟨.ofNat 1⟩ none), .start (.linkPayment ⟨.ofNat 2⟩ ⟨"payment"⟩),
      .proceed 1, .proceed 2, .proceed 2, .proceed 1] ++
    List.replicate 5 (.proceed 1) ++ [.proceed 2]

/-- The cancellation is the second value of the order, and the last; the link is refused. -/
theorem order_has_history_in_race :
    widgetShop.book.orders = ∅ ∧
      let s := (system .direct).run ⟨widgetShop, [], []⟩ cancelRace
      let values := Service.history s.trace ⟨.ofNat 2⟩
      values.map (fun o => (o.version, o.status)) = [(1, .confirmed), (2, .cancelled)] ∧
        s.tasks.map (fun t => (commits t.log).length) = [1, 1, 0] ∧ History values ∧
        s.stores.book.get? ⟨.ofNat 2⟩ = values.getLast? := by
  have hempty : widgetShop.book.orders = ∅ := rfl
  obtain ⟨hh, hstored, -⟩ := (orders_have_histories hempty .direct cancelRace).1 ⟨.ofNat 2⟩
  exact ⟨hempty, by decide +kernel, by decide +kernel, hh, hstored⟩

end Service
end Fulfilment
