import Fulfilment.Proofs.Lists
import Fulfilment.Proofs.Service.History
import Fulfilment.Proofs.Service.Request

/-!
# Request keys under concurrent commands

However commands interleave, a key makes at most one order. The entry of a key is just what the
requests with that key have made of it: it is in flight while one of them works, it is bound to the
order of the one that was done with it, and it is free if there is neither. So at most one request
with a key works at any time or has worked with success, and every other one is turned away, answers
the order that the key is bound to, or has left nothing behind.
-/
namespace Fulfilment
namespace Service

variable {r : CreateRequest} {g : Progress} {log : List (Exchange Shop.calls)} {request : Shop.Call}

/-! ## What calls make of keys -/

/-- What a call of a request makes of the entries: of its own key, the entry stays while the request
does not turn to it or away from it, and is what the request makes of it otherwise. -/
structure Turns (k : RequestKey) (ph ph' : Phase) (ks ks' : RequestKeys) : Prop where
  others : ∀ {k'}, k' ≠ k → ks'.entries.get? k' = ks.entries.get? k'
  own : ph'.keyState? = ph.keyState? ∧ ks'.entries.get? k = ks.entries.get? k ∨
    ks.entries.get? k = ph.keyState? ∧ ks'.entries.get? k = ph'.keyState?
  replaying : ∀ {id}, ph' = .replaying id → ks'.entries.get? k = some (.completed id)

theorem turns_same {k : RequestKey} {ph ph' : Phase} {ks : RequestKeys}
    (h : ph'.keyState? = ph.keyState?)
    (hreplaying : ∀ {id}, ph' = .replaying id → ks.entries.get? k = some (.completed id)) :
    Turns k ph ph' ks ks :=
  ⟨fun _ => rfl, .inl ⟨h, rfl⟩, hreplaying⟩

/-- A claim turns to a free key, or tells of the entry. -/
theorem turns_claim (ks : RequestKeys) (k : RequestKey) :
    Turns k .unclaimed (Phase.unclaimed.after ⟨.claim k, (ks.claim k).1⟩) ks (ks.claim k).2 := by
  unfold RequestKeys.claim
  split
  · exact turns_same rfl fun h => by cases h
  · split
    · exact turns_same rfl fun h => by cases h
    · refine turns_same rfl fun h => ?_
      cases h
      assumption
    · refine ⟨fun hk => Table.get?_insert_of_ne _ _ hk, .inr ⟨‹_›, Table.get?_insert_self ..⟩,
        fun h => ?_⟩
      cases h

theorem turns_complete {ks : RequestKeys} {k : RequestKey} (id : OrderId)
    (h : ks.entries.get? k = some .inFlight) :
    Turns k .working (.bound id) ks (ks.complete k id).2 := by
  have hcomplete : ks.complete k id =
      (.ok (), { ks with entries := ks.entries.insert k (.completed id) }) := by
    simp [RequestKeys.complete, h]
  rw [hcomplete]
  refine ⟨fun hk => Table.get?_insert_of_ne _ _ hk, .inr ⟨h, Table.get?_insert_self ..⟩,
    fun h => ?_⟩
  cases h

theorem turns_release {ks : RequestKeys} {k : RequestKey}
    (h : ks.entries.get? k = some .inFlight) :
    Turns k .working .released ks (ks.release k) := by
  have hrelease : ks.release k = { ks with entries := ks.entries.erase k } := by
    simp [RequestKeys.release, h]
  rw [hrelease]
  refine ⟨fun hk => Table.get?_erase_of_ne _ hk, .inr ⟨h, Table.get?_erase_self ..⟩, fun h => ?_⟩
  cases h

/-- What an allowed call of a request makes of the keys. -/
theorem turns_answer {w : World} (hallowed : g.Allows r request)
    (hown : g.phase = .working → w.keys.entries.get? r.requestKey = some .inFlight)
    (hreplaying : ∀ {id}, g.phase = .replaying id →
      w.keys.entries.get? r.requestKey = some (.completed id)) :
    Turns r.requestKey g.phase (g.phase.after ⟨request, (World.answer request w).1⟩) w.keys
      (World.answer request w).2.keys := by
  rcases Progress.allows_cases hallowed with ⟨hphase, rfl⟩ | ⟨id, hphase, rfl⟩ | ⟨hphase, hworks⟩
  · rw [hphase]
    exact turns_claim w.keys r.requestKey
  · exact turns_same rfl hreplaying
  · have hget := hown hphase
    rw [hphase]
    cases request with
    | claim k => exact hworks.elim
    | complete k id =>
      obtain ⟨rfl, -⟩ := hworks
      exact turns_complete id hget
    | release k =>
      obtain ⟨rfl, -⟩ := hworks
      exact turns_release hget
    | _ => exact turns_same rfl fun h => by cases h

theorem Turns.completed {ph ph' : Phase} {ks ks' : RequestKeys} {k k' : RequestKey} {id : OrderId}
    (h : Turns k ph ph' ks ks') (hph : ph.keyState? ≠ some (.completed id))
    (hget : ks.entries.get? k' = some (.completed id)) :
    ks'.entries.get? k' = some (.completed id) := by
  by_cases hk : k' = k
  · subst hk
    rcases h.own with ⟨-, hsame⟩ | ⟨hentry, -⟩
    · exact hsame.trans hget
    · exact absurd (hentry.symm.trans hget) hph
  · exact (h.others hk).trans hget

theorem keyState?_ne_completed (hallowed : g.Allows r request) (id : OrderId) :
    g.phase.keyState? ≠ some (.completed id) := by
  rcases Progress.allows_cases hallowed with ⟨hphase, -⟩ | ⟨_, hphase, -⟩ | ⟨hphase, -⟩ <;>
    simp [hphase, Phase.keyState?]

/-! ## Entries and requests -/

/-- The request for an order that a command makes. -/
def Command.request? : Command → Option CreateRequest
  | .create _ _ r _ => some r
  | _ => none

theorem Command.protocol_of_request? {c : Command} (h : c.request? = some r) :
    c.protocol = creation r := by
  cases c <;> cases h
  rfl

theorem Command.ends_of_request? {c : Command} (h : c.request? = some r) {a : Answer}
    (hends : c.Ends a log) : r.Ends a log := by
  cases c <;> cases h
  exact hends

theorem Command.protocol_of_not_request {c : Command} (h : c.request? = none) :
    c.protocol = moving := by
  cases c <;> first | rfl | cases h

/-- The key with which a command asks for an order. -/
def Command.key? (c : Command) : Option RequestKey := c.request?.map CreateRequest.requestKey

/-- What a command has made of the entry of a key. -/
def entryOf (k : RequestKey) (t : Task Shop.calls Command Answer) : Option KeyState :=
  if t.job.key? = some k then (phase t.log).keyState? else none

theorem entryOf_eq {t : Task Shop.calls Command Answer} (h : t.job.request? = some r)
    (k : RequestKey) :
    entryOf k t = if r.requestKey = k then (phase t.log).keyState? else none := by
  simp [entryOf, Command.key?, h]

theorem entryOf_own {t : Task Shop.calls Command Answer} (h : t.job.request? = some r) :
    entryOf r.requestKey t = (phase t.log).keyState? := by
  rw [entryOf_eq h, if_pos rfl]

/-- The entry of every key is what the requests with that key have made of it, a replayed key is
bound, and every request has left little behind. -/
structure Keyed (s : Traffic) : Prop where
  entries : ∀ k, s.tasks.filterMap (entryOf k) = (s.stores.keys.entries.get? k).toList
  replaying : ∀ t ∈ s.tasks, ∀ {r id}, t.job.request? = some r → phase t.log = .replaying id →
    s.stores.keys.entries.get? r.requestKey = some (.completed id)
  tidy : ∀ t ∈ s.tasks, ∀ {r}, t.job.request? = some r → Tidy r (progress t.log) ∧ Claimed t.log

variable {w : World} {s : Traffic}

theorem keyed_init (h : w.keys.entries = ∅) : Keyed ⟨w, [], []⟩ where
  entries k := by
    rw [h, Table.get?_empty]
    rfl
  replaying := by simp
  tidy := by simp

/-- A command that starts has made nothing of any key. -/
theorem Keyed.start (a : Keyed s) (desk : HoldDesk) (c : Command) :
    Keyed { s with tasks := s.tasks ++ [(system desk).begun c] } where
  entries k := by
    have hnone : entryOf k ((system desk).begun c) = none := ite_self none
    rw [List.filterMap_append, a.entries]
    simp [hnone]
  replaying t ht r id hr hphase := by
    rcases List.mem_append.1 ht with ht | ht
    · exact a.replaying t ht hr hphase
    · rw [List.mem_singleton.1 ht] at hphase
      cases hphase
  tidy t ht r hr := by
    rcases List.mem_append.1 ht with ht | ht
    · exact a.tidy t ht hr
    · rw [List.mem_singleton.1 ht]
      exact ⟨tidy_nothing (fun id h => by cases h), by simp [System.begun], by simp [System.begun]⟩

theorem Keyed.disturb (a : Keyed s) (c : Change) :
    Keyed { s with stores := c.apply s.stores } where
  entries k := by
    refine (a.entries k).trans ?_
    cases c <;> rfl
  replaying t ht r id hr hphase := by
    refine Eq.trans ?_ (a.replaying t ht hr hphase)
    cases c <;> rfl
  tidy := a.tidy

/-- What a request has made of its key is the entry of the key. -/
theorem Keyed.get?_of_keyState? (a : Keyed s) {t : Task Shop.calls Command Answer}
    (ht : t ∈ s.tasks) (hr : t.job.request? = some r) {x : KeyState}
    (hx : (phase t.log).keyState? = some x) :
    s.stores.keys.entries.get? r.requestKey = some x := by
  have hmem : x ∈ s.tasks.filterMap (entryOf r.requestKey) :=
    List.mem_filterMap.2 ⟨t, ht, (entryOf_own hr).trans hx⟩
  rw [a.entries] at hmem
  exact Option.mem_toList.1 hmem

section Call

variable {before after : List (Task Shop.calls Command Answer)}
  {t : Task Shop.calls Command Answer} {trace : List (Exchange Shop.calls)}

/-- A call of a command that creates no order leaves the keys alone. -/
theorem Keyed.proceed_of_not_request (a : Keyed ⟨w, before ++ t :: after, trace⟩) (desk : HoldDesk)
    (hr : t.job.request? = none) (hallowed : moving.allows t.log request)
    (rest : Script Shop.calls Answer) :
    Keyed (.afterCall desk w before t after trace request rest) := by
  have hkeys : (World.answer request w).2.keys = w.keys := by
    cases request with
    | claim | complete | release => exact hallowed.elim
    | _ => rfl
  refine ⟨fun k => ?_, fun u hu r id hr' hphase => ?_, fun u hu r hr' => ?_⟩
  · refine filterMap_turn (a.entries k) (.inl ⟨?_, by rw [hkeys]⟩)
    simp [entryOf, Command.key?, hr]
  · rcases Task.mem_of_mem_tell hu with rfl | hu
    · cases hr.symm.trans hr'
    · rw [hkeys]
      exact a.replaying u hu hr' hphase
  · rcases Task.mem_of_mem_tell hu with rfl | hu
    · cases hr.symm.trans hr'
    · exact a.tidy u hu hr'

/-- A call of a request turns the entry of its key as it turns itself. -/
theorem Keyed.turns (a : Keyed s) (ht : t ∈ s.tasks) (hr : t.job.request? = some r)
    (hallowed : (progress t.log).Allows r request) :
    Turns r.requestKey (phase t.log)
      ((phase t.log).after ⟨request, (World.answer request s.stores).1⟩) s.stores.keys
      (World.answer request s.stores).2.keys := by
  refine turns_answer hallowed (fun hphase => ?_) (a.replaying t ht hr)
  refine a.get?_of_keyState? ht hr ?_
  rw [show phase t.log = .working from hphase]
  rfl

/-- A call of a request keeps the keys in order. -/
theorem Keyed.proceed_of_request (a : Keyed ⟨w, before ++ t :: after, trace⟩) (desk : HoldDesk)
    (hr : t.job.request? = some r) (hallowed : (progress t.log).Allows r request)
    (rest : Script Shop.calls Answer) :
    Keyed (.afterCall desk w before t after trace request rest) := by
  have hmem : t ∈ before ++ t :: after := by simp
  have hturns := a.turns hmem hr hallowed
  have hphase : phase (t.tell ((system desk).exchange request w) rest).log =
      (phase t.log).after ⟨request, (World.answer request w).1⟩ := phase_append ..
  refine ⟨fun k => filterMap_turn (a.entries k) ?_, fun u hu r' id hr' hu' => ?_,
    fun u hu r' hr' => ?_⟩
  · rw [entryOf_eq hr, entryOf_eq (t := t.tell _ _) hr, hphase]
    by_cases hk : r.requestKey = k
    · rw [if_pos hk, if_pos hk]
      subst hk
      exact hturns.own
    · rw [if_neg hk, if_neg hk]
      exact .inl ⟨rfl, hturns.others (Ne.symm hk)⟩
  · rcases Task.mem_of_mem_tell hu with rfl | hu
    · cases hr.symm.trans hr'
      rw [hphase] at hu'
      exact hturns.replaying hu'
    · exact hturns.completed (keyState?_ne_completed hallowed id) (a.replaying u hu hr' hu')
  · rcases Task.mem_of_mem_tell hu with rfl | hu
    · cases hr.symm.trans hr'
      obtain ⟨htidy, hclaimed⟩ := a.tidy t hmem hr
      refine ⟨?_, hclaimed.append hallowed _⟩
      rw [Task.log_tell, progress_append]
      exact htidy.after hallowed _
    · exact a.tidy u hu hr'

theorem Keyed.proceed (a : Keyed ⟨w, before ++ t :: after, trace⟩) (desk : HoldDesk)
    (hallowed : t.job.protocol.allows t.log request) (rest : Script Shop.calls Answer) :
    Keyed (.afterCall desk w before t after trace request rest) := by
  cases hr : t.job.request? with
  | none =>
    rw [Command.protocol_of_not_request hr] at hallowed
    exact a.proceed_of_not_request desk hr hallowed rest
  | some r =>
    rw [Command.protocol_of_request? hr] at hallowed
    exact a.proceed_of_request desk hr hallowed rest

end Call

/-! ## Requests with one key -/

namespace Traffic

variable (s : Traffic) (k : RequestKey)

def requests : List (Task Shop.calls Command Answer) := s.tasks.filter fun t => t.job.key? = some k

/-- The orders that the requests with a key have stored. -/
def ordersOf : List Order := (s.requests k).flatMap fun t => commits t.log

/-- The holds that the requests with a key have added and not taken back. -/
def holdsOf : List Hold := (s.requests k).flatMap fun t => kept t.log

/-- What the requests with a key have told. -/
def noticesOf : List Notice := (s.requests k).flatMap fun t => told t.log

end Traffic

/-- No request with a key has made anything of its entry, or just one has. -/
theorem Keyed.requests_cases (a : Keyed s) (k : RequestKey) :
    (s.stores.keys.entries.get? k = none ∧ ∀ t ∈ s.requests k, (phase t.log).keyState? = none) ∨
    ∃ before t after, s.requests k = before ++ t :: after ∧
      s.stores.keys.entries.get? k = (phase t.log).keyState? ∧ (phase t.log).keyState? ≠ none ∧
      (∀ u ∈ before, (phase u.log).keyState? = none) ∧
      ∀ u ∈ after, (phase u.log).keyState? = none := by
  have hentries : (s.requests k).filterMap (fun t => (phase t.log).keyState?) =
      (s.stores.keys.entries.get? k).toList := by
    rw [← a.entries, Traffic.requests, List.filterMap_filter]
    congr 1
    funext t
    simp [entryOf]
  cases hget : s.stores.keys.entries.get? k with
  | none =>
    rw [hget] at hentries
    exact .inl ⟨rfl, List.filterMap_eq_nil_iff.1 hentries⟩
  | some x =>
    rw [hget] at hentries
    obtain ⟨before, t, after, hsplit, hbefore, ht, hafter⟩ := List.filterMap_eq_cons_iff.1 hentries
    refine .inr ⟨before, t, after, hsplit, ht.symm, ?_, hbefore, ?_⟩
    · simp [ht]
    · exact List.filterMap_eq_nil_iff.1 hafter

theorem exists_request {t : Task Shop.calls Command Answer} {k : RequestKey}
    (ht : t ∈ s.requests k) : t ∈ s.tasks ∧ ∃ r, t.job.request? = some r ∧ r.requestKey = k := by
  obtain ⟨hmem, hkey⟩ := List.mem_filter.1 ht
  exact ⟨hmem, Option.map_eq_some_iff.1 (of_decide_eq_true hkey)⟩

/-- A request that has made nothing of its key has left nothing behind. -/
theorem Keyed.nothing (a : Keyed s) {t : Task Shop.calls Command Answer} {k : RequestKey}
    (ht : t ∈ s.requests k) (hnone : (phase t.log).keyState? = none) :
    commits t.log = [] ∧ kept t.log = [] ∧ told t.log = [] := by
  obtain ⟨hmem, r, hr, -⟩ := exists_request ht
  obtain ⟨htidy, -⟩ := a.tidy t hmem hr
  obtain ⟨hsaved, hheld⟩ := htidy.nothing hnone
  exact ⟨hsaved, hheld, htidy.told_eq_nil hsaved⟩

/-- All that the requests with a key have left behind is the work of one of them. -/
theorem Keyed.work_cases (a : Keyed s) (k : RequestKey) :
    (s.stores.keys.entries.get? k = none ∧ s.ordersOf k = [] ∧ s.holdsOf k = [] ∧
      s.noticesOf k = []) ∨
    ∃ t ∈ s.requests k, s.stores.keys.entries.get? k = (phase t.log).keyState? ∧
      s.ordersOf k = commits t.log ∧ s.holdsOf k = kept t.log ∧ s.noticesOf k = told t.log := by
  rcases a.requests_cases k with
    ⟨hget, hnone⟩ | ⟨before, t, after, hsplit, hget, -, hbefore, hafter⟩
  · refine .inl ⟨hget, ?_, ?_, ?_⟩ <;> refine List.flatMap_eq_nil_iff.2 fun t ht => ?_
    · exact (a.nothing ht (hnone t ht)).1
    · exact (a.nothing ht (hnone t ht)).2.1
    · exact (a.nothing ht (hnone t ht)).2.2
  · have hmem : ∀ u, u ∈ before ∨ u = t ∨ u ∈ after → u ∈ s.requests k := by
      intro u hu
      rw [hsplit]
      simpa using hu
    have hothers : ∀ u, u ∈ before ∨ u ∈ after →
        commits u.log = [] ∧ kept u.log = [] ∧ told u.log = [] := by
      intro u hu
      cases hu with
      | inl hu => exact a.nothing (hmem u (.inl hu)) (hbefore u hu)
      | inr hu => exact a.nothing (hmem u (.inr (.inr hu))) (hafter u hu)
    refine .inr ⟨t, hmem t (.inr (.inl rfl)), hget, ?_, ?_, ?_⟩
    · rw [Traffic.ordersOf, hsplit]
      exact flatMap_of_others (fun u hu => (hothers u (.inl hu)).1)
        fun u hu => (hothers u (.inr hu)).1
    · rw [Traffic.holdsOf, hsplit]
      exact flatMap_of_others (fun u hu => (hothers u (.inl hu)).2.1)
        fun u hu => (hothers u (.inr hu)).2.1
    · rw [Traffic.noticesOf, hsplit]
      exact flatMap_of_others (fun u hu => (hothers u (.inl hu)).2.2)
        fun u hu => (hothers u (.inr hu)).2.2

/-- A key that is bound to an order has made that order, for its user. -/
theorem Keyed.order_of_bound (a : Keyed s) {k : RequestKey} {id : OrderId}
    (h : s.stores.keys.entries.get? k = some (.completed id)) :
    ∃ t ∈ s.tasks, ∃ o ∈ commits t.log, s.ordersOf k = [o] ∧ o.id = id ∧ o.user = k.user := by
  rcases a.work_cases k with ⟨hnone, -⟩ | ⟨t, ht, hget, horders, -⟩
  · cases h.symm.trans hnone
  · obtain ⟨hmem, r, hr, rfl⟩ := exists_request ht
    obtain ⟨htidy, -⟩ := a.tidy t hmem hr
    have hbound : phase t.log = .bound id := by
      have hentry := hget.symm.trans h
      cases hphase : phase t.log <;> simp_all [Phase.keyState?]
    obtain ⟨o, ho, hid⟩ := List.map_eq_singleton_iff.1 (htidy.bound hbound)
    have hcommits : commits t.log = [o] := ho
    refine ⟨t, hmem, o, by simp [hcommits], horders.trans hcommits, hid, ?_⟩
    exact htidy.user o (by simp [ho])

/-! ## Schedules -/

/-- Every schedule keeps the keys in order. -/
theorem keyed_run (h : w.keys.entries = ∅) (desk : HoldDesk) (acts : List (Act Command Change)) :
    Keyed ((system desk).run ⟨w, [], []⟩ acts) :=
  (System.run_obeys rfl (keyed_init h) (fun c _ => c.obeys desk)
    (fun _ c _ a => a.start desk c)
    (fun _ _ t _ _ _ _ _ hallowed a => ⟨t.job.expects _, a.proceed desk hallowed _⟩)
    (fun _ c _ a => a.disturb c)).1

/-- What the requests with one key have come to. -/
structure Once (s : Traffic) (k : RequestKey) : Prop where
  working : ((s.requests k).filter fun t => phase t.log = .working).length ≤ 1
  orders : (s.ordersOf k).length ≤ 1
  holds : (s.holdsOf k).length ≤ 1
  notices : s.noticesOf k <+:
    (s.ordersOf k).flatMap fun o => .created o :: (Notice.reserved? o).toList
  answers : ∀ t ∈ s.requests k, ∀ o, t.result? = some (.order (.ok o)) →
    o.user = k.user ∧ (s.ordersOf k).map Order.id = [o.id]
  refusals : ∀ t ∈ s.requests k, ⟨.claim k, .ok .inFlight⟩ ∈ t.log →
    t.result? = some (.order (.error (.duplicateRequest k.text)))

theorem Keyed.length_working_le (a : Keyed s) (k : RequestKey) :
    ((s.requests k).filter fun t => phase t.log = .working).length ≤ 1 := by
  have idle : ∀ {l : List (Task Shop.calls Command Answer)},
      (∀ t ∈ l, (phase t.log).keyState? = none) →
      (l.filter fun t => phase t.log = .working) = [] := by
    intro l hl
    refine List.filter_eq_nil_iff.2 fun t ht hworking => ?_
    have hnone := hl t ht
    rw [of_decide_eq_true hworking] at hnone
    cases hnone
  rcases a.requests_cases k with ⟨-, hnone⟩ | ⟨before, t, after, hsplit, -, -, hbefore, hafter⟩
  · rw [idle hnone]
    exact Nat.zero_le 1
  · rw [hsplit, List.filter_append, List.filter_cons, idle hbefore, idle hafter]
    split
    · exact Nat.le_refl 1
    · exact Nat.zero_le 1

/-- A request that was told that its key is in use has failed for that. -/
theorem Keyed.result_of_taken (a : Keyed s) {t : Task Shop.calls Command Answer} {k : RequestKey}
    (ht : t ∈ s.requests k) (hobeys : t.script.Obeys t.job.protocol t.job.Ends t.log)
    (hclaim : ⟨.claim k, .ok .inFlight⟩ ∈ t.log) :
    t.result? = some (.order (.error (.duplicateRequest k.text))) := by
  obtain ⟨hmem, r, hr, rfl⟩ := exists_request ht
  have hphase : phase t.log = .taken := (a.tidy t hmem hr).2.follows hclaim
  cases hs : t.script with
  | call request next =>
    rw [hs, Command.protocol_of_request? hr] at hobeys
    have hallowed : (progress t.log).Allows r request := hobeys.1
    unfold Progress.Allows at hallowed
    rw [show (progress t.log).phase = .taken from hphase] at hallowed
    exact hallowed.elim
  | done answer =>
    rw [hs, Script.obeys_done] at hobeys
    rw [(Command.ends_of_request? hr hobeys).eq_of_taken hphase] at hs
    simp [Task.result?, hs, CreateRequest.requestKey]

/-- All that is answered for a key is the order that the key has made, and it is the user's. -/
theorem Keyed.answered (a : Keyed s) (b : Recorded s)
    (hperm : (commits s.trace).Perm (s.tasks.flatMap fun t => commits t.log))
    {t : Task Shop.calls Command Answer} {k : RequestKey} (ht : t ∈ s.requests k)
    (hobeys : t.script.Obeys t.job.protocol t.job.Ends t.log) {o : Order}
    (hresult : t.result? = some (.order (.ok o))) :
    o.user = k.user ∧ (s.ordersOf k).map Order.id = [o.id] := by
  obtain ⟨hmem, r, hr, rfl⟩ := exists_request ht
  rw [Task.script_of_result? hresult, Script.obeys_done] at hobeys
  cases Command.ends_of_request? hr hobeys with
  | made hs ns hg =>
    have hphase : phase t.log = .bound o.id := congrArg Progress.phase hg
    have hget := a.get?_of_keyState? hmem hr (x := .completed o.id) (by rw [hphase]; rfl)
    obtain ⟨_, -, made, -, horders, hid, -⟩ := a.order_of_bound hget
    refine ⟨(a.tidy t hmem hr).1.user o ?_, by simp [horders, hid]⟩
    simp [hg]
  | replayed id hg hloaded =>
    have hphase : phase t.log = .replaying id := congrArg Progress.phase hg
    obtain ⟨u, hu, made, hmade, horders, rfl, huser⟩ :=
      a.order_of_bound (a.replaying t hmem hr hphase)
    have hvalue := b.loaded t hmem hloaded
    have hfirst : made ∈ Service.history s.trace made.id := by
      refine List.mem_filter.2 ⟨hperm.mem_iff.2 ?_, by simp⟩
      exact List.mem_flatMap.2 ⟨u, hu, hmade⟩
    refine ⟨?_, by simp [horders, id_of_mem_history hvalue]⟩
    rw [← huser]
    exact ((b.history made.id).samePlacement_of_mem hfirst hvalue).user

/-! ## Steps of requests -/

/-- What the requests with a key have come to, when all commands have kept to their protocols. -/
theorem Keyed.once (a : Keyed s) (b : Recorded s)
    (hperm : (commits s.trace).Perm (s.tasks.flatMap fun t => commits t.log))
    (hobeys : ∀ t ∈ s.tasks, t.script.Obeys t.job.protocol t.job.Ends t.log) (k : RequestKey) :
    Once s k := by
  have hall : (s.ordersOf k).length ≤ 1 ∧ (s.holdsOf k).length ≤ 1 ∧ s.noticesOf k <+:
      (s.ordersOf k).flatMap fun o => .created o :: (Notice.reserved? o).toList := by
    rcases a.work_cases k with
      ⟨-, horders, hholds, hnotices⟩ | ⟨t, ht, -, horders, hholds, hnotices⟩
    · simp [horders, hholds, hnotices]
    · obtain ⟨hmem, r, hr, -⟩ := exists_request ht
      obtain ⟨htidy, -⟩ := a.tidy t hmem hr
      rw [horders, hholds, hnotices]
      exact ⟨htidy.saved, htidy.held, htidy.told⟩
  refine ⟨a.length_working_le k, hall.1, hall.2.1, hall.2.2, fun t ht o => ?_, fun t ht => ?_⟩
  · exact a.answered b hperm ht (hobeys t (exists_request ht).1)
  · exact a.result_of_taken ht (hobeys t (exists_request ht).1)

/-- What one step of a request does to the world. -/
theorem Keyed.step {desk : HoldDesk} {i : Nat} (a : Keyed s)
    (hobeys : ∀ t ∈ s.tasks, t.script.Obeys t.job.protocol t.job.Ends t.log)
    (a' : Keyed ((system desk).proceed s i))
    (hobeys' : ∀ t ∈ ((system desk).proceed s i).tasks,
      t.script.Obeys t.job.protocol t.job.Ends t.log)
    {t : Task Shop.calls Command Answer} (ht : ((system desk).proceed s i).tasks[i]? = some t)
    (hr : t.job.request? = some r) :
    (∀ reply, ⟨.claim r.requestKey, reply⟩ ∈ t.log → reply ≠ .ok .acquired →
      ((system desk).proceed s i).stores = s.stores) ∧
    ∀ e, s.tasks[i]?.any Task.isRunning = true → ⟨.claim r.requestKey, .ok .acquired⟩ ∈ t.log →
      t.result? = some (.order (.error e)) →
      ((system desk).proceed s i).stores.keys.entries.get? r.requestKey = none := by
  have ht' := List.mem_of_getElem? ht
  rcases (system desk).proceed_task ht with
    ⟨hsame, hget, hended⟩ | ⟨t₀, request, next, hget, hcall, rfl, hstores⟩
  · refine ⟨fun _ _ _ => by rw [hsame], fun e hrunning => ?_⟩
    simp [hget, hended] at hrunning
  · have hr : t₀.job.request? = some r := hr
    have hmem := List.mem_of_getElem? hget
    have hbefore := hobeys t₀ hmem
    rw [hcall, Command.protocol_of_request? hr] at hbefore
    have hallowed : (progress t₀.log).Allows r request := hbefore.1
    have hclaimed := (a.tidy t₀ hmem hr).2
    rw [hstores]
    refine ⟨fun reply hclaim hreply => hclaimed.answer_eq_self hallowed hclaim hreply, ?_⟩
    intro e _ hclaim hresult
    have hends := hobeys' _ ht'
    rw [Task.script_of_result? hresult, Script.obeys_done] at hends
    have hreleased := (Command.ends_of_request? hr hends).phase_of_error
      ((a'.tidy _ ht' hr).2.follows hclaim)
    rw [Task.log_tell, phase_append] at hreleased
    obtain ⟨hworking, rfl⟩ := release_of_released hallowed hreleased
    have hkey := a.get?_of_keyState? hmem hr (x := .inFlight)
      (by rw [show phase t₀.log = .working from hworking]; rfl)
    exact ((turns_release hkey).own.resolve_left (by simp [Phase.keyState?])).2

/-- **A key makes at most one order.** Whatever commands run at the same time in a world that had
no orders and no keys, of the requests with one key at most one works at a time, and at most one
order, one hold and one pair of notices come from all of them. Every order that is answered for the
key is that one and belongs to the key's user. A request that did not acquire the key changes
nothing, and one that did and failed leaves it free. -/
theorem creation_is_idempotent (horders : w.book.orders = ∅) (hkeys : w.keys.entries = ∅)
    (desk : HoldDesk) (acts : List (Act Command Change)) (k : RequestKey) :
    let s := (system desk).run ⟨w, [], []⟩ acts
    Once s k ∧ ∀ i t,
      let s' := (system desk).act s (.proceed i)
      s'.tasks[i]? = some t → t.job.key? = some k →
      (∀ reply, ⟨.claim k, reply⟩ ∈ t.log → reply ≠ .ok .acquired → s'.stores = s.stores) ∧
      (∀ e, s.tasks[i]?.any Task.isRunning = true → ⟨.claim k, .ok .acquired⟩ ∈ t.log →
        t.result? = some (.order (.error e)) →
        (({ s'.stores.keys with failing := false } : RequestKeys).claim k).1 = .ok .acquired) := by
  intro s
  obtain ⟨b, hobeys⟩ := recorded_run horders desk acts
  have a := keyed_run hkeys desk acts
  have hperm := (System.trace_perm (system desk) ⟨w, [], []⟩ acts .rfl).filterMap stored?
  rw [List.filterMap_flatMap] at hperm
  refine ⟨a.once b hperm hobeys k, ?_⟩
  intro i t s' ht hk
  have hrun : (system desk).run ⟨w, [], []⟩ (acts ++ [.proceed i]) = s' :=
    (system desk).run_append ⟨w, [], []⟩ acts [.proceed i]
  have hobeys' := (recorded_run horders desk (acts ++ [.proceed i])).2
  have a' := keyed_run hkeys desk (acts ++ [.proceed i])
  rw [hrun] at hobeys' a'
  obtain ⟨r, hr, rfl⟩ := Option.map_eq_some_iff.1 hk
  obtain ⟨hsame, hfree⟩ := a.step hobeys a' hobeys' ht hr
  refine ⟨hsame, fun e hrunning hclaim hresult => ?_⟩
  have hnone : s'.stores.keys.entries.get? r.requestKey = none := hfree e hrunning hclaim hresult
  simp [RequestKeys.claim, hnone]

/-- A request is made three times. The second time its key is in use, the third time it is bound. -/
def keyRace : List (Act Command Change) :=
  .start (.create (.ofNat 10) (.ofMinutes 15) twoWidgets ⟨⟨.ofNat 2⟩, ⟨"first"⟩, 0⟩) ::
    .start (.create (.ofNat 10) (.ofMinutes 15) twoWidgets ⟨⟨.ofNat 3⟩, ⟨"second"⟩, 1⟩) ::
    .proceed 0 :: .proceed 1 :: List.replicate 15 (.proceed 0) ++
    [.start (.create (.ofNat 10) (.ofMinutes 15) twoWidgets ⟨⟨.ofNat 4⟩, ⟨"third"⟩, 2⟩),
      .proceed 2, .proceed 2]

/-- All requests have ended, and there is one order. -/
theorem creation_is_idempotent_in_race :
    widgetShop.book.orders = ∅ ∧ widgetShop.keys.entries = ∅ ∧
      let s : Traffic := (system .direct).run ⟨widgetShop, [], []⟩ keyRace
      s.tasks.map (fun t => (t.isRunning, phase t.log)) =
          [(false, .bound ⟨.ofNat 2⟩), (false, .taken), (false, .replaying ⟨.ofNat 2⟩)] ∧
        (s.ordersOf twoWidgets.requestKey).map Order.id = [⟨.ofNat 2⟩] ∧
        Once s twoWidgets.requestKey := by
  have horders : widgetShop.book.orders = ∅ := rfl
  have hkeys : widgetShop.keys.entries = ∅ := rfl
  exact ⟨horders, hkeys, by decide +kernel, by decide +kernel,
    (creation_is_idempotent horders hkeys .direct keyRace _).1⟩

end Service
end Fulfilment
