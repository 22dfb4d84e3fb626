import Fulfilment.Proofs.Service.Change

/-!
# The audit trail

Every command records on its own what it changes, some of them several changes at once. Read for one
order, oldest entry first, the trail is nevertheless one chain (`AuditTrail.Recounts`): it begins
where there is no status yet, each entry starts from the status that the one before it led to, and
it ends at the status that is stored. A finding that stock is missing leads from a status to itself.
-/
namespace Fulfilment

open Script Operation Relation Service

namespace AuditTrail

/-- The entries lead from one status to another, each from where the one before it led. Before an
order is created it has no status. -/
def Recounts : Option Status → List AuditEntry → Option Status → Prop
  | s, [], s' => s = s'
  | s, e :: es, s' => e.source = s ∧ Recounts (some e.target) es s'

variable {s m s' : Option Status} {es es' : List AuditEntry}

theorem Recounts.append (h : Recounts s es m) (h' : Recounts m es' s') :
    Recounts s (es ++ es') s' := by
  induction es generalizing s with
  | nil =>
    have heq : s = m := h
    rw [heq]
    exact h'
  | cons e es ih => exact ⟨h.1, ih h.2⟩

theorem Recounts.source_ne_none {status : Status} (h : Recounts (some status) es s') :
    ∀ e ∈ es, e.source ≠ none := by
  induction es generalizing status with
  | nil => simp
  | cons e es ih =>
    intro x hx
    rcases List.mem_cons.1 hx with rfl | hx
    · rw [h.1]
      exact Option.some_ne_none _
    · exact ih h.2 x hx

theorem Recounts.isChain {e : AuditEntry} (h : Recounts (some e.target) es s') :
    (e :: es).IsChain (fun x y => y.source = some x.target) ∧
      (e :: es).getLast?.map AuditEntry.target = s' := by
  induction es generalizing e with
  | nil => exact ⟨.singleton e, h⟩
  | cons e' es ih =>
    obtain ⟨hchain, hlast⟩ := ih h.2
    refine ⟨hchain.cons_cons h.1, ?_⟩
    rw [List.getLast?_cons_cons]
    exact hlast

theorem about_recordAll {a : AuditTrail} (ha : a.failing = false) (es : List AuditEntry)
    (id : OrderId) :
    (a.recordAll es).about id = a.about id ++ es.filter fun e => e.order = id := by
  rw [about, (recordAll_of_recording ha es).2, List.filter_append, about]

/-- Entries that are all of one order are recorded for it and for no other. -/
theorem about_recordAll_of {a : AuditTrail} (ha : a.failing = false) {es : List AuditEntry}
    {own : OrderId} (hown : ∀ e ∈ es, e.order = own) (id : OrderId) :
    (a.recordAll es).about id = if own = id then a.about id ++ es else a.about id := by
  rw [about_recordAll ha]
  by_cases hid : own = id
  · subst hid
    rw [if_pos rfl, List.filter_eq_self.2 (by simpa using hown)]
  · have hother : ∀ e ∈ es, ¬ e.order = id := by
      intro e he heq
      exact hid ((hown e he).symm.trans heq)
    rw [if_neg hid, List.filter_eq_nil_iff.2 (by simpa using hother), List.append_nil]

end AuditTrail

open AuditTrail

/-! ## What is recorded of a change -/

namespace Order

variable {o next last : Order} {now : Instant} {as : List (Action × Instant)}
  {ts : List Transition}

/-- Accepted actions that are recorded one by one lead from the order's status to the last. -/
theorem recounts_of_transitionAll (h : o.transitionAll as = .ok (last, ts))
    (entry : Transition → AuditEntry) (hsource : ∀ t, (entry t).source = some t.source)
    (htarget : ∀ t, (entry t).target = t.target) :
    Recounts (some o.status) (ts.map entry) (some last.status) := by
  induction as generalizing o ts with
  | nil =>
    cases h
    rfl
  | cons first rest ih =>
    obtain ⟨next, t, ts', hfirst, hrest, rfl⟩ := transitionAll_cons h
    obtain ⟨e, -, -, rfl⟩ := accepts_of_transition hfirst
    refine ⟨hsource _, ?_⟩
    rw [htarget]
    exact ih hrest

/-- The entry of one accepted action leads from the order's status to the next. -/
theorem recounts_of_transition {act : Action} {t : Transition}
    (h : o.transition act now = .ok (next, t)) (id : OrderId) (name actor : String)
    (recordedAt : Instant) (detail : Option String) :
    Recounts (some o.status) [.ofTransition id name t actor recordedAt detail]
      (some next.status) :=
  recounts_of_transitionAll (transitionAll_singleton h)
    (fun t => .ofTransition id name t actor recordedAt detail) (fun _ => rfl) fun _ => rfl

/-- The entries of a reaction lead from the order's status to the next. -/
theorem recounts_of_react {s : Signal} {a : Applied} (h : o.react s now = .ok (.apply a))
    (recordedAt : Instant) :
    Recounts (some o.status) (a.transitions.map fun t => Saga.auditEntry s a.order t recordedAt)
      (some a.order.status) := by
  rcases react_cases h with ⟨act, t, -, ht, hts, -⟩ | ⟨payment, hall, -⟩
  · rw [hts]
    exact recounts_of_transitionAll (transitionAll_singleton ht) _ (fun _ => rfl) fun _ => rfl
  · exact recounts_of_transitionAll hall _ (fun _ => rfl) fun _ => rfl

end Order

/-- What is found missing leaves an order in its status. -/
theorem FollowUp.recounts_findings (f : FollowUp) (o : Order) (now : Instant) (l : Ledger) :
    Recounts (some o.status) (f.findings o now l) (some o.status) := by
  cases f with
  | leave | release => rfl
  | settle id =>
    rw [findings]
    split
    · rfl
    · exact ⟨rfl, rfl⟩

theorem FollowUp.order_of_mem_findings {f : FollowUp} {o : Order} {now : Instant} {l : Ledger}
    {e : AuditEntry} (he : e ∈ f.findings o now l) : e.order = o.id := by
  cases f with
  | leave | release => cases he
  | settle id =>
    rw [findings] at he
    split at he
    · cases he
    · rw [List.mem_singleton.1 he, Saga.missingHoldEntry]

namespace Service

variable {now : Instant} {o : Order} {c : Changed}

/-- The entries of a move lead from the order's status to that of the changed order. -/
theorem Moves.recounts (h : Moves now o c) :
    Recounts (some o.status) c.entries (some c.order.status) := by
  cases h with
  | cancelled _ _ _ _ accepted | refunded _ _ _ _ accepted | requested _ accepted
  | timedOut _ accepted => exact Order.recounts_of_transition accepted ..
  | reacted reacts => exact Order.recounts_of_react reacts now

theorem Moves.order_of_mem (h : Moves now o c) {e : AuditEntry} (he : e ∈ c.entries) :
    e.order = c.order.id := by
  cases h with
  | cancelled | refunded | requested | timedOut =>
    rw [List.mem_singleton.1 he, AuditEntry.ofTransition]
  | reacted =>
    obtain ⟨t, -, rfl⟩ := List.mem_map.1 he
    rfl

end Service

/-! ## The trail of one order -/

variable {w w' : World} {id : OrderId} {o : Order}

/-- The trail tells one order's whole life so far: nothing before it is created, and from then on
how it came to the status that is stored. -/
structure World.Tells (w : World) (id : OrderId) : Prop where
  kept : w.book.WellKept
  recording : w.trail.failing = false
  recounts : Recounts none (w.trail.about id) ((w.book.get? id).map Order.status)
  origin : ∀ e ∈ w.trail.about id, e.source = none → e.target = .created

namespace World.Tells

/-- The trail goes on telling if the entries of a stored order lead from where it was to where it
is, and none begins without a status but that of its creation. -/
theorem store (h : w.Tells id) (es : List AuditEntry) (hversion : 0 ≤ o.version)
    (hbook : w'.book = w.book.store o) (htrail : w'.trail = w.trail.recordAll es)
    (hown : ∀ e ∈ es, e.order = o.id)
    (hrecounts : Recounts ((w.book.get? o.id).map Order.status) es (some o.status))
    (horigin : ∀ e ∈ es, e.source = none → e.target = .created) : w'.Tells id := by
  have habout := about_recordAll_of h.recording hown id
  have hget := OrderBook.get?_store w.book o id
  rw [← htrail] at habout
  rw [← hbook] at hget
  have hkept' : w'.book.WellKept := by
    rw [hbook]
    exact h.kept.store hversion
  have hrecording : w'.trail.failing = false := by
    rw [htrail]
    exact (recordAll_of_recording h.recording es).1
  by_cases hid : o.id = id
  · subst hid
    rw [if_pos rfl] at habout hget
    refine ⟨hkept', hrecording, ?_, ?_⟩
    · rw [habout, hget]
      exact h.recounts.append hrecounts
    · intro e he
      rw [habout] at he
      rcases List.mem_append.1 he with he | he
      · exact h.origin e he
      · exact horigin e he
  · rw [if_neg hid] at habout
    rw [if_neg (Ne.symm hid)] at hget
    refine ⟨hkept', hrecording, ?_, ?_⟩
    · rw [habout, hget]
      exact h.recounts
    · rw [habout]
      exact h.origin

theorem step (h : w.Tells id) (hstep : w.Step w') : w'.Tells id := by
  cases hstep with
  | @moved o c stored moves accepted =>
    have hentries := moves.recounts.append
      (c.followUp.recounts_findings c.order w.clock w.ledger)
    have hversion : 0 ≤ c.order.version := by
      rw [moves.version]
      exact Int.le_of_lt (h.kept _ _ stored).2
    refine h.store _ hversion rfl rfl ?_ ?_ ?_
    · intro e he
      rcases List.mem_append.1 he with he | he
      · exact moves.order_of_mem he
      · exact FollowUp.order_of_mem_findings he
    · rw [moves.samePlacement.id, stored]
      exact hentries
    · intro e he hsource
      exact absurd hsource (hentries.source_ne_none e he)

theorem creates {budget : RetryBudget} {ttl : Span} {r : CreateRequest} {draw : Draw}
    (h : w.Tells id) (hcreates : Creates budget ttl r draw w w') : w'.Tells id := by
  cases hcreates with
  | refused | unreserved | stopped | unsaved => exact ⟨h.kept, h.recording, h.recounts, h.origin⟩
  | @created held l keys placeable reserves accepted =>
    have hnew : w.book.get? (r.creation draw held w.clock).order.id = none :=
      OrderBook.get?_eq_none_of_new accepted rfl
    refine h.store (r.creation draw held w.clock).entries (Int.le_refl 0) rfl rfl ?_ ?_ ?_
    · simp [CreateRequest.creation, CreateRequest.reserved, AuditEntry.ofTransition,
        Order.apply, Order.ofRequest, CreateRequest.newOrder]
    · rw [hnew]
      exact ⟨rfl, rfl, rfl⟩
    · simp [CreateRequest.creation, AuditEntry.ofTransition]

theorem command (h : w.Tells id) (c : Command) :
    (c.script .direct).Yields World.answer (fun _ w' => w'.Tells id) w :=
  c.keeps (motive := fun w => w.Tells id) kept step creates h

theorem perform (h : w.Tells id) (d : Deed) : (d.perform w).Tells id := by
  cases d with
  | command c => exact h.command c
  | _ => exact ⟨h.kept, h.recording, h.recounts, h.origin⟩

theorem after (h : w.Tells id) (ds : List Deed) : (w.after ds).Tells id := by
  induction ds generalizing w with
  | nil => exact h
  | cons d ds ih => exact ih (h.perform d)

end World.Tells

/--
The audit trail is complete.

Whatever happens to a shop whose audit trail can be written, the entries of an order that is created
meanwhile are a chain: the first has no status to start from and leads to the creation, each other
starts from where the one before it led, and the last leads to the status that is stored. Nothing is
assumed of the stock, of the store, of saving or publishing, or of the identifiers that are drawn;
only that nothing was stored or recorded under the order's id before.
-/
theorem audit_trail_is_complete {w : World} (hkept : w.book.WellKept)
    (hrecording : w.trail.failing = false) (ds : List Deed) {id : OrderId} {o : Order}
    (hnew : w.book.get? id = none) (hsilent : w.trail.about id = [])
    (ho : (w.after ds).book.get? id = some o) :
    ∃ first rest, (w.after ds).trail.about id = first :: rest ∧
      first.source = none ∧ first.target = .created ∧
      (first :: rest).IsChain (fun e e' => e'.source = some e.target) ∧
      (first :: rest).getLast?.map AuditEntry.target = some o.status := by
  have hbefore : w.Tells id := by
    refine ⟨hkept, hrecording, ?_, ?_⟩
    · rw [hsilent, hnew]
      rfl
    · simp [hsilent]
  have htells := hbefore.after ds
  have hrecounts := htells.recounts
  rw [ho] at hrecounts
  cases habout : (w.after ds).trail.about id with
  | nil =>
    rw [habout] at hrecounts
    cases hrecounts
  | cons first rest =>
    rw [habout] at hrecounts
    obtain ⟨hsource, hrest⟩ := hrecounts
    have hfirst : first ∈ (w.after ds).trail.about id := by
      rw [habout]
      exact List.mem_cons_self
    obtain ⟨hchain, hlast⟩ := hrest.isChain
    exact ⟨first, rest, rfl, hsource, htells.origin first hfirst hsource, hchain, hlast⟩

/-- The order of two widgets is created, reserved, linked to its payment, paid and prepared, and
recorded as short of stock: six entries, of which the last leads to the status that it has. -/
theorem audit_trail_of_widget_sales :
    let w := widgetShop.after widgetSales
    ∃ o first rest, w.book.get? ⟨.ofNat 2⟩ = some o ∧ o.status = .preparing ∧
      w.trail.about ⟨.ofNat 2⟩ = first :: rest ∧ rest.length = 5 ∧
      first.source = none ∧ first.target = .created ∧
      (first :: rest).IsChain (fun e e' => e'.source = some e.target) ∧
      (first :: rest).getLast?.map AuditEntry.target = some o.status := by
  have hstatus : ((widgetShop.after widgetSales).book.get? ⟨.ofNat 2⟩).map Order.status =
      some .preparing := by decide +kernel
  have hlength : ((widgetShop.after widgetSales).trail.about ⟨.ofNat 2⟩).length = 6 := by
    decide +kernel
  obtain ⟨o, ho, hpreparing⟩ := Option.map_eq_some_iff.1 hstatus
  obtain ⟨first, rest, habout, hchain⟩ := audit_trail_is_complete
    (OrderBook.wellKept_of_empty rfl) rfl widgetSales (w := widgetShop) rfl rfl ho
  refine ⟨o, first, rest, ho, hpreparing, habout, ?_, hchain⟩
  rw [habout, List.length_cons] at hlength
  omega

end Fulfilment
