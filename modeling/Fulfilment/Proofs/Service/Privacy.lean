import Fulfilment.Proofs.Service.Change
import Fulfilment.Proofs.SideBySide

/-!
# What customers see of each other

Customers name orders by their ids, also those of others. Two worlds that differ in orders of others
only (`World.AlikeFor`) answer a customer alike and stay alike, and in each of them nothing is
written about an order that is not the customer's own (`World.Spares`). Each request keeps both
(`Discreet`), because every request checks the owner before it looks at anything else of an order,
and a list is made of own orders only. The numbers that are taken may differ between the worlds,
since a customer's requests save no order for the first time.
-/
namespace Fulfilment

open Script Operation

/-! ## Books that differ in orders of others -/

namespace OrderBook

/-- Every order is stored under its own id. -/
def Filed (b : OrderBook) : Prop := ∀ id o, b.get? id = some o → o.id = id

theorem WellKept.filed {b : OrderBook} (h : b.WellKept) : b.Filed := fun id o ho => (h id o ho).1

/-- There is such an order and it is the user's. -/
def Owns (b : OrderBook) (user : UserId) (id : OrderId) : Prop :=
  ∃ o, b.get? id = some o ∧ o.user = user

/-- The books have orders under the same ids, and each is the same order or, in both, one of another
user. -/
structure AlikeFor (user : UserId) (b b' : OrderBook) : Prop where
  orders : ∀ id, Option.Rel (fun o o' => o = o' ∨ o.user ≠ user ∧ o'.user ≠ user)
    (b.get? id) (b'.get? id)
  failing : b.failing = b'.failing

variable {user : UserId} {b b' : OrderBook} {o next : Order}

theorem Filed.save (h : b.Filed) (o : Order) : (b.save o).2.Filed := by
  rw [OrderBook.save]
  cases b.objection o with
  | some e => exact h
  | none =>
    intro id x hx
    rw [get?_store] at hx
    split at hx
    · next hid =>
      cases hx
      exact hid.symm
    · exact h id x hx

/-- An order of the user that one of the books has, the other one has. -/
theorem AlikeFor.get?_eq (h : b.AlikeFor user b') {id : OrderId} (ho : b.get? id = some o)
    (hown : o.user = user) : b'.get? id = some o := by
  have hrel := h.orders id
  rw [ho] at hrel
  generalize b'.get? id = x at hrel
  cases hrel with
  | some hor =>
    rcases hor with rfl | ⟨hforeign, -⟩
    · rfl
    · exact absurd hown hforeign

theorem AlikeFor.owns (h : b.AlikeFor user b') {id : OrderId} (hown : b.Owns user id) :
    b'.Owns user id := by
  obtain ⟨o, ho, huser⟩ := hown
  exact ⟨o, h.get?_eq ho huser, huser⟩

theorem AlikeFor.objection_eq (h : b.AlikeFor user b') (ho : b.get? next.id = some o)
    (hown : o.user = user) : b'.objection next = b.objection next := by
  rw [objection, objection, h.get?_eq ho hown, ho, h.failing]

theorem AlikeFor.store (h : b.AlikeFor user b') (o : Order) :
    (b.store o).AlikeFor user (b'.store o) := by
  refine ⟨fun id => ?_, h.failing⟩
  rw [get?_store, get?_store]
  split
  · exact .some (.inl rfl)
  · exact h.orders id

/-- An order of the user is saved in both books, or refused alike. -/
theorem AlikeFor.save (h : b.AlikeFor user b') (hown : b.Owns user next.id) :
    (b.save next).1 = (b'.save next).1 ∧ (b.save next).2.AlikeFor user (b'.save next).2 := by
  obtain ⟨o, ho, huser⟩ := hown
  rw [OrderBook.save, OrderBook.save, h.objection_eq ho huser]
  cases b.objection next with
  | some e => exact ⟨rfl, h⟩
  | none => exact ⟨rfl, h.store next⟩

/-- Both books list the same orders of the user. -/
theorem AlikeFor.ofUser_eq (h : b.AlikeFor user b') (status : Option Status) :
    b'.ofUser user status = b.ofUser user status := by
  have hsame : ∀ p : Order → Bool, (∀ o, p o = true → o.user = user) →
      b'.orders.values.filter p = b.orders.values.filter p := by
    intro p hp
    rw [← Table.values_filter, ← Table.values_filter]
    congr 1
    refine Table.ext_get? fun id => ?_
    rw [Table.get?_filter, Table.get?_filter]
    have hforeign : ∀ o : Order, o.user ≠ user → p o = false := fun o ho =>
      Bool.eq_false_iff.2 fun hpass => ho (hp o hpass)
    have hrel := h.orders id
    change Option.filter p (b'.get? id) = Option.filter p (b.get? id)
    generalize b.get? id = x, b'.get? id = x' at hrel
    cases hrel with
    | none => rfl
    | some hor =>
      rcases hor with rfl | ⟨ho, ho'⟩
      · rfl
      · rw [Option.filter_some, Option.filter_some, hforeign _ ho, hforeign _ ho']
        rfl
  rw [ofUser, ofUser, hsame]
  intro o ho
  exact of_decide_eq_true (Bool.and_eq_true_iff.1 ho).1

end OrderBook

/-! ## Worlds that differ in orders of others -/

namespace World

variable {user : UserId} {w w' w₁ w₂ : World} {id : OrderId}

/-- The worlds are one and the same but for the orders of other users, and for which numbers are
taken. -/
structure AlikeFor (user : UserId) (w w' : World) : Prop where
  book : w.book.AlikeFor user w'.book
  rest : w' = { w with book := w'.book }

/-- From one world to the other, nothing was changed or written but about orders of the user, which
are still the user's. -/
structure Spares (user : UserId) (w w' : World) : Prop where
  owns_iff : ∀ id, w'.book.Owns user id ↔ w.book.Owns user id
  orders : ∀ id, ¬ w.book.Owns user id → w'.book.get? id = w.book.get? id
  entries : ∃ es, w'.trail.entries = w.trail.entries ++ es ∧ ∀ e ∈ es, w.book.Owns user e.order
  notices : ∃ ns, w'.outbox.notices = w.outbox.notices ++ ns ∧
    ∀ n ∈ ns, w.book.Owns user n.order

theorem AlikeFor.exists_book (h : w.AlikeFor user w') :
    ∃ b, w.book.AlikeFor user b ∧ w' = { w with book := b } := ⟨w'.book, h.book, h.rest⟩

namespace Spares

@[refl] theorem refl (user : UserId) (w : World) : w.Spares user w where
  owns_iff _ := Iff.rfl
  orders _ _ := rfl
  entries := ⟨[], (List.append_nil _).symm, fun _ he => absurd he List.not_mem_nil⟩
  notices := ⟨[], (List.append_nil _).symm, fun _ hn => absurd hn List.not_mem_nil⟩

theorem trans (h : w.Spares user w₁) (h' : w₁.Spares user w₂) : w.Spares user w₂ := by
  obtain ⟨es, hes, hentries⟩ := h.entries
  obtain ⟨es', hes', hentries'⟩ := h'.entries
  obtain ⟨ns, hns, hnotices⟩ := h.notices
  obtain ⟨ns', hns', hnotices'⟩ := h'.notices
  refine ⟨fun id => (h'.owns_iff id).trans (h.owns_iff id), fun id hforeign => ?_,
    ⟨es ++ es', ?_, fun e he => ?_⟩, ⟨ns ++ ns', ?_, fun n hn => ?_⟩⟩
  · exact (h'.orders id (mt (h.owns_iff id).1 hforeign)).trans (h.orders id hforeign)
  · rw [hes', hes, List.append_assoc]
  · exact (List.mem_append.1 he).elim (hentries e) fun he => (h.owns_iff _).1 (hentries' e he)
  · rw [hns', hns, List.append_assoc]
  · exact (List.mem_append.1 hn).elim (hnotices n) fun hn => (h.owns_iff _).1 (hnotices' n hn)

theorem of_ledger (w : World) (ledger : Ledger) : w.Spares user { w with ledger } :=
  { refl user w with }

/-- An order of the user may be saved, and then is stored in the place of itself. -/
theorem of_save {o : Order} (hown : w.book.Owns user o.id) (huser : o.user = user) :
    w.Spares user { w with book := (w.book.save o).2 } := by
  rw [OrderBook.save]
  cases w.book.objection o with
  | some e => exact refl user w
  | none =>
    refine { refl user w with owns_iff := fun id => ?_, orders := fun id hforeign => ?_ }
    · rw [OrderBook.Owns, OrderBook.get?_store]
      split
      · next hid =>
        rw [hid]
        exact iff_of_true ⟨_, rfl, huser⟩ hown
      · rfl
    · rw [OrderBook.get?_store, if_neg]
      rintro rfl
      exact hforeign hown

theorem of_record {e : AuditEntry} (hown : w.book.Owns user e.order) :
    w.Spares user { w with trail := w.trail.record e } := by
  refine { refl user w with entries := ?_ }
  rw [AuditTrail.record]
  split
  · exact (refl user w).entries
  · refine ⟨[e], rfl, fun e' he' => ?_⟩
    rw [List.mem_singleton.1 he']
    exact hown

theorem of_publish {n : Notice} (hown : w.book.Owns user n.order) :
    w.Spares user { w with outbox := w.outbox.publish n } := by
  refine { refl user w with notices := ?_ }
  rw [Outbox.publish]
  split
  · exact (refl user w).notices
  · refine ⟨[n], rfl, fun n' hn' => ?_⟩
    rw [List.mem_singleton.1 hn']
    exact hown

end Spares

/-- Two runs that started in `w` and `w'` have come to worlds that are alike, and each has spared
the orders of others. -/
structure Discreet (user : UserId) (w w' w₁ w₂ : World) : Prop where
  filed : w₁.book.Filed
  alike : w₁.AlikeFor user w₂
  left : w.Spares user w₁
  right : w'.Spares user w₂

end World

/-! ## Requests of a customer -/

namespace Operation

/-- What loading an order for a user answers: the order, if it is stored and the user's. -/
def owned? (b : OrderBook) (id : OrderId) (user : UserId) : Except ServiceError Order :=
  match b.get? id with
  | some o => if o.isOwnedBy user then .ok o else .error (.accessDenied id user)
  | none => .error (.orderNotFound id)

theorem run_loadOwned (w : World) (id : OrderId) (user : UserId) :
    (loadOwned id user).run.run World.answer w = (owned? w.book id user, w) := by
  have hload : (loadOwned id user).run.Yields World.answer
      (fun r w' => (r, w') = (owned? w.book id user, w)) w := by
    rw [loadOwned, yields_run_bind, loadOrder, yields_run_bind, call_run, yields_bind,
      Shop.yields_load, yields_done, owned?]
    cases w.book.get? id with
    | none => rfl
    | some o =>
      by_cases hown : o.isOwnedBy user <;> simp [Except.mapError, goOn, hown]
  exact hload

theorem owned?_eq {b b' : OrderBook} {user : UserId} (h : b.AlikeFor user b') (id : OrderId) :
    owned? b' id user = owned? b id user := by
  have hrel := h.orders id
  rw [owned?, owned?]
  generalize b.get? id = x, b'.get? id = x' at hrel
  cases hrel with
  | none => rfl
  | some hor =>
    rcases hor with rfl | ⟨ho, ho'⟩
    · rfl
    · simp [Order.isOwnedBy, ho, ho']

/-- What is answered is the stored order, and the user's. -/
theorem of_owned? {b : OrderBook} {id : OrderId} {user : UserId} {o : Order}
    (h : owned? b id user = .ok o) : b.get? id = some o ∧ o.user = user := by
  rw [owned?] at h
  split at h
  · next hstored =>
    split at h
    · next hown =>
      cases h
      exact ⟨hstored, of_decide_eq_true hown⟩
    · cases h
  · cases h

end Operation

namespace World.Discreet

open Service

variable {user : UserId} {w w' w₁ w₂ : World} {id : OrderId} {α : Type}

theorem agrees_loadOwned (h : Discreet user w w' w₁ w₂) (id : OrderId) :
    (loadOwned id user).run.Agrees World.answer
      (fun r t t' => t = w₁ ∧ t' = w₂ ∧
        ∀ o, r = .ok o → w₁.book.get? o.id = some o ∧ o.user = user) w₁ w₂ := by
  rw [Agrees, run_loadOwned, run_loadOwned]
  refine ⟨(owned?_eq h.alike.book id).symm, rfl, rfl, fun o ho => ?_⟩
  obtain ⟨hstored, hown⟩ := of_owned? ho
  rw [h.filed _ _ hstored]
  exact ⟨hstored, hown⟩

theorem agrees_listOrders (h : Discreet user w w' w₁ w₂) (status : Option Status) :
    (listOrders user status).run.Agrees World.answer (fun _ => Discreet user w w') w₁ w₂ := by
  rw [listOrders, call_run]
  refine Agrees.bind (And.intro ?_ (agrees_done.2 h))
  exact congrArg Except.ok (h.alike.book.ofUser_eq status).symm

theorem agrees_onStock (h : Discreet user w w' w₁ w₂) (p : Script Stock.calls α) :
    (Shop.onStock p).Agrees World.answer (fun _ => Discreet user w w') w₁ w₂ := by
  obtain ⟨b, hbook, rfl⟩ := h.alike.exists_book
  rw [Agrees, World.run_onStock, World.run_onStock]
  exact ⟨rfl, h.filed, ⟨hbook, rfl⟩, h.left.trans (.of_ledger _ _), h.right.trans (.of_ledger _ _)⟩

theorem agrees_releaseStock (h : Discreet user w w' w₁ w₂) (o : Order) :
    (releaseStock o).Agrees World.answer (fun _ => Discreet user w w') w₁ w₂ := by
  rw [releaseStock]
  cases o.reservation with
  | none => exact agrees_done.2 h
  | some id =>
    refine Agrees.bind ((h.agrees_onStock _).mono fun r s t h => ?_)
    cases r <;> exact agrees_done.2 h

/-- An entry about an order of the user may be recorded in both worlds. -/
theorem agrees_record (h : Discreet user w w' w₁ w₂) {e : AuditEntry}
    (hown : w₁.book.Owns user e.order) :
    (Shop.record e).Agrees World.answer (fun _ => Discreet user w w') w₁ w₂ := by
  obtain ⟨b, hbook, rfl⟩ := h.alike.exists_book
  exact And.intro rfl ⟨h.filed, ⟨hbook, rfl⟩, h.left.trans (.of_record hown),
    h.right.trans (.of_record (hbook.owns hown))⟩

theorem agrees_publish (h : Discreet user w w' w₁ w₂) {n : Notice}
    (hown : w₁.book.Owns user n.order) :
    (Shop.publish n).Agrees World.answer (fun _ => Discreet user w w') w₁ w₂ := by
  obtain ⟨b, hbook, rfl⟩ := h.alike.exists_book
  exact And.intro rfl ⟨h.filed, ⟨hbook, rfl⟩, h.left.trans (.of_publish hown),
    h.right.trans (.of_publish (hbook.owns hown))⟩

/-- An order of the user is saved in both worlds, or refused alike. -/
theorem agrees_saveOrder (h : Discreet user w w' w₁ w₂) {next : Order}
    (hown : w₁.book.Owns user next.id) (hnext : next.user = user) :
    (saveOrder next).run.Agrees World.answer
      (fun r t t' => Discreet user w w' t t' ∧ ∀ o, r = .ok o → o.id = next.id) w₁ w₂ := by
  obtain ⟨b, hbook, rfl⟩ := h.alike.exists_book
  obtain ⟨hreply, hsaved⟩ := hbook.save hown
  have hsave : (Shop.save next).Agrees World.answer (fun _ => Discreet user w w')
      w₁ { w₁ with book := b } :=
    And.intro hreply ⟨h.filed.save next, ⟨hsaved, rfl⟩, h.left.trans (.of_save hown hnext),
      h.right.trans (.of_save (hbook.owns hown) hnext)⟩
  refine agrees_run_bind ?_
  rw [call_run]
  refine Agrees.bind (hsave.mono fun r s t h => ?_)
  cases r with
  | error e =>
    refine agrees_done.2 (agrees_done.2 ⟨h, fun o ho => ?_⟩)
    cases ho
  | ok version =>
    refine agrees_done.2 (agrees_done.2 ⟨h, fun o ho => ?_⟩)
    cases ho
    rfl

/-- What an owner asks of an order, both worlds do or refuse alike, if what follows the save does
the same in both. -/
theorem agrees_owned (h : Discreet user w w' w₁ w₂) (id : OrderId)
    (permit : Order → Except Rejection Unit) (act : Action)
    {rest : Instant → Order × Transition → Order → Operation α}
    (hrest : ∀ {now moved o w₁ w₂}, w.book.Owns user o.id → Discreet user w w' w₁ w₂ →
      (rest now moved o).run.Agrees World.answer (fun _ => Discreet user w w') w₁ w₂) :
    (loadOwned id user >>= fun o => require .order (permit o) >>= fun _ =>
        (liftM Shop.now : Operation Instant) >>= fun now => accept o act now >>= fun moved =>
          saveOrder moved.1 >>= rest now moved).run.Agrees World.answer
      (fun _ => Discreet user w w') w₁ w₂ := by
  refine agrees_run_bind ((h.agrees_loadOwned id).mono ?_)
  rintro r _ _ ⟨rfl, rfl, hloaded⟩
  cases r with
  | error e => exact agrees_done.2 h
  | ok o =>
    obtain ⟨ho, huser⟩ := hloaded o rfl
    rw [goOn_ok]
    refine agrees_run_bind ?_
    rw [require_run]
    refine agrees_done.2 ?_
    cases permit o with
    | error rejection => exact agrees_done.2 h
    | ok _ =>
      refine agrees_run_lift ((h.agrees_onStock _).mono fun now w₁ w₂ h' => ?_)
      refine agrees_run_bind ?_
      rw [accept, require_run]
      refine agrees_done.2 ?_
      cases ht : o.transition act now with
      | error rejection => exact agrees_done.2 h'
      | ok moved =>
        obtain ⟨next, t⟩ := moved
        have hsame := Order.samePlacement_of_transition ht
        have hmine : w.book.Owns user next.id := by
          rw [hsame.id]
          exact (h.left.owns_iff _).1 ⟨o, ho, huser⟩
        have hsave := h'.agrees_saveOrder ((h'.left.owns_iff _).2 hmine) (hsame.user.trans huser)
        refine agrees_run_bind (hsave.mono ?_)
        rintro r w₁ w₂ ⟨h'', hid⟩
        cases r with
        | error e => exact agrees_done.2 h''
        | ok saved =>
          refine hrest ?_ h''
          rw [hid saved rfl]
          exact hmine

theorem agrees_cancelOrder (h : Discreet user w w' w₁ w₂) (id : OrderId) (reason : Option String) :
    (cancelOrder id user reason).run.Agrees World.answer (fun _ => Discreet user w w') w₁ w₂ := by
  refine h.agrees_owned id Order.permitOwnerCancel (.cancel (cancellationReason reason)) ?_
  intro now moved o w₁ w₂ hmine h
  refine agrees_run_lift ((h.agrees_releaseStock _).mono fun released w₁ w₂ h => ?_)
  refine agrees_run_lift ((h.agrees_record ?_).mono fun _ w₁ w₂ h => ?_)
  · exact (h.left.owns_iff _).2 hmine
  · refine agrees_run_lift ((h.agrees_publish ?_).mono fun _ w₁ w₂ h => ?_)
    · exact (h.left.owns_iff _).2 hmine
    · exact agrees_done.2 h

/-- A refund that the owner asks for is the same in both worlds. -/
theorem agrees_refundOrder (h : Discreet user w w' w₁ w₂) (id : OrderId) (reason : Option String)
    (refund : RefundId) :
    (refundOrder id user reason refund).run.Agrees World.answer (fun _ => Discreet user w w')
      w₁ w₂ := by
  refine h.agrees_owned id Order.permitOwnerRefund (.refund refund (refundReason reason)) ?_
  intro now moved o w₁ w₂ hmine h
  refine agrees_run_lift ((h.agrees_record ?_).mono fun _ w₁ w₂ h => ?_)
  · exact (h.left.owns_iff _).2 hmine
  · refine agrees_run_lift (Agrees.mono ?_ fun _ _ _ h => agrees_done.2 h)
    cases hnotice : Notice.refunded? o now with
    | none => exact agrees_done.2 h
    | some n =>
      obtain ⟨asked, -, rfl⟩ := Option.map_eq_some_iff.1 hnotice
      exact h.agrees_publish ((h.left.owns_iff _).2 hmine)

end World.Discreet

/-! ## Requests one after the other -/

namespace Service

/-- What a customer can ask for once there are orders. -/
inductive Ask where
  | get (id : OrderId)
  | list (status : Option Status)
  | cancel (id : OrderId) (reason : Option String)
  | refund (id : OrderId) (reason : Option String) (refund : RefundId)

/-- What a customer is told. -/
inductive Response where
  | order (r : Except ServiceError Order)
  | orders (r : Except ServiceError (List Order))

/-- The calls of the request, when the user asks. -/
def Ask.script (user : UserId) : Ask → Script Shop.calls Response
  | .get id => .order <$> (getOrder id user).run
  | .list status => .orders <$> (listOrders user status).run
  | .cancel id reason => .order <$> (cancelOrder id user reason).run
  | .refund id reason made => .order <$> (refundOrder id user reason made).run

/-- Both worlds answer a request alike. -/
theorem Ask.agrees {user : UserId} {w w' w₁ w₂ : World} (h : World.Discreet user w w' w₁ w₂)
    (a : Ask) : (a.script user).Agrees World.answer (fun _ => World.Discreet user w w') w₁ w₂ := by
  cases a with
  | get id =>
    refine Agrees.map (f := Response.order) ((h.agrees_loadOwned id).mono ?_)
    rintro r _ _ ⟨rfl, rfl, -⟩
    exact h
  | list status => exact Agrees.map (f := Response.orders) (h.agrees_listOrders status)
  | cancel id reason => exact Agrees.map (f := Response.order) (h.agrees_cancelOrder id reason)
  | refund id reason made =>
    exact Agrees.map (f := Response.order) (h.agrees_refundOrder id reason made)

/--
**Customers neither see nor touch orders of others.**

In two worlds that differ in orders of others only, a customer is told the same, whatever orders the
customer asks for, and in whichever sequence. In each world the orders of others, and the ids that
belong to no order, are as they were, and all that was recorded and told since is about orders of
the customer.
-/
theorem orders_of_others_are_private {user : UserId} {w w' : World} (hfiled : w.book.Filed)
    (halike : w.AlikeFor user w') (asks : List Ask) :
    let run := (asks.mapM (Ask.script user)).run World.answer
    (run w).1 = (run w').1 ∧ (run w).2.AlikeFor user (run w').2 ∧
      w.Spares user (run w).2 ∧ w'.Spares user (run w').2 := by
  have hstart : World.Discreet user w w' w w' := ⟨hfiled, halike, .refl user w, .refl user w'⟩
  obtain ⟨hsame, hends⟩ :=
    agrees_mapM (fun a _ _ h => Ask.agrees h a) asks hstart
  exact ⟨hsame, hends.alike, hends.left, hends.right⟩

/-- Two orders of widgets, the second one by another user and as far as given. -/
def shopOfTwo (status : Status) : World :=
  { widgetShop with
    book := (({} : OrderBook).store placedWidgets).store
      { placedWidgets with
        id := ⟨.ofNat 3⟩
        number := ⟨"ORD-OTHER"⟩
        user := ⟨.ofNat 9⟩
        status } }

/-- The first customer also asks for the order of the other one, and for one that nobody has. -/
def curiousAsks : List Ask :=
  [.get ⟨.ofNat 3⟩, .cancel ⟨.ofNat 3⟩ (some "not mine"), .get ⟨.ofNat 4⟩, .list none,
    .cancel ⟨.ofNat 2⟩ none, .refund ⟨.ofNat 3⟩ none ⟨"refund"⟩, .list (some .cancelled)]

/-- Whether the order of the other customer is delivered or not, the first one does not learn it,
and it stays so when the first one cancels. -/
theorem widgets_of_others_are_private :
    let run := (curiousAsks.mapM (Ask.script ⟨.ofNat 1⟩)).run World.answer
    (run (shopOfTwo .delivered)).1 = (run (shopOfTwo .created)).1 ∧
      (run (shopOfTwo .delivered)).2.book.get? ⟨.ofNat 3⟩ =
        (shopOfTwo .delivered).book.get? ⟨.ofNat 3⟩ ∧
      ((run (shopOfTwo .delivered)).2.book.get? ⟨.ofNat 2⟩).map Order.status =
        some .cancelled := by
  have hkept : (shopOfTwo .delivered).book.WellKept :=
    ((OrderBook.wellKept_of_empty rfl).store (by decide)).store (by decide)
  have halike : (shopOfTwo .delivered).AlikeFor ⟨.ofNat 1⟩ (shopOfTwo .created) := by
    refine ⟨⟨fun id => ?_, rfl⟩, rfl⟩
    simp only [shopOfTwo, OrderBook.get?_store]
    split
    · exact .some (.inr ⟨by decide, by decide⟩)
    · split
      · exact .some (.inl rfl)
      · exact .none
  obtain ⟨hsame, -, hspares, -⟩ := orders_of_others_are_private hkept.filed halike curiousAsks
  refine ⟨hsame, hspares.orders _ ?_, by decide +kernel⟩
  rintro ⟨o, ho, huser⟩
  have hother : ((shopOfTwo .delivered).book.get? ⟨.ofNat 3⟩).map Order.user ≠
      some ⟨.ofNat 1⟩ := by
    decide +kernel
  rw [ho] at hother
  exact hother (congrArg some huser)

end Service
end Fulfilment
