import Fulfilment.Proofs.Saga.Cancelling
import Fulfilment.Proofs.Service.Creating
import Fulfilment.Proofs.Text.Keyword
import Fulfilment.Proofs.Time.Rfc3339
import Mathlib.Data.List.Forall2

/-!
# Categories of cancellations

Others are told the category of a cancellation, which is read off the words of its reason, and
reasons quote what somebody wrote. A shortage is told as one in whatever words it was reported, and
a time-out as one for any deadline: the words in front of the quotation win, or nothing in it can
win against them. What the owner of an order writes does win against the words in front of it.
-/
namespace Fulfilment

open Script

/-- The category of the cancellation that others are told of. -/
def Notice.category? : Notice → Option Category
  | .orderCancelled _ _ category .. => some category
  | _ => none

/-! ## Reasons -/

namespace Category

/-- The category that a cancellation by the owner comes to, by the words of the owner. -/
def ofOwner (reason : Option String) : Category :=
  if tellsOfStock (reason.getD "") then stockUnavailable
  else if tellsOfDeadline (reason.getD "") then paymentTimeout
  else userRequested

theorem classify_shortageReason (reason : String) :
    classify (Reaction.shortageReason reason) = stockUnavailable := by
  refine if_pos ?_
  unfold Reaction.shortageReason
  by_cases h : tellsOfStock reason = true
  · rwa [if_pos h]
  · have hprefix : Text.mentions "inventory reservation failed: " "inventory" = true := by decide
    rw [if_neg h, tellsOfStock, Text.mentions_append_left reason hprefix, Bool.or_true]

/-- No instant is written with a letter that only a word of stock has. -/
theorem notMem_toOffsetText {c : Char} (hc : c = 'k' ∨ c = 'v') (t : Instant) :
    c ∉ t.toOffsetText.toList.map Text.fold := by
  intro hmem
  obtain ⟨d, hd, rfl⟩ := List.mem_map.1 hmem
  cases t.stamps_toOffsetText d hd with
  | inl hdigit =>
    rw [Text.fold_of_isDigit hdigit] at hc
    rcases hc with rfl | rfl <;> cases hdigit
  | inr hmark =>
    have hmarks : d = '-' ∨ d = '+' ∨ d = 'T' ∨ d = ':' ∨ d = '.' ∨ d = 'Z' := by
      simpa using hmark
    rcases hmarks with rfl | rfl | rfl | rfl | rfl | rfl <;> revert hc <;> decide

/-- So a time-out has no reason with a word that has such a letter. -/
theorem mentions_timeoutReason {word : String} {c : Char} (hc : c = 'k' ∨ c = 'v')
    (hword : c ∈ word.toList) (o : Order) : Text.mentions o.timeoutReason word = false := by
  have hletters : c ∉ "payment timeout".toList.map Text.fold ∧
      c ∉ "payment timeout: deadline ".toList.map Text.fold ∧
      c ∉ " passed".toList.map Text.fold := by
    rcases hc with rfl | rfl <;> decide
  obtain ⟨hshort, hfirst, hlast⟩ := hletters
  apply Text.mentions_of_notMem hword
  unfold Order.timeoutReason
  split
  · simp only [String.toList_append, List.map_append, List.mem_append, not_or]
    exact ⟨⟨hfirst, notMem_toOffsetText hc _⟩, hlast⟩
  · exact hshort

/-- The reason of a time-out has the category of a time-out. -/
theorem classify_timeoutReason (o : Order) : classify o.timeoutReason = paymentTimeout := by
  have hstock : tellsOfStock o.timeoutReason = false := by
    rw [tellsOfStock, mentions_timeoutReason (.inl rfl) (by decide),
      mentions_timeoutReason (.inr rfl) (by decide)]
    rfl
  have hdeadline : tellsOfDeadline o.timeoutReason = true := by
    have htimeout : Text.mentions o.timeoutReason "timeout" = true := by
      unfold Order.timeoutReason
      split
      · rw [String.append_assoc]
        exact Text.mentions_append_left _ (by decide)
      · decide
    rw [tellsOfDeadline, htimeout, Bool.true_or]
  rw [classify, if_neg (by simp [hstock]), if_pos hdeadline]

end Category

namespace Service

open Operation

/-- What is recorded has the words of the owner, and others only about the owner. -/
theorem mentions_cancellationReason {word : String} (h : Text.IsWord word)
    (hown : Text.mentions "cancelled by user:" word = false) (reason : Option String) :
    Text.mentions (cancellationReason reason) word = Text.mentions (reason.getD "") word := by
  have hshort : Text.mentions "cancelled by user" word = false := by
    rw [Bool.eq_false_iff] at hown ⊢
    exact fun hmentions => hown (Text.mentions_append_left ":" hmentions)
  have hempty : Text.mentions "" word = false := by
    rw [Bool.eq_false_iff] at hown ⊢
    exact fun hmentions => hown (Text.mentions_append_left "cancelled by user:" hmentions)
  cases reason with
  | none =>
    exact hshort.trans hempty.symm
  | some text =>
    rw [Option.getD_some, ← Text.mentions_trim h text]
    by_cases hblank : Text.trim text = ""
    · have hnone : cancellationReason (some text) = "cancelled by user" := by
        simp [cancellationReason, statedReason?, hblank]
      rw [hnone, hblank, hshort, hempty]
    · have hstated : cancellationReason (some text) =
          "cancelled by user:" ++ " " ++ Text.trim text := by
        simp [cancellationReason, statedReason?, hblank]
      rw [hstated, Text.mentions_append_blank h, hown, Bool.false_or]

/-- The category of a cancellation by the owner goes by the words of the owner. -/
theorem classify_cancellationReason (reason : Option String) :
    Category.classify (cancellationReason reason) = .ofOwner reason := by
  have huser : Category.tellsOfUser (cancellationReason reason) = true := by
    have huser : Text.mentions (cancellationReason reason) "user" = true := by
      unfold cancellationReason
      split
      · exact Text.mentions_append_left _ (by decide)
      · decide
    rw [Category.tellsOfUser, huser, Bool.true_or, Bool.true_or]
  have hkeywords : ∀ word ∈ ["stock", "inventory", "timeout", "expired"],
      Text.IsWord word ∧ Text.mentions "cancelled by user:" word = false := by decide +kernel
  have hquoted : ∀ word ∈ ["stock", "inventory", "timeout", "expired"],
      Text.mentions (cancellationReason reason) word = Text.mentions (reason.getD "") word :=
    fun word hword =>
      mentions_cancellationReason (hkeywords word hword).1 (hkeywords word hword).2 reason
  have hstock : Category.tellsOfStock (cancellationReason reason) =
      Category.tellsOfStock (reason.getD "") := by
    rw [Category.tellsOfStock, hquoted _ (by simp), hquoted _ (by simp), Category.tellsOfStock]
  have hdeadline : Category.tellsOfDeadline (cancellationReason reason) =
      Category.tellsOfDeadline (reason.getD "") := by
    rw [Category.tellsOfDeadline, hquoted _ (by simp), hquoted _ (by simp),
      Category.tellsOfDeadline]
  rw [Category.classify, hstock, hdeadline, if_pos huser, Category.ofOwner]

/-! ## What is stored and told -/

variable {α : Type} {log : List (Exchange Shop.calls)}

/-- The call neither stores an order nor tells of one. -/
def Quiet : Shop.Call → Prop
  | .save _ | .publish _ => False
  | _ => True

theorem OnLedger.quiet {request : Shop.Call} (h : OnLedger request) : Quiet request := by
  cases request with
  | stock => trivial
  | _ => exact h.elim

theorem only_quiet_onStock (p : Script Stock.calls α) : (Shop.onStock p).Only Quiet :=
  (only_onLedger_onStock p).mono OnLedger.quiet

theorem said_of_quiet (request : Shop.Call) (h : Quiet request)
    (reply : Shop.calls.Reply request) (log : List (Exchange Shop.calls)) :
    commits (log ++ [⟨request, reply⟩]) = commits log ∧
      told (log ++ [⟨request, reply⟩]) = told log := by
  rw [commits_append, told_append]
  cases request with
  | save | publish => exact h.elim
  | _ => exact ⟨List.append_nil _, List.append_nil _⟩

theorem obeys_of_quiet {p : Script Shop.calls α} (h : p.Only Quiet)
    (log : List (Exchange Shop.calls)) :
    p.Obeys .free (fun _ log' => commits log' = commits log ∧ told log' = told log) log := by
  refine h.obeys (motive := fun l => commits l = commits log ∧ told l = told log)
    (fun _ _ => trivial) ?_ ⟨rfl, rfl⟩
  intro l request reply hl hquiet
  obtain ⟨hcommits, htold⟩ := said_of_quiet request hquiet reply l
  exact ⟨hcommits.trans hl.1, htold.trans hl.2⟩

theorem only_quiet_loadOwned (id : OrderId) (user : UserId) :
    (loadOwned id user).run.Only Quiet := by
  have hload : (loadOrder id).run.Only Quiet := by
    refine only_run_bind ?_ fun stored => ?_
    · rw [call_run]
      exact only_bind (only_ask trivial) fun _ => trivial
    · cases stored <;> trivial
  refine only_run_bind hload fun o => ?_
  split <;> trivial

/-- A save stores the order at the version that is answered, and tells nothing. -/
theorem said_of_save (o : Order) (reply : Except BookError Int) (log : List (Exchange Shop.calls)) :
    commits (log ++ [⟨.save o, reply⟩]) =
        commits log ++ (reply.map fun version => { o with version }).toOption.toList ∧
      told (log ++ [⟨.save o, reply⟩]) = told log := by
  rw [commits_append, told_append]
  cases reply with
  | error e => exact ⟨rfl, List.append_nil _⟩
  | ok version => exact ⟨rfl, List.append_nil _⟩

/-- Saving stores the order that is answered, if any, and tells nothing. -/
theorem obeys_saveOrder_untold (o : Order) (log : List (Exchange Shop.calls)) :
    (saveOrder o).run.Obeys .free (fun r log' =>
      commits log' = commits log ++ r.toOption.toList ∧ told log' = told log) log := by
  rw [saveOrder, obeys_run_bind, call_run, obeys_bind]
  refine ⟨trivial, fun reply _ => ?_⟩
  have hsaid := said_of_save o reply log
  cases reply with
  | error e => exact hsaid
  | ok version => exact hsaid

/-! ## Cancellations by owners -/

/-- A cancellation stores the order that it answers and tells of it, for the recorded reason. If it
fails it does neither. -/
theorem obeys_cancelOrder_told (id : OrderId) (user : UserId) (reason : Option String) :
    (cancelOrder id user reason).run.Obeys .free (fun r log =>
      commits log = r.toOption.toList ∧ match r with
        | .ok o => ∃ now, told log = [.cancelled o (cancellationReason reason) true now]
        | .error _ => told log = []) [] := by
  refine obeys_run_bind.2 ((obeys_of_quiet (only_quiet_loadOwned id user) []).mono ?_)
  intro result log hlog
  cases result with
  | error e => exact hlog
  | ok o =>
    rw [goOn_ok, obeys_run_bind, require_run, obeys_done]
    cases o.permitOwnerCancel with
    | error rejection => exact hlog
    | ok _ =>
      refine obeys_run_lift.2 ((obeys_of_quiet (only_quiet_onStock Stock.now) log).mono ?_)
      intro now log₁ hnow
      have hlog₁ : commits log₁ = [] ∧ told log₁ = [] :=
        ⟨hnow.1.trans hlog.1, hnow.2.trans hlog.2⟩
      rw [obeys_run_bind, accept, require_run, obeys_done]
      cases o.transition (.cancel (cancellationReason reason)) now with
      | error rejection => exact hlog₁
      | ok moved =>
        refine obeys_run_bind.2 ((obeys_saveOrder_untold moved.1 log₁).mono ?_)
        intro saved log₂ hsaved
        rw [hlog₁.1, hlog₁.2, List.nil_append] at hsaved
        cases saved with
        | error e => exact hsaved
        | ok o =>
          have hstock := (only_onLedger_releaseStock o).mono OnLedger.quiet
          refine obeys_run_lift.2 ((obeys_of_quiet hstock log₂).mono ?_)
          intro released log₃ hlog₃
          rw [hsaved.1, hsaved.2] at hlog₃
          refine obeys_run_lift.2 ⟨trivial, fun _ _ => ?_⟩
          refine obeys_run_lift.2 ⟨trivial, fun _ _ => ⟨?_, now, ?_⟩⟩
          · rw [commits_append, commits_append, hlog₃.1]
            rfl
          · rw [told_append, told_append, hlog₃.2]
            rfl

/-- **The words of the owner choose the category of a cancellation.**

Whatever the stores answer, a cancellation by the owner that succeeds stores the order once and
tells of it once. The reason that is told quotes the owner and has the words "cancelled by user" in
front, but the words of stock and of deadlines come first: the category is that of a request by the
user unless the owner has written one of them. A cancellation that fails stores and tells nothing.
-/
theorem owner_chooses_category {σ : Type} (answer : Shop.calls.Handler σ) (s : σ) (id : OrderId)
    (user : UserId) (reason : Option String) :
    (cancelOrder id user reason).run.Leaves answer (fun r _ log =>
      commits log = r.toOption.toList ∧ match r with
        | .ok o => ∃ now, told log =
            [.orderCancelled o.id o.reservation (.ofOwner reason) (cancellationReason reason) true
              (Notice.stockLines o) now]
        | .error _ => told log = []) s := by
  rw [← classify_cancellationReason]
  exact (obeys_cancelOrder_told id user reason).ends_run fun _ _ => trivial

/-- So it is not every cancellation by the owner that is told as a request of the user. -/
theorem owner_can_blame_stock :
    ¬ ∀ (w : World) (id : OrderId) (user : UserId) (reason : Option String),
      (cancelOrder id user reason).run.Leaves World.answer (fun r _ log =>
        ∀ o, r = .ok o → ∀ n ∈ told log, n.category? = some .userRequested) w := by
  intro hrequested
  let p := (cancelOrder placedWidgets.id twoWidgets.user "out of stock elsewhere").run
  have hcancelled : (p.run World.answer (shopWith placedWidgets)).1.isOk = true := by
    decide +kernel
  have hstock : some .stockUnavailable ∈
      (told (p.transcript World.answer (shopWith placedWidgets))).map Notice.category? := by
    decide +kernel
  obtain ⟨n, hn, hcategory⟩ := List.mem_map.1 hstock
  have hall := hrequested (shopWith placedWidgets) placedWidgets.id twoWidgets.user
    "out of stock elsewhere"
  cases h : (p.run World.answer (shopWith placedWidgets)).1 with
  | error e =>
    rw [h] at hcancelled
    cases hcancelled
  | ok o =>
    rw [hall o h n hn] at hcategory
    cases hcategory

end Service

/-! ## Shortages -/

namespace Order

variable {o : Order} {now : Instant} {a : Applied}

/-- An order that reacts to a shortage is cancelled, and told of, for one reason, which has the
category of a shortage. -/
theorem notice_of_shortage {id : OrderId} {lines : List ShortfallLine} {reason : String}
    {failedAt : Instant}
    (h : o.react (.inventoryReservationFailed id lines reason failedAt) now = .ok (.apply a)) :
    ∃ told, a.order.failureReason = some told ∧
      a.notice = some (.orderCancelled a.order.id a.order.reservation .stockUnavailable told false
        (Notice.stockLines a.order) now) := by
  have hnotice : a.notice =
      some (.cancelled a.order (Reaction.shortageReason reason) false now) := notice_of_react h
  rw [Notice.cancelled, Category.classify_shortageReason] at hnotice
  obtain ⟨next, t, ht, rfl⟩ := Reaction.of_cancel h
  obtain ⟨e, he, rfl, -⟩ := accepts_of_transition ht
  cases he
  exact ⟨_, rfl, hnotice⟩

end Order

/-! ## Time-outs -/

namespace Service

open Saga

variable {log : List (Exchange Shop.calls)}

/-- The notice is of the cancellation of an order that was timed out, for the reason that the order
has, and the category is that of a time-out. -/
def TellsOfTimeOut (n : Notice) (o : Order) : Prop :=
  o.status = .paymentTimeout ∧ ∃ reason now, o.failureReason = some reason ∧
    n = .orderCancelled o.id o.reservation .paymentTimeout reason true (Notice.stockLines o) now

/-- What is told is of the time-outs of the orders that are stored, one by one. -/
def TellsTimeOuts (log : List (Exchange Shop.calls)) : Prop :=
  List.Forall₂ TellsOfTimeOut (told log) (commits log)

/-- What others are told of an order that was timed out, in whatever version it is stored. -/
theorem tellsOfTimeOut_of_transition {o next : Order} {t : Transition} {now : Instant}
    (ht : o.transition .timeOut now = .ok (next, t)) (version : Int) :
    TellsOfTimeOut (.cancelled next (next.failureReason.getD "payment timeout") true now)
      { next with version } := by
  obtain ⟨e, he, rfl, -⟩ := Order.accepts_of_transition ht
  cases he
  refine ⟨rfl, o.timeoutReason, now, rfl, ?_⟩
  have hcategory := Category.classify_timeoutReason o
  rw [← hcategory]
  rfl

namespace TellsTimeOuts

theorem append_quiet (hlog : TellsTimeOuts log) (request : Shop.Call) (h : Quiet request)
    (reply : Shop.calls.Reply request) : TellsTimeOuts (log ++ [⟨request, reply⟩]) := by
  obtain ⟨hcommits, htold⟩ := said_of_quiet request h reply log
  rw [TellsTimeOuts, hcommits, htold]
  exact hlog

theorem obeys_of_quiet (hlog : TellsTimeOuts log) {α : Type} {p : Script Shop.calls α}
    (h : p.Only Quiet) : p.Obeys .free (fun _ log' => TellsTimeOuts log') log := by
  refine (Service.obeys_of_quiet h log).mono fun _ log' hsaid => ?_
  rw [TellsTimeOuts, hsaid.1, hsaid.2]
  exact hlog

theorem append_notice (hlog : TellsTimeOuts log) {log' : List (Exchange Shop.calls)} {o : Order}
    {n : Notice} (hcommits : commits log' = commits log ++ [o]) (htold : told log' = told log)
    (h : TellsOfTimeOut n o) : TellsTimeOuts (log' ++ [⟨.publish n, ()⟩]) := by
  have hnotice : commits [⟨.publish n, ()⟩] = [] := rfl
  rw [TellsTimeOuts, commits_append, told_append, hcommits, htold, hnotice, List.append_nil]
  exact List.rel_append hlog (.cons h .nil)

variable {desk : HoldDesk}

/-- A timed-out order is told of once it is stored. -/
theorem obeys_commitTimeOut (hlog : TellsTimeOuts log) {o next : Order} {t : Transition}
    {now : Instant} (ht : o.transition .timeOut now = .ok (next, t)) :
    (commitTimeOut desk next t now).Obeys .free (fun _ log' => TellsTimeOuts log') log := by
  refine obeys_bind.2 ⟨trivial, fun saved _ => ?_⟩
  obtain ⟨hcommits, htold⟩ := said_of_save next saved log
  cases saved with
  | error e =>
    have hnothing : commits (log ++ [⟨.save next, .error e⟩]) = commits log :=
      hcommits.trans (List.append_nil _)
    change TellsTimeOuts (log ++ [⟨.save next, .error e⟩])
    rw [TellsTimeOuts, hnothing, htold]
    exact hlog
  | ok version =>
    -- Until the notice is published, the order is stored and not told of.
    refine obeys_bind.2 (obeys_bind.2 ⟨trivial, fun _ _ => obeys_bind.2 ⟨trivial, fun _ _ => ?_⟩⟩)
    let reason := next.failureReason.getD "payment timeout"
    let entry := AuditEntry.ofTransition next.id "PaymentTimeout" t scanner now (some reason)
    obtain ⟨hcommits', htold'⟩ :=
      said_of_quiet (.record entry) trivial () (log ++ [⟨.save next, .ok version⟩])
    have htells := hlog.append_notice (hcommits'.trans hcommits) (htold'.trans htold)
      (tellsOfTimeOut_of_transition ht version)
    split
    · exact htells.obeys_of_quiet (only_bind (only_quiet_onStock _) fun _ => trivial)
    · exact htells

/-- Timing an order out tells of it if it stores it. -/
theorem obeys_timeOut (hlog : TellsTimeOuts log) (id : OrderId) :
    (timeOut desk id).Obeys .free (fun _ log' => TellsTimeOuts log') log := by
  refine obeys_bind.2 ⟨trivial, fun reply _ => ?_⟩
  have hload := hlog.append_quiet (.load id) trivial reply
  rcases reply with e | _ | o
  · exact hload
  · exact hload
  · refine obeys_bind.2 ((hload.obeys_of_quiet (only_quiet_onStock Stock.now)).mono ?_)
    intro now log₁ hnow
    by_cases hdue : o.isOverdue now = true
    · rw [if_pos hdue]
      cases ht : o.transition .timeOut now with
      | error rejection => exact hnow
      | ok moved => exact hnow.obeys_commitTimeOut ht
    · rw [if_neg hdue]
      exact hnow

theorem obeys_timeOutAll (hlog : TellsTimeOuts log) (count : Nat) (ids : List OrderId) :
    (timeOutAll desk count ids).Obeys .free (fun _ log' => TellsTimeOuts log') log := by
  induction ids generalizing log count with
  | nil => exact hlog
  | cons id ids ih =>
    refine obeys_bind.2 ((hlog.obeys_timeOut id).mono fun result log₁ hlog₁ => ?_)
    split
    · exact ih hlog₁ (count + 1)
    · exact ih hlog₁ count

theorem obeys_scan (hlog : TellsTimeOuts log) (desk : HoldDesk) (batch : BatchSize) :
    (scan desk batch).Obeys .free (fun _ log' => TellsTimeOuts log') log := by
  refine obeys_bind.2 ((hlog.obeys_of_quiet (only_quiet_onStock Stock.now)).mono ?_)
  intro now log₁ hnow
  refine obeys_bind.2 ⟨trivial, fun reply _ => ?_⟩
  have hdue := hnow.append_quiet (.overdue now batch.count) trivial reply
  cases reply with
  | error e => exact hdue
  | ok ids => exact obeys_bind.2 (hdue.obeys_timeOutAll 0 ids)

end TellsTimeOuts

/-- **Shortages and time-outs keep their category.**

An order that reacts to a reservation that failed elsewhere is told of as cancelled for want of
stock, for the reason that is recorded with the order and in whatever words the failure was
reported. And whatever the stores answer, a scan for overdue payments tells of the orders that it
stores as timed out, one by one, each for the reason that is recorded with it and as cancelled at a
deadline, whatever that deadline is.
-/
theorem shortages_and_timeouts_keep_category :
    (∀ {o : Order} {id : OrderId} {lines : List ShortfallLine} {reason : String}
        {failedAt now : Instant} {a : Applied},
      o.react (.inventoryReservationFailed id lines reason failedAt) now = .ok (.apply a) →
      ∃ told, a.order.failureReason = some told ∧
        a.notice = some (.orderCancelled a.order.id a.order.reservation .stockUnavailable told false
          (Notice.stockLines a.order) now)) ∧
    ∀ {σ : Type} (answer : Shop.calls.Handler σ) (s : σ) (desk : HoldDesk) (batch : BatchSize),
      (scan desk batch).Leaves answer
        (fun _ _ log => List.Forall₂ TellsOfTimeOut (told log) (commits log)) s := by
  constructor
  · exact Order.notice_of_shortage
  · intro σ answer s desk batch
    have hnothing : TellsTimeOuts [] := .nil
    exact (hnothing.obeys_scan desk batch).ends_run fun _ _ => trivial

/-- The shop with two widgets whose payment is late. -/
def lateShop : World :=
  { shopWith Order.pendingWidgets with clock := .ofSecond 1000 }

/-- Two widgets are told of as cancelled for want of stock, or at their deadline. -/
theorem pending_widgets_keep_category :
    (∃ a, Order.pendingWidgets.react Order.widgetsShort widgetShop.clock = .ok (.apply a) ∧
      a.notice.bind Notice.category? = some .stockUnavailable) ∧
    (told ((scan .direct (.ofNat 2)).transcript World.answer lateShop)).map Notice.category? =
      [some .paymentTimeout] := by
  obtain ⟨hshort, hlate⟩ := shortages_and_timeouts_keep_category
  constructor
  · have hearly : Order.pendingWidgets.status.rank < Status.shipped.rank := by decide
    obtain ⟨a, ha⟩ := Order.react_of_isOpenTo (s := Order.widgetsShort) hearly widgetShop.clock
    obtain ⟨told, -, hnotice⟩ := hshort ha
    refine ⟨a, ha, ?_⟩
    rw [hnotice]
    rfl
  · let log := (scan .direct (.ofNat 2)).transcript World.answer lateShop
    have htells : List.Forall₂ TellsOfTimeOut (told log) (commits log) :=
      hlate World.answer lateShop .direct (.ofNat 2)
    have hcommits : (commits log).length = 1 := by decide +kernel
    obtain ⟨n, hn⟩ := List.length_eq_one_iff.1 (htells.length_eq.trans hcommits)
    obtain ⟨o, ho⟩ := List.length_eq_one_iff.1 hcommits
    change (told log).map Notice.category? = _
    rw [hn, ho] at htells
    cases htells with
    | cons h _ =>
      obtain ⟨-, reason, now, -, rfl⟩ := h
      rw [hn]
      rfl

end Service
end Fulfilment
