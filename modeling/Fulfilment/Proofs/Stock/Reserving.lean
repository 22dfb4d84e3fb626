import Fulfilment.Proofs.Stock.Reachable
import Fulfilment.Proofs.Stock.Replaying
import Fulfilment.Proofs.Text.Bytes

/-!
# What a new reservation comes to

Under a name that has no hold, and while no write is made to fail, `Reservation.reserve` succeeds
exactly if the ledger grants the request (`Ledger.Grants`), and its error is the first reason to
refuse it (`Ledger.Refuses`). Counters are read one by one while others have been lowered already.
That makes no difference: after merging every product has one line, so no counter is read that the
same reservation has lowered.
-/
namespace Fulfilment

open Script

namespace StockLine

/-! ## Merged lines -/

variable {ls : List StockLine} {line : StockLine}

/-- The merged lines are one line for each product that is asked for, with its total. -/
theorem mem_merge_iff (hfits : Fits ls) :
    line ∈ merge ls ↔
      (∃ asked ∈ ls, asked.product = line.product) ∧
        line.quantity.toNat = quantityOf line.product ls := by
  constructor
  · intro hline
    have htotal := quantity_of_mem_merge hline
    rw [hfits.quantityOf_merge] at htotal
    exact ⟨exists_mem_merge_iff.1 ⟨line, hline, rfl⟩, htotal⟩
  · rintro ⟨hasked, htotal⟩
    obtain ⟨other, hother, hproduct⟩ := exists_mem_merge_iff.2 hasked
    have hquantity := quantity_of_mem_merge hother
    rw [hfits.quantityOf_merge, hproduct, ← htotal, UInt32.toNat_inj] at hquantity
    have hsame : other = line := by
      cases other
      cases line
      simp_all
    exact hsame ▸ hother

theorem quantityOf_eq_zero {p : ProductId} (h : ∀ line ∈ ls, line.product ≠ p) :
    quantityOf p ls = 0 := by
  induction ls with
  | nil => rfl
  | cons line ls ih =>
    obtain ⟨hline, hls⟩ := List.forall_mem_cons.1 h
    rw [quantityOf_cons, if_neg hline, ih hls]

end StockLine

namespace Ledger

variable {l m : Ledger} {store : StoreId} {lines : List StockLine} {e : StockError}

/-! ## Granting and refusing -/

/-- The ledger counts the product, and has at least this much of it. -/
def Covers (l : Ledger) (p : ProductId) (quantity : Nat) : Prop :=
  ∃ available, l.available? p = some available ∧ (quantity : Int) ≤ available

/-- Nothing stands in the way of a reservation of these lines. -/
structure Grants (l : Ledger) (store : StoreId) (lines : List StockLine) : Prop where
  asked : lines ≠ []
  positive : ∀ line ∈ lines, 0 < line.quantity
  isOpen : l.isOpen store = true
  covers : ∀ line ∈ lines, l.Covers line.product (StockLine.quantityOf line.product lines)

/-- Of the products that are asked for and short of stock, this is the first by the bytes of its
name. -/
structure FirstShort (l : Ledger) (lines : List StockLine) (p : ProductId) : Prop where
  asked : ∃ line ∈ lines, line.product = p
  short : ¬ l.Covers p (StockLine.quantityOf p lines)
  least : ∀ line ∈ lines, ¬ l.Covers line.product (StockLine.quantityOf line.product lines) →
    ¬ Text.bytes line.product.text < Text.bytes p.text

/-- What stands in the way of a reservation of these lines, and which error says so. Of several
reasons the first one counts, and of several empty lines the first as requested. -/
inductive Refuses (l : Ledger) (store : StoreId) (lines : List StockLine) : StockError → Prop where
  | nothing (h : lines = []) : Refuses l store lines .emptyReservation
  | empty {before after : List StockLine} {line : StockLine}
      (split : lines = before ++ line :: after) (positive : ∀ a ∈ before, 0 < a.quantity)
      (zero : line.quantity = 0) : Refuses l store lines (.invalidQuantity line.product 0)
  | closed (asked : lines ≠ []) (positive : ∀ line ∈ lines, 0 < line.quantity)
      (closed : l.isOpen store = false) : Refuses l store lines (.storeClosed store)
  | short (asked : lines ≠ []) (positive : ∀ line ∈ lines, 0 < line.quantity)
      (isOpen : l.isOpen store = true) {p : ProductId} {total : UInt32}
      (first : l.FirstShort lines p) (exact : total.toNat = StockLine.quantityOf p lines) :
      Refuses l store lines (.insufficientStock p total (l.stockOf p))

/-- The first objection to some lines, in words. -/
theorem objection_eq_some_iff :
    Reservation.objection lines = some e ↔
      lines = [] ∧ e = .emptyReservation ∨
        ∃ before line after, lines = before ++ line :: after ∧ (∀ a ∈ before, 0 < a.quantity) ∧
          line.quantity = 0 ∧ e = .invalidQuantity line.product 0 := by
  have hpos : ∀ q : UInt32, (!decide (q = 0)) = true ↔ 0 < q := fun q => by
    simp [UInt32.pos_iff_ne_zero]
  unfold Reservation.objection
  cases lines with
  | nil => simp [eq_comm]
  | cons head rest =>
    simp only [List.isEmpty_cons, Bool.false_eq_true, if_false, Option.map_eq_some_iff,
      List.find?_eq_some_iff_append, hpos, decide_eq_true_eq, reduceCtorEq, false_and, false_or]
    constructor
    · rintro ⟨line, ⟨hzero, before, after, hsplit, hbefore⟩, rfl⟩
      exact ⟨before, line, after, hsplit, hbefore, hzero, by rw [hzero]⟩
    · rintro ⟨before, line, after, hsplit, hbefore, hzero, rfl⟩
      exact ⟨line, ⟨hzero, before, after, hsplit, hbefore⟩, by rw [hzero]⟩

theorem Refuses.of_objection (h : Reservation.objection lines = some e) :
    l.Refuses store lines e := by
  rcases objection_eq_some_iff.1 h with ⟨hnone, rfl⟩ | ⟨_, line, _, hsplit, hpos, hzero, rfl⟩
  · exact .nothing hnone
  · exact .empty hsplit hpos hzero

theorem FirstShort.unique {p q : ProductId} (h : l.FirstShort lines p)
    (h' : l.FirstShort lines q) : p = q := by
  obtain ⟨a, ha, rfl⟩ := h.asked
  obtain ⟨b, hb, rfl⟩ := h'.asked
  have hab := h'.least a ha h.short
  have hba := h.least b hb h'.short
  rw [← ProductId.compare_eq_lt_iff] at hab hba
  cases hcompare : compare a.product b.product with
  | eq => exact Std.LawfulEqOrd.eq_of_compare hcompare
  | lt => exact absurd hcompare hab
  | gt => exact absurd (Std.OrientedCmp.lt_of_gt hcompare) hba

/-- The reasons to refuse, in the order in which they count. -/
theorem Refuses.cases_objection (h : l.Refuses store lines e) :
    Reservation.objection lines = some e ∨
      Reservation.objection lines = none ∧ l.isOpen store = false ∧ e = .storeClosed store ∨
      Reservation.objection lines = none ∧ l.isOpen store = true ∧
        ∃ p total, l.FirstShort lines p ∧ total.toNat = StockLine.quantityOf p lines ∧
          e = .insufficientStock p total (l.stockOf p) := by
  cases h with
  | nothing h => exact .inl (objection_eq_some_iff.2 (.inl ⟨h, rfl⟩))
  | empty split positive zero =>
    exact .inl (objection_eq_some_iff.2 (.inr ⟨_, _, _, split, positive, zero, rfl⟩))
  | closed asked positive closed =>
    exact .inr (.inl ⟨Reservation.objection_eq_none_iff.2 ⟨asked, positive⟩, closed, rfl⟩)
  | short asked positive isOpen first exact =>
    exact .inr (.inr ⟨Reservation.objection_eq_none_iff.2 ⟨asked, positive⟩, isOpen, _, _, first,
      exact, rfl⟩)

theorem Refuses.unique {e' : StockError} (h : l.Refuses store lines e)
    (h' : l.Refuses store lines e') : e = e' := by
  rcases h.cases_objection with h | ⟨h, hstore, he⟩ | ⟨h, hstore, p, n, hp, hn, he⟩ <;>
    rcases h'.cases_objection with h' | ⟨h', hstore', he'⟩ | ⟨h', hstore', q, k, hq, hk, he'⟩
  case inr.inr.inr.inr =>
    obtain rfl := hp.unique hq
    rw [he, he', UInt32.toNat_inj.1 (hn.trans hk.symm)]
  -- in all other cases the stage decides
  all_goals simp_all

theorem Grants.not_refuses (h : l.Grants store lines) : ¬ l.Refuses store lines e := by
  have hobjection := Reservation.objection_eq_none_iff.2 ⟨h.asked, h.positive⟩
  intro hrefuses
  rcases hrefuses.cases_objection with h' | ⟨-, hclosed, -⟩ | ⟨-, -, p, total, hp, -⟩
  · rw [hobjection] at h'
    cases h'
  · rw [h.isOpen] at hclosed
    cases hclosed
  · obtain ⟨line, hline, rfl⟩ := hp.asked
    exact hp.short (h.covers line hline)

/-! ## What lines that were taken out leave -/

theorem Drawn.available?_eq {ls : List StockLine} (h : l.Drawn m ls) (p : ProductId) :
    m.available? p = (l.available? p).map (· - (StockLine.quantityOf p ls : Int)) := by
  have hstock := h.stock p
  have hknown := h.known p
  simp only [stockOf] at hstock
  cases hm : m.available? p <;> cases hl : l.available? p <;> simp_all

theorem Drawn.covers_iff {ls : List StockLine} (h : l.Drawn m ls) {p : ProductId} {n : Nat}
    (hp : ∀ line ∈ ls, line.product ≠ p) : m.Covers p n ↔ l.Covers p n := by
  rw [Covers, Covers, h.available?_eq, StockLine.quantityOf_eq_zero hp]
  simp

end Ledger

namespace Reservation

open Stock Ledger

variable {l : Ledger} {now : Instant} {store : StoreId} {lines : List StockLine}

/-! ## Drawing lines -/

/-- While no write is made to fail, a line is taken exactly if the ledger covers it. -/
theorem yields_take_of_unforced (hforced : l.forcedConflicts = 0) (budget : RetryBudget)
    (line : StockLine) :
    (take budget line).Yields (answer now)
      (fun r m => match r with
        | .ok () => l.Covers line.product line.quantity.toNat ∧
            m = l.write line.product (l.stockOf line.product - line.quantity.toNat)
        | .error e => ¬ l.Covers line.product line.quantity.toNat ∧ m = l ∧
            e = .insufficientStock line.product line.quantity (l.stockOf line.product)) l := by
  obtain ⟨left, hleft⟩ := Nat.exists_eq_add_one.2 budget.attempts_pos
  rw [take, yields_bind, Counter.update, hleft, Counter.updateAfter, yields_bind, yields_level]
  cases hlevel : l.level? line.product with
  | none =>
    have hnone : l.available? line.product = none := by rw [available?, hlevel, Option.map_none]
    refine ⟨?_, rfl, ?_⟩
    · simp [Covers, hnone]
    · rw [stockOf, hnone, Option.getD_none]
  | some level =>
    have hsome : l.available? line.product = some level.available := by
      rw [available?, hlevel, Option.map_some]
    have hstock : l.stockOf line.product = level.available := by
      rw [stockOf, hsome, Option.getD_some]
    have hcovers : l.Covers line.product line.quantity.toNat ↔
        0 ≤ level.available - line.quantity.toNat := by
      simp [Covers, hsome]
    dsimp only
    unfold Counter.remainder?
    by_cases henough : 0 ≤ level.available - line.quantity.toNat
    · have hcas : l.compareAndSet line.product level.revision
          (level.available - line.quantity.toNat) =
            (true, l.write line.product (level.available - line.quantity.toNat)) := by
        simp [Ledger.compareAndSet, hforced, hlevel]
      rw [if_pos henough]
      dsimp only
      rw [yields_bind, yields_compareAndSet, hcas, hstock]
      exact ⟨hcovers.2 henough, rfl⟩
    · rw [if_neg henough, hstock]
      exact ⟨mt hcovers.1 henough, rfl, rfl⟩

/-- While no write is made to fail, lines of different products are all taken if the ledger covers
each of them. Otherwise none is, and the first that is not covered is to blame. -/
theorem yields_takeAll_of_unforced {l₀ : Ledger} {taken : List StockLine} (budget : RetryBudget)
    (ls : List StockLine) (hinc : l₀.incrementsFail = false) (hforced : l.forcedConflicts = 0)
    (h : l₀.Drawn l taken) (hapart : (taken ++ ls).Pairwise fun a b => a.product ≠ b.product) :
    (takeAll budget taken ls).Yields (answer now)
      (fun r m => m.forcedConflicts = 0 ∧ match r with
        | .ok () => (∀ line ∈ ls, l₀.Covers line.product line.quantity.toNat) ∧
            l₀.Drawn m (taken ++ ls)
        | .error e => l₀.Drawn m [] ∧ ∃ before line after, ls = before ++ line :: after ∧
            (∀ a ∈ before, l₀.Covers a.product a.quantity.toNat) ∧
            ¬ l₀.Covers line.product line.quantity.toNat ∧
            e = .insufficientStock line.product line.quantity (l₀.stockOf line.product)) l := by
  induction ls generalizing l taken with
  | nil => exact ⟨hforced, nofun, (List.append_nil taken).symm ▸ h⟩
  | cons line ls ih =>
    -- what was taken before is of other products, so the counter of this one is untouched
    have hother : ∀ a ∈ taken, a.product ≠ line.product := fun a ha =>
      (List.pairwise_append.1 hapart).2.2 a ha line (List.mem_cons_self ..)
    have hcovers := h.covers_iff (n := line.quantity.toNat) hother
    have hstock : l.stockOf line.product = l₀.stockOf line.product := by
      have := h.stock line.product
      rw [StockLine.quantityOf_eq_zero hother] at this
      omega
    refine yields_bind.2 ((yields_take_of_unforced hforced budget line).mono ?_)
    intro result m hm
    cases result with
    | error e =>
      obtain ⟨hshort, rfl, rfl⟩ := hm
      refine yields_bind.2 ((yields_giveBack taken (h.increments.trans hinc)).mono ?_)
      intro _ k hk
      subst hk
      refine ⟨(forcedConflicts_deposit ..).trans hforced, h.deposit, [], line, ls, rfl, nofun,
        mt hcovers.2 hshort, ?_⟩
      rw [hstock]
    | ok _ =>
      obtain ⟨henough, rfl⟩ := hm
      have hknown : (l.available? line.product).isSome = true := by
        obtain ⟨available, hsome, -⟩ := henough
        rw [hsome, Option.isSome_some]
      have hnext : l₀.Drawn (l.write line.product
          (l.stockOf line.product - line.quantity.toNat)) (taken ++ [line]) :=
        h.write hknown (by omega)
      rw [List.append_cons] at hapart ⊢
      refine (ih (l := l.write line.product (l.stockOf line.product - line.quantity.toNat)) hforced
        hnext hapart).mono ?_
      intro result m hm
      cases result with
      | ok _ => exact ⟨hm.1, List.forall_mem_cons.2 ⟨hcovers.1 henough, hm.2.1⟩, hm.2.2⟩
      | error e =>
        obtain ⟨hm, hundone, before, short, after, rfl, hbefore, hshort, he⟩ := hm
        exact ⟨hm, hundone, line :: before, short, after, rfl,
          List.forall_mem_cons.2 ⟨hcovers.1 henough, hbefore⟩, hshort, he⟩

/-- Of merged lines, the first that is not covered is of the product that is short first. -/
theorem firstShort_of_merge (hfits : StockLine.Fits lines) {before after : List StockLine}
    {line : StockLine} (hsplit : StockLine.merge lines = before ++ line :: after)
    (hbefore : ∀ a ∈ before, l.Covers a.product a.quantity.toNat)
    (hshort : ¬ l.Covers line.product line.quantity.toNat) :
    l.FirstShort lines line.product ∧
      line.quantity.toNat = StockLine.quantityOf line.product lines := by
  have hmem : line ∈ StockLine.merge lines := hsplit ▸ List.mem_append_right _ (.head _)
  obtain ⟨hasked, htotal⟩ := (StockLine.mem_merge_iff hfits).1 hmem
  refine ⟨⟨hasked, htotal ▸ hshort, fun a ha hlacks hlt => ?_⟩, htotal⟩
  obtain ⟨b, hb, hba⟩ := StockLine.exists_mem_merge_iff.2 ⟨a, ha, rfl⟩
  have htotalb := ((StockLine.mem_merge_iff hfits).1 hb).2
  rw [← hba, ← htotalb] at hlacks
  rw [← hba, ← ProductId.compare_eq_lt_iff] at hlt
  have hsorted := StockLine.pairwise_merge lines
  rw [hsplit] at hb hsorted
  rcases List.mem_append.1 hb with hb | hb
  · exact hlacks (hbefore b hb)
  · have hle : ¬ compare b.product line.product = .lt := by
      rcases List.mem_cons.1 hb with rfl | hb
      · simp [Std.ReflOrd.compare_self]
      · have hgt := List.rel_of_pairwise_cons (List.pairwise_append.1 hsorted).2.1 hb
        rw [Std.OrientedCmp.gt_of_lt hgt]
        decide
    exact hle hlt

/-- While no write is made to fail, lines are drawn exactly if the ledger grants them, and the error
is the reason to refuse them. -/
theorem yields_draw (hinc : l.incrementsFail = false) (hforced : l.forcedConflicts = 0)
    (hfits : StockLine.Fits lines) (budget : RetryBudget) (store : StoreId) :
    (draw budget store lines).Yields (answer now)
      (fun r m => m.forcedConflicts = 0 ∧ match r with
        | .ok () => l.Grants store lines ∧ l.Drawn m (StockLine.merge lines)
        | .error e => l.Refuses store lines e ∧ l.Drawn m []) l := by
  unfold draw
  cases hobjection : objection lines with
  | some e => exact ⟨hforced, .of_objection hobjection, .refl l⟩
  | none =>
    obtain ⟨hasked, hpositive⟩ := objection_eq_none_iff.1 hobjection
    rw [yields_bind, yields_isOpen]
    cases hopen : l.isOpen store with
    | false => exact ⟨hforced, .closed hasked hpositive hopen, .refl l⟩
    | true =>
      have hapart : (StockLine.merge lines).Pairwise fun a b => a.product ≠ b.product :=
        (StockLine.pairwise_merge lines).imp fun {a b} hab heq => by
          rw [heq, Std.ReflOrd.compare_self] at hab
          cases hab
      refine (yields_takeAll_of_unforced budget _ hinc hforced (.refl l) hapart).mono ?_
      rintro (e | _) m ⟨hm, hdone⟩
      · obtain ⟨hundone, before, line, after, hsplit, hbefore, hshort, rfl⟩ := hdone
        obtain ⟨hfirst, htotal⟩ := firstShort_of_merge hfits hsplit hbefore hshort
        exact ⟨hm, .short hasked hpositive hopen hfirst htotal, hundone⟩
      · refine ⟨hm, ⟨hasked, hpositive, hopen, fun line hline => ?_⟩, hdone.2⟩
        obtain ⟨merged, hmerged, hproduct⟩ := StockLine.exists_mem_merge_iff.2 ⟨line, hline, rfl⟩
        have htotal := ((StockLine.mem_merge_iff hfits).1 hmerged).2
        rw [← hproduct, ← htotal]
        exact hdone.1 merged hmerged

end Reservation

namespace Ledger

/-! ## New reservations -/

/-- The ledger `m` is `l` after these lines were reserved at the store under a name that had no
hold. -/
structure Reserves (l m : Ledger) (store : StoreId) (lines : List StockLine) (id : ReservationId)
    (now : Instant) (ttl : Span) (h : Hold) : Prop where
  hold : h.id = id ∧ h.store = store ∧ h.createdAt = now ∧ now.add? ttl = some h.expiresAt
  sorted : h.lines.Pairwise fun a b => Text.bytes a.product.text < Text.bytes b.product.text
  merged : ∀ line, line ∈ h.lines ↔ (∃ asked ∈ lines, asked.product = line.product) ∧
    line.quantity.toNat = StockLine.quantityOf line.product lines
  available : ∀ p, m.available? p =
    (l.available? p).map (· - (StockLine.quantityOf p lines : Int))
  fresh : l.holds.get? id = none ∧ l.deadlines.get? id = none
  holds : m.holds = l.holds.insert id h
  index : m.index = l.index.insert h.expiry h
  deadlines : m.deadlines = l.deadlines.insert id h.expiresAt
  openStores : m.openStores = l.openStores
  switches : m.incrementsFail = l.incrementsFail ∧ m.forcedConflicts = l.forcedConflicts

variable {l m : Ledger} {lines : List StockLine} {id : ReservationId}

theorem Drawn.reserves (hm : l.Drawn m (StockLine.merge lines))
    (hforced : m.forcedConflicts = l.forcedConflicts) (hfits : StockLine.Fits lines)
    (hid : l.Unknown id) (store : StoreId) {now deadline : Instant} {ttl : Span}
    (hdeadline : now.add? ttl = some deadline) :
    l.Reserves (m.withHold ⟨id, store, StockLine.merge lines, now, deadline⟩) store lines id now
      ttl ⟨id, store, StockLine.merge lines, now, deadline⟩ where
  hold := ⟨rfl, rfl, rfl, hdeadline⟩
  sorted := (StockLine.pairwise_merge lines).imp ProductId.compare_eq_lt_iff.1
  merged _ := StockLine.mem_merge_iff hfits
  available p := by
    rw [← hfits.quantityOf_merge]
    exact hm.available?_eq p
  fresh := ⟨hid.holds, hid.deadlines⟩
  holds := congrArg (Table.insert · _ _) hm.holds
  index := congrArg (Table.insert · _ _) hm.index
  deadlines := congrArg (Table.insert · _ _) hm.deadlines
  openStores := hm.openStores
  switches := ⟨hm.increments, hforced⟩

/-- A reservation that is granted is made, or breaks off with its lines if the calendar does not
have the deadline. One that is refused changes nothing. -/
theorem reserve_cases (hunknown : l.Unknown id) (hinc : l.incrementsFail = false)
    (hforced : l.forcedConflicts = 0) (hfits : StockLine.Fits lines) (budget : RetryBudget)
    (store : StoreId) (ttl : Span) (now : Instant) :
    let reserved := (Reservation.reserve budget store lines id ttl).run (Stock.answer now) l
    (∃ h, reserved.1 = .answered (.ok h) ∧ l.Grants store lines ∧
        l.Reserves reserved.2 store lines id now ttl h) ∨
      (reserved.1 = .brokeOff ∧ l.Grants store lines ∧ now.add? ttl = none ∧
        l.Drawn reserved.2 (StockLine.merge lines)) ∨
      ∃ e, reserved.1 = .answered (.error e) ∧ l.Refuses store lines e ∧ l.Alike reserved.2 := by
  intro reserved
  have hrun : reserved = Reservation.book
      (Reservation.made? store (StockLine.merge lines) id ttl now)
      ((Reservation.draw budget store lines).run (Stock.answer now) l) :=
    Reservation.run_reserve_of_unknown hunknown hinc budget store lines ttl
  have hdraw : (Reservation.draw budget store lines).Yields (Stock.answer now) _ l :=
    Reservation.yields_draw hinc hforced hfits budget store
  unfold Yields at hdraw
  clear_value reserved
  generalize (Reservation.draw budget store lines).run (Stock.answer now) l = drawn at hrun hdraw
  obtain ⟨result, m⟩ := drawn
  obtain ⟨hm, hresult⟩ := hdraw
  cases result with
  | error e =>
    obtain ⟨hrefuses, hundone⟩ := hresult
    rw [Reservation.book_error] at hrun
    subst hrun
    exact .inr (.inr ⟨e, rfl, hrefuses, hundone.alike⟩)
  | ok _ =>
    obtain ⟨hgrants, hdrawn⟩ := hresult
    rw [Reservation.made?] at hrun
    cases hdeadline : now.add? ttl with
    | none =>
      rw [hdeadline] at hrun
      subst hrun
      exact .inr (.inl ⟨rfl, hgrants, rfl, hdrawn⟩)
    | some deadline =>
      rw [hdeadline] at hrun
      subst hrun
      exact .inl ⟨_, rfl, hgrants,
        hdrawn.reserves (hm.trans hforced.symm) hfits hunknown store hdeadline⟩

/-- **Reserving is exact, and all or nothing.**

In every ledger that can be reached, and while no write is made to fail, a reservation under a name
that has no hold succeeds exactly if the ledger grants the request, provided that the calendar has
the deadline. Then the hold has the requested products in order, each with its total, and the
counters have lost just that. A request that is not granted is refused with the first reason against
it, and no counter and no hold has changed.

If the calendar does not have the deadline, a request that would be granted breaks off. The counters
have lost its totals then, although nothing is held.
-/
theorem reserve_is_exact (hl : l.Reachable) (hinc : l.incrementsFail = false)
    (hforced : l.forcedConflicts = 0) (hfits : StockLine.Fits lines)
    (hid : ∀ deadline, l.index.get? ⟨deadline, id⟩ = none) (budget : RetryBudget) (store : StoreId)
    (ttl : Span) (now : Instant) :
    let reserved :=
      (Reservation.reserve budget store lines id ttl).run (Stock.answer now) l
    ((∃ h, reserved.1 = .answered (.ok h)) ↔ l.Grants store lines ∧ (now.add? ttl).isSome) ∧
      (∀ e, reserved.1 = .answered (.error e) ↔ l.Refuses store lines e) ∧
      (reserved.1 = .brokeOff ↔ l.Grants store lines ∧ now.add? ttl = none) ∧
      (∀ h, reserved.1 = .answered (.ok h) → l.Reserves reserved.2 store lines id now ttl h) ∧
      (∀ e, reserved.1 = .answered (.error e) → l.Alike reserved.2) ∧
      (reserved.1 = .brokeOff → l.Drawn reserved.2 (StockLine.merge lines)) := by
  intro reserved
  have c := hl.consistent
  have hunknown : l.Unknown id := by
    refine c.unknown (Option.eq_none_iff_forall_ne_some.2 fun h hh => ?_)
    obtain ⟨rfl, hplace⟩ := c.listed?_eq_some_iff.1 hh
    rw [Hold.expiry, hid] at hplace
    cases hplace
  rcases reserve_cases hunknown hinc hforced hfits budget store ttl now with
    ⟨h, hok, hgrants, hreserves⟩ | ⟨hbroke, hgrants, hdeadline, hdrawn⟩ |
      ⟨e, herror, hrefuses, halike⟩
  · have hdeadline := hreserves.hold.2.2.2
    simpa [reserved, hok, hgrants, hdeadline, hgrants.not_refuses] using hreserves
  · simpa [reserved, hbroke, hgrants, hdeadline, hgrants.not_refuses] using hdrawn
  · have hnot : ¬ l.Grants store lines := fun hgrants => hgrants.not_refuses hrefuses
    have hunique : ∀ e', e = e' ↔ l.Refuses store lines e' := fun e' =>
      ⟨fun he => he ▸ hrefuses, hrefuses.unique⟩
    simpa [reserved, herror, hnot, hunique] using fun _ _ => halike

/-- More widgets than there are, with a gadget among them. -/
def mixedLines : List StockLine := [⟨⟨"widget"⟩, 3⟩, ⟨⟨"gadget"⟩, 1⟩, ⟨⟨"widget"⟩, 3⟩]

def fourWidgets : List StockLine := [⟨⟨"widget"⟩, 2⟩, ⟨⟨"widget"⟩, 2⟩]

/-- Of five widgets four can be reserved. With a gadget among six it is the gadget that is short,
as its name comes first. -/
theorem widgets_are_reserved_exactly :
    let answers := fun lines =>
      (Reservation.reserve (.ofNat 10) ⟨"store"⟩ lines ⟨"first"⟩ (.ofMinutes 15)).run
        (Stock.answer (.ofSecond 0)) Stock.fiveWidgets
    Stock.fiveWidgets.Reachable ∧
      (∃ h, (answers fourWidgets).1 = .answered (.ok h) ∧
        Stock.fiveWidgets.Reserves (answers fourWidgets).2 ⟨"store"⟩ fourWidgets ⟨"first"⟩
          (.ofSecond 0) (.ofMinutes 15) h) ∧
      (answers mixedLines).1 = .answered (.error (.insufficientStock ⟨"gadget"⟩ 1 0)) ∧
      Stock.fiveWidgets.Alike (answers mixedLines).2 := by
  intro answers
  have hl : Stock.fiveWidgets.Reachable := (Reachable.empty.setStock _ _).openStore _
  have hid : ∀ deadline, Stock.fiveWidgets.index.get? ⟨deadline, ⟨"first"⟩⟩ = none := fun _ => rfl
  have hfour : StockLine.Fits fourWidgets := by
    intro p
    simp only [fourWidgets, StockLine.quantityOf_cons, StockLine.quantityOf_nil]
    split_ifs <;> decide
  have hmixed : StockLine.Fits mixedLines := by
    intro p
    simp only [mixedLines, StockLine.quantityOf_cons, StockLine.quantityOf_nil]
    split_ifs <;> decide
  obtain ⟨hgranted, -, -, hreserves, -⟩ :=
    reserve_is_exact hl rfl rfl hfour hid (.ofNat 10) ⟨"store"⟩ (.ofMinutes 15) (.ofSecond 0)
  obtain ⟨-, hrefused, -, -, halike, -⟩ :=
    reserve_is_exact hl rfl rfl hmixed hid (.ofNat 10) ⟨"store"⟩ (.ofMinutes 15) (.ofSecond 0)
  have hgrants : Stock.fiveWidgets.Grants ⟨"store"⟩ fourWidgets := by
    refine ⟨by decide, by decide, by decide, fun line hline => ?_⟩
    have hwidget : line.product = ⟨"widget"⟩ := by
      revert line
      decide
    rw [hwidget]
    exact ⟨5, by decide, by decide⟩
  have hrefuses : Stock.fiveWidgets.Refuses ⟨"store"⟩ mixedLines
      (.insufficientStock ⟨"gadget"⟩ 1 (Stock.fiveWidgets.stockOf ⟨"gadget"⟩)) := by
    refine .short (by decide) (by decide) (by decide) ⟨by decide, ?_, ?_⟩ (by decide)
    · rintro ⟨available, hknown, -⟩
      have hunknown : Stock.fiveWidgets.available? ⟨"gadget"⟩ = none := by decide
      rw [hunknown] at hknown
      cases hknown
    · have hleast : ∀ line ∈ mixedLines, compare line.product ⟨"gadget"⟩ ≠ .lt := by decide
      exact fun line hline _ => mt ProductId.compare_eq_lt_iff.2 (hleast line hline)
  obtain ⟨h, hh⟩ := hgranted.2 ⟨hgrants, by decide⟩
  have herror := (hrefused _).2 hrefuses
  exact ⟨hl, ⟨h, hh, hreserves h hh⟩, herror, halike _ herror⟩

end Ledger
end Fulfilment
