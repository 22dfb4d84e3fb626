import Fulfilment.Proofs.Text.Spelling
import Fulfilment.Proofs.Text.Trimming
import Fulfilment.Service.Settings
import Mathlib.Data.List.Forall2

/-!
# What a seed says

The stock of a seed is read segment by segment. All of it follows from two equations: a text around
a comma says what its two sides say, one after the other (`readStock_append`), and a segment is read
exactly if it is well formed (`tells_iff`). So entries are read back in order whatever blanks stand
around their parts, and a segment that is not well formed takes nothing away from the others. In
empty stores a product then has the quantity that the seed says last.
-/
namespace Fulfilment

open Numeral Text

namespace Seed

/-! ## Segments -/

/-- An entry that a seed can have. The name of its product is not empty, has no blank at either end
and has neither of the marks between entries and inside them, and its quantity is a count of
63 bits. -/
structure IsListable (entry : ProductId × Int) : Prop where
  named : entry.1.text.toList ≠ []
  trimmed : IsTrimmed entry.1.text.toList
  no_comma : ',' ∉ entry.1.text.toList
  no_colon : ':' ∉ entry.1.text.toList
  nonneg : 0 ≤ entry.2
  bounded : entry.2 ≤ 9223372036854775807

instance (entry : ProductId × Int) : Decidable (IsListable entry) :=
  decidable_of_iff
    (entry.1.text.toList ≠ [] ∧ trimChars entry.1.text.toList = entry.1.text.toList ∧
      ',' ∉ entry.1.text.toList ∧ ':' ∉ entry.1.text.toList ∧ 0 ≤ entry.2 ∧
        entry.2 ≤ 9223372036854775807)
    ⟨fun ⟨hne, htrim, hcomma, hcolon, hnonneg, hle⟩ =>
      ⟨hne, isTrimmed_iff.2 htrim, hcomma, hcolon, hnonneg, hle⟩,
    fun ⟨hne, htrim, hcomma, hcolon, hnonneg, hle⟩ =>
      ⟨hne, isTrimmed_iff.1 htrim, hcomma, hcolon, hnonneg, hle⟩⟩

/-- The segment has the name before a colon and the numeral after it, each with any blanks around
it. -/
def Pairs (segment name numeral : List Char) : Prop :=
  ∃ left right, segment = left ++ ':' :: right ∧ Padded name left ∧ Padded numeral right

/-- The entry is written as the segment: its product's name and its quantity in decimal digits. -/
def WrittenAs (entry : ProductId × Int) (segment : String) : Prop :=
  Pairs segment.toList entry.1.text.toList (toString entry.2).toList

/-- The segment is well formed and tells the entry, whose quantity may also have a sign and zeros in
front. -/
def Tells (segment : String) (entry : ProductId × Int) : Prop :=
  IsListable entry ∧
    ∃ numeral, SpellsInteger entry.2 numeral ∧ Pairs segment.toList entry.1.text.toList numeral

variable {cs : List Char} {segment : String} {entry : ProductId × Int}

theorem WrittenAs.tells (h : WrittenAs entry segment) (hlist : IsListable entry) :
    Tells segment entry :=
  ⟨hlist, _, spellsInteger_toString entry.2, h⟩

theorem plain_of_spellsInteger {i : Int} (h : SpellsInteger i cs) {c : Char} (hc : c ∈ cs) :
    isBlank c = false ∧ c ≠ ',' ∧ c ≠ ':' := by
  rcases h.mem hc with hdigit | rfl | rfl
  · exact ⟨isBlank_of_isDigit hdigit, by rintro rfl; revert hdigit; decide,
      by rintro rfl; revert hdigit; decide⟩
  · decide
  · decide

theorem Tells.no_comma (h : Tells segment entry) : ',' ∉ segment.toList := by
  obtain ⟨hlist, numeral, hspells, left, right, hsegment, hleft, hright⟩ := h
  have hname : ',' ∉ left := (hleft.mem_iff (by decide)).not.2 hlist.no_comma
  have hquantity : ',' ∉ right :=
    (hright.mem_iff (by decide)).not.2 fun hc => (plain_of_spellsInteger hspells hc).2.1 rfl
  simp [hsegment, hname, hquantity]

/-! ## Reading a segment -/

/-- A product is read where its name stands between blanks. -/
theorem readProduct_eq_some_iff {p : ProductId} :
    readProduct cs = some p ↔
      p.text.toList ≠ [] ∧ IsTrimmed p.text.toList ∧ Padded p.text.toList cs := by
  rw [readProduct, ← trimChars_eq_iff]
  constructor
  · intro h
    split at h
    · cases h
    · next hne =>
      obtain rfl := Option.some.inj h
      rw [String.toList_ofList]
      exact ⟨by simpa using hne, rfl⟩
  · rintro ⟨hne, hname⟩
    rw [hname, if_neg (by simpa using hne), String.ofList_toList]

/-- A quantity is read where a numeral that spells a count stands between blanks. -/
theorem readQuantity_eq_some_iff {n : Int} :
    readQuantity cs = some n ↔
      (0 ≤ n ∧ n ≤ 9223372036854775807) ∧
        ∃ numeral, SpellsInteger n numeral ∧ Padded numeral cs := by
  constructor
  · intro h
    obtain ⟨m, hm, hrange⟩ := Option.bind_eq_some_iff.1 h
    split at hrange
    · next hcount =>
      obtain rfl := Option.some.inj hrange
      exact ⟨hcount, _, integer?_eq_some_iff.1 hm, padded_trimChars cs⟩
    · cases hrange
  · rintro ⟨hcount, numeral, hspells, hpad⟩
    have htrimmed : IsTrimmed numeral :=
      isTrimmed_of_forall fun c hc => (plain_of_spellsInteger hspells hc).1
    rw [readQuantity, htrimmed.trimChars_eq hpad, integer?_eq_some_iff.2 hspells,
      Option.bind_eq_bind, Option.bind_some, if_pos hcount]

/-- A segment tells an entry exactly if it has no commas and is read as the entry. -/
theorem tells_iff :
    Tells segment entry ↔ ',' ∉ segment.toList ∧ readEntry segment.toList = some entry := by
  obtain ⟨p, n⟩ := entry
  constructor
  · intro h
    refine ⟨h.no_comma, ?_⟩
    obtain ⟨hlist, numeral, hspells, left, right, hsegment, hleft, hright⟩ := h
    have hcolon : ':' ∉ left := (hleft.mem_iff (by decide)).not.2 hlist.no_colon
    have hproduct : readProduct left = some p :=
      readProduct_eq_some_iff.2 ⟨hlist.named, hlist.trimmed, hleft⟩
    have hquantity : readQuantity right = some n :=
      readQuantity_eq_some_iff.2 ⟨⟨hlist.nonneg, hlist.bounded⟩, numeral, hspells, hright⟩
    simp [readEntry, cut?_eq_some_iff.2 ⟨hsegment, hcolon⟩, hproduct, hquantity]
  · rintro ⟨hcomma, h⟩
    obtain ⟨⟨left, right⟩, hcut, hread⟩ := Option.bind_eq_some_iff.1 h
    obtain ⟨p', hproduct, hread⟩ := Option.bind_eq_some_iff.1 hread
    obtain ⟨n', hquantity, hread⟩ := Option.bind_eq_some_iff.1 hread
    obtain ⟨rfl, rfl⟩ := Prod.mk.inj (Option.some.inj hread)
    obtain ⟨hsegment, hcolon⟩ := cut?_eq_some_iff.1 hcut
    obtain ⟨hnamed, htrimmed, hleft⟩ := readProduct_eq_some_iff.1 hproduct
    obtain ⟨⟨hnonneg, hle⟩, numeral, hspells, hright⟩ := readQuantity_eq_some_iff.1 hquantity
    have hname : ',' ∉ left := fun hc => hcomma (by simp [hsegment, hc])
    exact ⟨⟨hnamed, htrimmed, (hleft.mem_iff (by decide)).not.1 hname,
      (hleft.mem_iff (by decide)).not.1 hcolon, hnonneg, hle⟩, numeral, hspells, left, right,
      hsegment, hleft, hright⟩

/-! ## Reading a text -/

theorem readStock_append (a b : String) :
    readStock (a ++ "," ++ b) = readStock a ++ readStock b := by
  have hcomma : (a ++ "," ++ b).toList = a.toList ++ ',' :: b.toList := by simp
  rw [readStock, hcomma, pieces_append_cons, List.filterMap_append, readStock, readStock]

/-- Texts between commas say what they say one by one. -/
theorem readStock_intercalate (texts : List String) :
    readStock (",".intercalate texts) = texts.flatMap readStock := by
  induction texts with
  | nil => rfl
  | cons a texts ih =>
    cases texts with
    | nil => simp
    | cons b texts =>
      rw [String.intercalate_cons_cons, readStock_append, ih]
      exact (List.flatMap_cons ..).symm

theorem readStock_of_tells (h : Tells segment entry) : readStock segment = [entry] := by
  obtain ⟨hcomma, hread⟩ := tells_iff.1 h
  rw [readStock, pieces_of_notMem hcomma, List.filterMap_cons_some hread, List.filterMap_nil]

theorem readStock_of_not_tells (hcomma : ',' ∉ segment.toList) (h : ∀ e, ¬ Tells segment e) :
    readStock segment = [] := by
  have hnone : readEntry segment.toList = none :=
    Option.eq_none_iff_forall_ne_some.2 fun e he => h e (tells_iff.2 ⟨hcomma, he⟩)
  rw [readStock, pieces_of_notMem hcomma, List.filterMap_cons_none hnone, List.filterMap_nil]

/-- Entries are read back from the segments that tell them. -/
theorem readStock_intercalate_of_tells {entries : List (ProductId × Int)} {segments : List String}
    (h : List.Forall₂ (flip Tells) entries segments) :
    readStock (",".intercalate segments) = entries := by
  rw [readStock_intercalate]
  induction h with
  | nil => rfl
  | cons htells _ ih => rw [List.flatMap_cons, readStock_of_tells htells, ih, List.singleton_append]

theorem isListable_of_mem_readStock {text : String} (h : entry ∈ readStock text) :
    IsListable entry := by
  obtain ⟨piece, hpiece, hread⟩ := List.mem_filterMap.1 h
  have hcomma := notMem_of_mem_pieces piece hpiece
  have htells : Tells (String.ofList piece) entry :=
    tells_iff.2 ⟨by rwa [String.toList_ofList], by rwa [String.toList_ofList]⟩
  exact htells.1

end Seed

/-- The settings have a seed if they name a store, and its stock is what they say of it. -/
theorem Settings.seed_ofLookup_eq_some_iff {lookup : String → Option String} {seed : Seed} :
    (Settings.ofLookup lookup).seed = some seed ↔
      ∃ store, lookup "SEED_STORE" = some store ∧ trim store ≠ "" ∧
        seed = ⟨⟨trim store⟩, Seed.readStock ((lookup "SEED_STOCK").getD "")⟩ := by
  constructor
  · intro h
    obtain ⟨store, hstore, hread⟩ := Option.bind_eq_some_iff.1 h
    dsimp only at hread
    split at hread
    · cases hread
    · next hne =>
      obtain rfl := Option.some.inj hread
      exact ⟨store, hstore, by simpa using hne, rfl⟩
  · rintro ⟨store, hstore, hne, rfl⟩
    have hread : (Settings.ofLookup lookup).seed = readSeed lookup := rfl
    rw [hread, readSeed, hstore, Option.bind_eq_bind, Option.bind_some,
      if_neg (by simpa using hne)]

/-! ## Stocking a store -/

/-- A counter after some writes has the last value that was written to it. -/
theorem Ledger.available?_foldl_write (stock : List (ProductId × Int)) (l : Ledger)
    (p : ProductId) :
    (stock.foldl (fun l (q, n) => l.write q n) l).available? p =
      (stock.reverse.lookup p).or (l.available? p) := by
  induction stock generalizing l with
  | nil => rfl
  | cons entry stock ih =>
    obtain ⟨q, n⟩ := entry
    rw [List.foldl_cons, ih, available?_write, List.reverse_cons, List.lookup_append,
      Option.or_assoc]
    by_cases hp : p = q
    · simp [hp]
    · simp [List.lookup_cons, hp, beq_eq_false_iff_ne.2 hp]

theorem Ledger.openStores_foldl_write (stock : List (ProductId × Int)) (l : Ledger) :
    (stock.foldl (fun l (q, n) => l.write q n) l).openStores = l.openStores := by
  induction stock generalizing l with
  | nil => rfl
  | cons entry stock ih => rw [List.foldl_cons, ih]; rfl

theorem exists_lookup_reverse_iff {stock : List (ProductId × Int)} {p : ProductId} :
    (∃ n, stock.reverse.lookup p = some n) ↔ p ∈ stock.map Prod.fst := by
  rw [← Option.isSome_iff_exists, List.lookup_isSome_iff]
  simp

namespace Catalog

/-- A store sells what was added to it and what it sold before. -/
theorem sells_add (c : Catalog) (s t : StoreId) (products : List ProductId) (p : ProductId) :
    (c.add s products).sells t p = true ↔ t = s ∧ p ∈ products ∨ c.sells t p = true := by
  by_cases ht : t = s
  · subst ht
    have hbefore : ((c.stores.get? t).getD ∅).contains p = c.sells t p := by
      rw [sells]
      cases c.stores.get? t <;> rfl
    simp [sells, add, Table.contains_foldl_insert, hbefore]
  · simp [sells, add, Table.get?_insert_of_ne, ht]

theorem hasStore_add (c : Catalog) (s t : StoreId) (products : List ProductId) :
    (c.add s products).hasStore t = true ↔ t = s ∨ c.hasStore t = true :=
  c.stores.contains_insert s t _

end Catalog

namespace Seed

/-- A stocked product has the quantity that the seed says last. -/
theorem available?_apply (seed : Seed) (w : World) (p : ProductId) :
    (seed.apply w).ledger.available? p =
      (seed.stock.reverse.lookup p).or (w.ledger.available? p) :=
  Ledger.available?_foldl_write seed.stock (w.ledger.openStore seed.store) p

theorem isOpen_apply (seed : Seed) (w : World) (s : StoreId) :
    (seed.apply w).ledger.isOpen s = true ↔ s = seed.store ∨ w.ledger.isOpen s = true := by
  have hopen : (seed.apply w).ledger.openStores = w.ledger.openStores.insert seed.store () :=
    Ledger.openStores_foldl_write seed.stock (w.ledger.openStore seed.store)
  rw [Ledger.isOpen, hopen, Table.contains_insert, Ledger.isOpen]

theorem sells_apply (seed : Seed) (w : World) (s : StoreId) (p : ProductId) :
    (seed.apply w).catalog.sells s p = true ↔
      s = seed.store ∧ p ∈ seed.stock.map Prod.fst ∨ w.catalog.sells s p = true :=
  w.catalog.sells_add seed.store s (seed.stock.map Prod.fst) p

theorem hasStore_apply (seed : Seed) (w : World) (s : StoreId) :
    (seed.apply w).catalog.hasStore s = true ↔ s = seed.store ∨ w.catalog.hasStore s = true :=
  w.catalog.hasStore_add seed.store s (seed.stock.map Prod.fst)

/--
**A seed says what it was written to say, and stocks its store with it.**

Entries that are written between commas are read back in order, whatever blanks stand around their
names and their quantities. Of any text, only entries with a proper name and a count are read. Each
segment is read by itself: a well-formed one gives its entry at its place, and one that is not can
stand anywhere between the commas without a difference to the others. The settings have such a seed
exactly if they name a store. In stores that are empty, a product then has the quantity that the
seed says last, exactly the products of the seed are known and sold, and its store is there and
open, and no other.
-/
theorem seed_is_read_and_stocked :
    (∀ (entries : List (ProductId × Int)) (segments : List String),
      (∀ e ∈ entries, IsListable e) → List.Forall₂ WrittenAs entries segments →
        readStock (",".intercalate segments) = entries) ∧
    (∀ text, ∀ e ∈ readStock text, IsListable e) ∧
    (∀ (front : List String) (segment : String) (back : List String) (e : ProductId × Int),
      Tells segment e →
        readStock (",".intercalate (front ++ segment :: back)) =
          readStock (",".intercalate front) ++ e :: readStock (",".intercalate back)) ∧
    (∀ (front : List String) (segment : String) (back : List String),
      ',' ∉ segment.toList → (¬ ∃ e, Tells segment e) →
        readStock (",".intercalate (front ++ segment :: back)) =
          readStock (",".intercalate (front ++ back))) ∧
    (∀ (lookup : String → Option String) (seed : Seed),
      (Settings.ofLookup lookup).seed = some seed ↔
        ∃ store, lookup "SEED_STORE" = some store ∧ trim store ≠ "" ∧
          seed = ⟨⟨trim store⟩, readStock ((lookup "SEED_STOCK").getD "")⟩) ∧
    ∀ (seed : Seed) (w : World), w.ledger = {} → w.catalog = {} →
      let stocked := seed.apply w
      (∀ p, stocked.ledger.available? p = seed.stock.reverse.lookup p) ∧
      (∀ p, (∃ n, stocked.ledger.available? p = some n) ↔ p ∈ seed.stock.map Prod.fst) ∧
      (∀ s p, stocked.catalog.sells s p = true ↔ s = seed.store ∧ p ∈ seed.stock.map Prod.fst) ∧
      (∀ s, stocked.catalog.hasStore s = true ↔ s = seed.store) ∧
      ∀ s, stocked.ledger.isOpen s = true ↔ s = seed.store := by
  refine ⟨fun entries segments hlist hwritten => ?_, fun _ _ => isListable_of_mem_readStock,
    fun front segment back e htells => ?_, fun front segment back hcomma hmalformed => ?_,
    fun _ _ => Settings.seed_ofLookup_eq_some_iff, fun seed w hledger hcatalog => ?_⟩
  · have hboth := (List.forall₂_and_left entries segments).2 ⟨hlist, hwritten⟩
    exact readStock_intercalate_of_tells (hboth.imp fun _ _ h => h.2.tells h.1)
  · simp only [readStock_intercalate, List.flatMap_append, List.flatMap_cons,
      readStock_of_tells htells, List.singleton_append]
  · have hnothing := readStock_of_not_tells hcomma (not_exists.1 hmalformed)
    simp only [readStock_intercalate, List.flatMap_append, List.flatMap_cons, hnothing,
      List.nil_append]
  · have havailable : ∀ p, (seed.apply w).ledger.available? p = seed.stock.reverse.lookup p :=
      fun p => by rw [available?_apply, hledger]; exact Option.or_none
    have hsells : ∀ s p, w.catalog.sells s p = false := fun s p => by rw [hcatalog]; rfl
    have hnone : ∀ s, w.catalog.hasStore s = false := fun s => by rw [hcatalog]; rfl
    have hclosed : ∀ s, w.ledger.isOpen s = false := fun s => by rw [hledger]; rfl
    refine ⟨havailable, fun p => ?_, fun s p => ?_, fun s => ?_, fun s => ?_⟩
    · rw [havailable, exists_lookup_reverse_iff]
    · simp [sells_apply, hsells]
    · simp [hasStore_apply, hnone]
    · simp [isOpen_apply, hclosed]

/-- A seed that says two quantities of widgets. -/
def widgetSeed : Seed := ⟨⟨"store-1"⟩, [(⟨"WIDGET"⟩, 3), (⟨"LAMP"⟩, 5), (⟨"WIDGET"⟩, 0)]⟩

/-- The seed's stock, written with blanks of several kinds. -/
def widgetSegments : List String := ["\u3000WIDGET :\t3", "LAMP:5 ", "WIDGET:0"]

/-- The variables that the settings find the seed in. -/
def widgetVariables : String → Option String
  | "SEED_STORE" => some " store-1 "
  | "SEED_STOCK" => some (",".intercalate widgetSegments)
  | _ => none

/-- The settings have the seed, and the widgets' last quantity is stocked. A cup with less than no
stock makes no difference to the entries around it. -/
theorem widgets_are_seeded :
    let stocked := widgetSeed.apply { clock := .ofSecond 0 }
    (∀ e ∈ widgetSeed.stock, IsListable e) ∧
      List.Forall₂ WrittenAs widgetSeed.stock widgetSegments ∧
      (Settings.ofLookup widgetVariables).seed = some widgetSeed ∧
      (¬ ∃ e, Tells "CUP:-1" e) ∧
      readStock (",".intercalate (["WIDGET:3"] ++ "CUP:-1" :: ["LAMP:5"])) =
        readStock (",".intercalate (["WIDGET:3"] ++ ["LAMP:5"])) ∧
      stocked.ledger.available? ⟨"WIDGET"⟩ = some 0 ∧
      stocked.catalog.sells ⟨"store-1"⟩ ⟨"LAMP"⟩ = true ∧
      ¬ stocked.ledger.isOpen ⟨"store-2"⟩ = true := by
  intro stocked
  obtain ⟨hback, -, -, hpassed, hsettings, hstocked⟩ := seed_is_read_and_stocked
  have hlist : ∀ e ∈ widgetSeed.stock, IsListable e := by decide +kernel
  have padded : ∀ {inner outer : List Char}, trimChars outer = inner → Padded inner outer :=
    fun h => (trimChars_eq_iff.1 h).2
  have hwritten : List.Forall₂ WrittenAs widgetSeed.stock widgetSegments :=
    .cons ⟨"\u3000WIDGET ".toList, "\t3".toList, by decide +kernel, padded (by decide +kernel),
        padded (by decide +kernel)⟩
      (.cons ⟨"LAMP".toList, "5 ".toList, by decide +kernel, padded (by decide +kernel),
          padded (by decide +kernel)⟩
        (.cons ⟨"WIDGET".toList, "0".toList, by decide +kernel, padded (by decide +kernel),
          padded (by decide +kernel)⟩ .nil))
  have hread : readStock (",".intercalate widgetSegments) = widgetSeed.stock :=
    hback _ _ hlist hwritten
  have hmalformed : ¬ ∃ e, Tells "CUP:-1" e := by
    rintro ⟨e, he⟩
    have hnone : readEntry "CUP:-1".toList = none := by decide +kernel
    rw [tells_iff, hnone] at he
    exact absurd he.2 nofun
  obtain ⟨hstock, -, hsold, -, hopen⟩ := hstocked widgetSeed { clock := .ofSecond 0 } rfl rfl
  refine ⟨hlist, hwritten, (hsettings _ _).2 ⟨" store-1 ", rfl, by decide +kernel, ?_⟩, hmalformed,
    hpassed _ _ _ (by decide +kernel) hmalformed, ?_, (hsold _ _).2 ⟨rfl, by decide +kernel⟩, ?_⟩
  · have htrim : trim " store-1 " = "store-1" := by decide +kernel
    rw [htrim, show widgetVariables "SEED_STOCK" = some (",".intercalate widgetSegments) from rfl,
      Option.getD_some, hread]
    rfl
  · rw [hstock]
    decide +kernel
  · rw [hopen]
    decide +kernel

example : readStock "SKU-001:100, SKU-002:5,bad,SKU-003:-1,:4" =
    [(⟨"SKU-001"⟩, 100), (⟨"SKU-002"⟩, 5)] := by decide +kernel

example : readStock "A:+007,B:-0,C:9223372036854775808,D:1:2,E F:9223372036854775807" =
    [(⟨"A"⟩, 7), (⟨"B"⟩, 0), (⟨"E F"⟩, 9223372036854775807)] := by decide +kernel

end Seed
end Fulfilment
