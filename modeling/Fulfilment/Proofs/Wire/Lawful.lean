import Fulfilment.Proofs.Text.Uuid
import Fulfilment.Proofs.Time.Rfc3339
import Fulfilment.Wire.Ident

/-!
# Lawful wire formats

A wire format is lawful if every value is read back from its document, and if no value is written as
`null`, so that an optional value is told from none (`LawfulWire`). A record of lawful members is
read back member by member: its object has each name once (`readRecord_record`), and each reader
takes the member that was written in its place (`run_required`, `run_optional`).
-/
namespace Fulfilment

open Wire

/-- Values are read back from their documents, and none is written as `null`. -/
class LawfulWire (α : Type) [Wire α] : Prop where
  ofJson?_toJson (a : α) : ofJson? (toJson a) = some a
  toJson_ne_null (a : α) : toJson a ≠ .null

namespace LawfulWire

variable {α β : Type}

/-! ## Plain values -/

instance : LawfulWire String where
  ofJson?_toJson _ := rfl
  toJson_ne_null _ := nofun

instance : LawfulWire Bool where
  ofJson?_toJson _ := rfl
  toJson_ne_null _ := nofun

instance : LawfulWire UInt32 where
  ofJson?_toJson n := by
    have hlt := n.toNat_lt
    change (if (0 : Int) ≤ n.toNat ∧ (n.toNat : Int) ≤ 4294967295 then
      some (UInt32.ofNat (n.toNat : Int).toNat) else none) = some n
    rw [if_pos (by omega), Int.toNat_natCast, UInt32.ofNat_toNat]
  toJson_ne_null _ := nofun

instance : LawfulWire Int64 where
  ofJson?_toJson n := by
    have hle := n.toInt_le
    have hge := n.le_toInt
    change (if -9223372036854775808 ≤ n.toInt ∧ n.toInt ≤ 9223372036854775807 then
      some (Int64.ofInt n.toInt) else none) = some n
    rw [if_pos ⟨hge, hle⟩, Int64.ofInt_toInt]
  toJson_ne_null _ := nofun

instance : LawfulWire Uuid where
  ofJson?_toJson u := by
    change (some u.toText).bind Uuid.ofText? = some u
    rw [Option.bind_some, Uuid.ofText?_toText]
  toJson_ne_null _ := nofun

instance : LawfulWire Instant where
  ofJson?_toJson t := by
    change (some t.toText).bind Instant.ofText? = some t
    rw [Option.bind_some, Instant.ofText?_toText]
  toJson_ne_null _ := nofun

theorem ofElements?_map [Wire α] [LawfulWire α] (xs : List α) :
    ofElements? (xs.map toJson) = some xs := by
  induction xs with
  | nil => rfl
  | cons x xs ih =>
    rw [List.map_cons, ofElements?, ofJson?_toJson, ih]
    rfl

instance [Wire α] [LawfulWire α] : LawfulWire (List α) where
  ofJson?_toJson xs := ofElements?_map xs
  toJson_ne_null _ := nofun

/-- A value that is written as what it wraps is read back if it can be wrapped again. -/
theorem of_wrap [Wire α] [LawfulWire α] (unwrap : β → α) (wrap : α → β)
    (h : ∀ b, wrap (unwrap b) = b) :
    @LawfulWire β ⟨fun b => toJson (unwrap b), fun j => (ofJson? j).map wrap⟩ :=
  @LawfulWire.mk β ⟨fun b => toJson (unwrap b), fun j => (ofJson? j).map wrap⟩
    (fun b => by
      show (ofJson? (toJson (unwrap b))).map wrap = some b
      rw [ofJson?_toJson, Option.map_some, h])
    (fun b => toJson_ne_null (unwrap b))

instance : LawfulWire OrderId := of_wrap OrderId.uuid OrderId.mk fun _ => rfl
instance : LawfulWire UserId := of_wrap UserId.uuid UserId.mk fun _ => rfl
instance : LawfulWire StoreId := of_wrap StoreId.text StoreId.mk fun _ => rfl
instance : LawfulWire ProductId := of_wrap ProductId.text ProductId.mk fun _ => rfl
instance : LawfulWire ReservationId := of_wrap ReservationId.text ReservationId.mk fun _ => rfl
instance : LawfulWire PaymentId := of_wrap PaymentId.text PaymentId.mk fun _ => rfl
instance : LawfulWire RefundId := of_wrap RefundId.text RefundId.mk fun _ => rfl
instance : LawfulWire Money := of_wrap Money.word Money.mk fun _ => rfl

end LawfulWire

/-- A count in the range of its word is read back. -/
theorem Wire.ofJson?_toJson_of_int64 {i : Int} (hge : -9223372036854775808 ≤ i)
    (hle : i ≤ 9223372036854775807) : ofJson? (toJson i) = some i := by
  change (if -9223372036854775808 ≤ i ∧ i ≤ 9223372036854775807 then
      some (Int64.ofInt i) else none).map Int64.toInt = some i
  rw [if_pos ⟨hge, hle⟩, Option.map_some, Int64.toInt_ofInt_of_le]
  · exact hge
  · exact Int.lt_add_one_of_le hle

namespace Wire

open LawfulWire

variable {α β : Type}

/-! ## Readers of members

A reader takes the members in the order in which they were written. Each lemma takes one of them, so
that rewriting with them from the outside runs a reader in one pass.
-/

theorem run_nextField (f : Option Json) (fs : List (Option Json)) :
    nextField.run (f :: fs) = some (f, fs) := rfl

theorem run_requiredBy {read : Json → Option α} {a : α} {j : Json} (h : read j = some a)
    (js : List Json) (next : α → FieldReader β) :
    (requiredBy read >>= next).run ((j :: js).map some) = (next a).run (js.map some) := by
  simp [requiredBy, run_nextField, h]

theorem run_required [Wire α] [LawfulWire α] (a : α) (js : List Json) (next : α → FieldReader β) :
    (required >>= next).run ((toJson a :: js).map some) = (next a).run (js.map some) :=
  run_requiredBy (ofJson?_toJson a) js next

theorem run_optional [Wire α] [LawfulWire α] (a : Option α) (js : List Json)
    (next : Option α → FieldReader β) :
    (optional >>= next).run ((ofOption a :: js).map some) = (next a).run (js.map some) := by
  cases a with
  | none => rfl
  | some a =>
    have hne := toJson_ne_null a
    have hread := ofJson?_toJson a
    change (optional >>= next).run ((toJson a :: js).map some) = _
    generalize toJson a = j at hne hread
    cases j with
    | null => exact absurd rfl hne
    | _ => simp [optional, run_nextField, hread]

theorem run_requiredOr [Wire α] {missing a : α} {j : Json} (h : ofJson? j = some a)
    (js : List Json) (next : α → FieldReader β) :
    (requiredOr missing >>= next).run ((j :: js).map some) = (next a).run (js.map some) := by
  simp [requiredOr, run_nextField, h]

theorem run_return (a : α) : (pure a : FieldReader α).run (([] : List Json).map some) =
    some (a, []) := rfl

/-! ## Records -/

theorem valuesOf_of_notMem {name : String} {ms : List (String × Json)}
    (h : name ∉ ms.map Prod.fst) : valuesOf name (ms.map fun (k, v) => (some k, v)) = [] := by
  have hother : (ms.map fun (k, v) => (some k, v)).filter (fun m => m.1 == some name) = [] := by
    refine List.filter_eq_nil_iff.2 fun m hm => ?_
    obtain ⟨m', hm', rfl⟩ := List.mem_map.1 hm
    have hne : m'.1 ≠ name := fun heq => h (heq ▸ List.mem_map_of_mem hm')
    simpa using hne
  rw [valuesOf, hother, List.map_nil]

/-- Among members of different names, a name has the value of its member. -/
theorem valuesOf_of_mem {ms : List (String × Json)} (hnodup : (ms.map Prod.fst).Nodup)
    {name : String} {j : Json} (h : (name, j) ∈ ms) :
    valuesOf name (ms.map fun (k, v) => (some k, v)) = [j] := by
  induction ms with
  | nil => cases h
  | cons m ms ih =>
    obtain ⟨hm, hms⟩ := List.nodup_cons.1 hnodup
    cases h with
    | head =>
      have hrest := valuesOf_of_notMem hm
      simpa [valuesOf] using hrest
    | tail _ h =>
      have hne : m.1 ≠ name := fun heq => hm (heq ▸ List.mem_map_of_mem h)
      simpa [valuesOf, hne] using ih hms h

/-- Members of different names are found under their names. -/
theorem memberFields?_of_nodup {ms : List (String × Json)} (hnodup : (ms.map Prod.fst).Nodup) :
    memberFields? (ms.map Prod.fst) (.record ms) = some (ms.map fun m => some m.2) := by
  have htext : namesAreText (ms.map fun (k, v) => (some k, v)) = true := by simp [namesAreText]
  have hfields : ∀ m ∈ ms, field? (ms.map fun (k, v) => (some k, v)) m.1 = some (some m.2) := by
    intro m hm
    rw [field?, valuesOf_of_mem hnodup hm]
  rw [Json.record, memberFields?, if_pos htext, List.mapM_map]
  exact mapM_eq_some_map hfields

/-- A record with members of different names gives back their values. -/
theorem memberFields?_record {names : List String} {values : List Json} (hnodup : names.Nodup)
    (hlen : names.length = values.length) :
    memberFields? names (record names values) = some (values.map some) := by
  have hnames : (names.zip values).map Prod.fst = names := List.map_fst_zip (Nat.le_of_eq hlen)
  have hvalues : (names.zip values).map Prod.snd = values :=
    List.map_snd_zip (Nat.le_of_eq hlen.symm)
  calc memberFields? names (record names values)
      = memberFields? ((names.zip values).map Prod.fst) (.record (names.zip values)) := by
        rw [hnames, record]
    _ = some ((names.zip values).map fun m => some m.2) :=
        memberFields?_of_nodup (by rwa [hnames])
    _ = some (values.map some) := by rw [← hvalues, List.map_map, hvalues]; rfl

/-- A record that must be an object is read back if its reader takes the values of its members. -/
theorem readObject_record {names : List String} {values : List Json} (hnodup : names.Nodup)
    (hlen : names.length = values.length) {reader : FieldReader α} {a : α}
    (h : reader.run (values.map some) = some (a, [])) :
    readObject names reader (record names values) = some a := by
  rw [readObject, memberFields?_record hnodup hlen, Option.bind_eq_bind, Option.bind_some, h]
  rfl

/-- A record is read back if its reader takes the values of its members. -/
theorem readRecord_record {names : List String} {values : List Json} (hnodup : names.Nodup)
    (hlen : names.length = values.length) {reader : FieldReader α} {a : α}
    (h : reader.run (values.map some) = some (a, [])) :
    readRecord names reader (record names values) = some a :=
  readObject_record hnodup hlen h

/-! ## Tagged values -/

/-- A tagged value is taken apart as it was put together, with its data in its place. -/
theorem tagged?_tagged (kind : String) (data : Json) :
    tagged? (tagged kind data) = some { kind, data } := by
  simp [tagged?, tagged, Json.record, namesAreText, name?, Json.text]

/-- A tagged record is read back if the reader of its kind takes the values of its members. -/
theorem readTagged_record {names : String → List String} {reader : String → FieldReader α}
    {kind : String} {values : List Json} {a : α} (hnodup : (names kind).Nodup)
    (hlen : (names kind).length = values.length)
    (h : (reader kind).run (values.map some) = some (a, [])) :
    (do let t ← tagged? (tagged kind (record (names kind) values))
        readRecord (names t.kind) (reader t.kind) t.data) = some a := by
  rw [tagged?_tagged, Option.bind_eq_bind, Option.bind_some, readRecord_record hnodup hlen h]

end Wire
end Fulfilment
