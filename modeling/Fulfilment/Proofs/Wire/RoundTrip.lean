import Fulfilment.Proofs.Json.ReadBack
import Fulfilment.Proofs.Wire.Lawful
import Fulfilment.Saga.Delivery
import Fulfilment.Wire.Audit
import Fulfilment.Wire.Notice

/-!
# Round trips

What is written on the wire is read back as the same value, from its text and from its bytes
(`values_are_read_back`). Lines and statuses come first, then the records and the tagged values that
hold them. An order is the only one with a condition: its version is unbounded in the shop, and is
written and read as a 64-bit word.
-/
namespace Fulfilment

open Wire LawfulWire

/-! ## Names and lines -/

instance : LawfulWire OrderNumber := of_wrap OrderNumber.text OrderNumber.mk fun _ => rfl

instance : LawfulWire Status where
  ofJson?_toJson := Status.ofText?_toText
  toJson_ne_null _ := nofun

instance : LawfulWire Line where
  ofJson?_toJson _ :=
    readRecord_record (by decide) rfl (by simp only [↓run_required, run_return])
  toJson_ne_null _ := nofun

instance : LawfulWire StockLine where
  ofJson?_toJson _ :=
    readRecord_record (by decide) rfl (by simp only [↓run_required, run_return])
  toJson_ne_null _ := nofun

instance : LawfulWire ReservedLine where
  ofJson?_toJson _ :=
    readRecord_record (by decide) rfl (by simp only [↓run_required, run_return])
  toJson_ne_null _ := nofun

instance : LawfulWire ShortfallLine where
  ofJson?_toJson _ :=
    readRecord_record (by decide) rfl (by simp only [↓run_required, run_return])
  toJson_ne_null _ := nofun

/-! ## Records -/

instance : LawfulWire Hold where
  ofJson?_toJson _ :=
    readRecord_record (by decide) rfl (by simp only [↓run_required, run_return])
  toJson_ne_null _ := nofun

instance : LawfulWire AuditEntry where
  ofJson?_toJson _ :=
    readRecord_record (by decide) rfl
      (by simp only [↓run_required, ↓run_optional, run_return])
  toJson_ne_null _ := nofun

theorem Order.ofJson?_toJson {o : Order} (hge : -9223372036854775808 ≤ o.version)
    (hle : o.version ≤ 9223372036854775807) : ofJson? (toJson o) = some o := by
  have hversion := ofJson?_toJson_of_int64 hge hle
  refine readRecord_record (by decide) rfl ?_
  simp only [↓run_required, ↓run_optional, ↓run_requiredOr hversion, run_return]

/-! ## Tagged values -/

namespace Event

theorem nodup_fieldNames (e : Event) : (fieldNames e.kind).Nodup := by
  cases e <;> simp [kind, fieldNames]

theorem length_fieldNames (e : Event) : (fieldNames e.kind).length = e.fieldValues.length := by
  cases e <;> rfl

theorem run_reader (e : Event) : (reader e.kind).run (e.fieldValues.map some) = some (e, []) := by
  cases e <;> simp only [kind, reader, fieldValues, ↓run_required, ↓run_optional, run_return]

end Event

instance : LawfulWire Event where
  ofJson?_toJson e := readTagged_record e.nodup_fieldNames e.length_fieldNames e.run_reader
  toJson_ne_null _ := nofun

namespace Signal

theorem nodup_fieldNames (s : Signal) : (fieldNames s.kind).Nodup := by
  cases s <;> simp [kind, fieldNames]

theorem length_fieldNames (s : Signal) : (fieldNames s.kind).length = s.fieldValues.length := by
  cases s <;> rfl

theorem run_reader (s : Signal) : (reader s.kind).run (s.fieldValues.map some) = some (s, []) := by
  cases s <;> simp only [kind, reader, fieldValues, ↓run_required, run_return]

end Signal

instance : LawfulWire Signal where
  ofJson?_toJson s := readTagged_record s.nodup_fieldNames s.length_fieldNames s.run_reader
  toJson_ne_null _ := nofun

namespace Notice

theorem nodup_fieldNames (n : Notice) : (fieldNames n.kind).Nodup := by
  cases n <;> simp [kind, fieldNames]

theorem length_fieldNames (n : Notice) : (fieldNames n.kind).length = n.fieldValues.length := by
  cases n <;> rfl

/-- The reader of a notice's kind reads its members, which come after the kind. -/
theorem run_reader (n : Notice) :
    (reader false n.kind).run (n.fieldValues.map some) = some (n, []) := by
  have hcategory : ∀ c : Category, Category.read false (toJson c) = some c :=
    Category.ofText?_toText
  cases n <;> simp only [kind, reader, fieldValues, ↓run_required, ↓run_optional,
    ↓run_requiredBy (hcategory _), run_return]

end Notice

instance : LawfulWire Notice where
  ofJson?_toJson n := by
    have hparts : tagged? (toJson n) =
        some { kind := n.kind, data := record (Notice.fieldNames n.kind) n.fieldValues } :=
      tagged?_tagged ..
    change (tagged? (toJson n)).bind (fun t =>
      readObject (Notice.fieldNames t.kind) (Notice.reader t.setAside t.kind) t.data) = some n
    rw [hparts, Option.bind_some,
      readObject_record n.nodup_fieldNames n.length_fieldNames n.run_reader]
  toJson_ne_null _ := nofun

/-! ## Texts and bytes -/

namespace Wire

variable {α : Type} [Wire α]

/-- The value is read back from its text and from the bytes of its text. -/
def ReadsBack (a : α) : Prop := ofText? (toText a) = some a ∧ ofBytes? (toBytes a) = some a

/-- What is read back from its document is read back from the document's text and bytes. -/
theorem readsBack_of_document {a : α} (h : ofJson? (toJson a) = some a) : ReadsBack a := by
  constructor
  · rw [ofText?, toText, Json.ofText?_toText, Option.bind_some, h]
  · rw [ofBytes?, toBytes, toText, Json.ofBytes?_toUTF8, Option.bind_some, h]

theorem readsBack [LawfulWire α] (a : α) : ReadsBack a :=
  readsBack_of_document (ofJson?_toJson a)

/-- **What is written on the wire is read back as the same value**: from its text, from its bytes,
and a signal also as a delivery. The version of an order must fit its word. -/
theorem values_are_read_back :
    (∀ o : Order, -9223372036854775808 ≤ o.version → o.version ≤ 9223372036854775807 →
      ReadsBack o) ∧
    (∀ e : Event, ReadsBack e) ∧ (∀ n : Notice, ReadsBack n) ∧
    (∀ s : Signal, ReadsBack s ∧ Saga.signalOf? (toBytes s) = some s) ∧
    (∀ e : AuditEntry, ReadsBack e) ∧ (∀ h : Hold, ReadsBack h) := by
  refine ⟨fun o hge hle => ?_, readsBack, readsBack, fun s => ?_, readsBack, readsBack⟩
  · exact readsBack_of_document (Order.ofJson?_toJson hge hle)
  · obtain ⟨htext, hbytes⟩ := readsBack s
    exact ⟨⟨htext, hbytes⟩, hbytes⟩

/-- An order that has been saved as often as its version can count. A name must be escaped, and it
was placed in a leap second and changed at the end of the calendar. -/
def lastOrder : Order where
  id := ⟨.ofNat 1⟩
  number := ⟨"ORD-\u20ac"⟩
  version := 9223372036854775807
  user := ⟨.ofNat 2⟩
  store := ⟨"store"⟩
  lines := [⟨⟨"widget"⟩, "6\" widget\n\x07", 4294967295, ⟨9223372036854775807⟩⟩]
  createdAt := { seconds := 1483228799, nanos := 1500000000 }
  updatedAt := { seconds := 8210266876798, nanos := 1000 }

/-- The order at the ends of its formats is read back. -/
theorem last_order_is_read_back :
    -9223372036854775808 ≤ lastOrder.version ∧ lastOrder.version ≤ 9223372036854775807 ∧
      ReadsBack lastOrder :=
  ⟨by decide, by decide, values_are_read_back.1 lastOrder (by decide) (by decide)⟩

end Wire
end Fulfilment
