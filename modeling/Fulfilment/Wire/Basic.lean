import Fulfilment.Json.Value
import Fulfilment.Uuid
import Fulfilment.Time.Rfc3339

/-!
# Values on the wire

A type is on the wire if its values are written as JSON documents and read back. Writing always
writes a record as an object with all its members; reading is more generous. A record may also be an
array of its members in order, members of other names are passed over, an optional member may be
missing, and the name of an alternative may stand as the only member of an object.

Of a tagged value either part may come first. If it is the data, the data is set aside until the
kind is known, which asks more of it (`canWait`) and allows one more way to write an alternative
(`setAsideName?`).
-/
namespace Fulfilment

/-- Types whose values are written as JSON documents and read back. -/
class Wire (α : Type) where
  toJson : α → Json
  ofJson? : Json → Option α

namespace Wire

variable {α : Type}

/-! ## Plain values -/

instance : Wire String := ⟨Json.text, Json.text?⟩

instance : Wire Bool := ⟨Json.bool, Json.bool?⟩

/-- A quantity is an integer in the range of its word. -/
instance : Wire UInt32 where
  toJson n := .nat n.toNat
  ofJson? j := do
    let i ← j.int?
    if 0 ≤ i ∧ i ≤ 4294967295 then some (.ofNat i.toNat) else none

/-- A count is an integer in the range of its word. -/
instance : Wire Int64 where
  toJson n := .int n.toInt
  ofJson? j := do
    let i ← j.int?
    if -9223372036854775808 ≤ i ∧ i ≤ 9223372036854775807 then some (.ofInt i) else none

/-- An unbounded count is read in the range of a 64-bit word. -/
instance : Wire Int where
  toJson := Json.int
  ofJson? j := (ofJson? (α := Int64) j).map Int64.toInt

instance : Wire Uuid where
  toJson u := .text u.toText
  ofJson? j := j.text?.bind Uuid.ofText?

instance : Wire Instant where
  toJson t := .text t.toText
  ofJson? j := j.text?.bind Instant.ofText?

/-- The elements of an array, if each can be read. -/
def ofElements? [Wire α] : List Json → Option (List α)
  | [] => some []
  | j :: js => do return (← ofJson? j) :: (← ofElements? js)

instance [Wire α] : Wire (List α) where
  toJson xs := .array (xs.map toJson)
  ofJson? j := j.array?.bind ofElements?

/-- An optional value is written as `null` if there is none. -/
def ofOption [Wire α] (a : Option α) : Json := .ofOption toJson a

/-! ## Alternatives -/

/-- The name of an alternative: a text, or an object with that name and `null`. -/
def name? : Json → Option String
  | .string s => s
  | .object [(name, .null)] => name
  | _ => none

/-- The name of an alternative in a document that was set aside, where an empty object may stand for
`null`. -/
def setAsideName? : Json → Option String
  | .object [(name, .object [])] => name
  | j => name? j

/-! ## Records -/

/-- All names of the members are text. -/
def namesAreText (ms : List (Option String × Json)) : Bool := ms.all fun m => m.1.isSome

/-- The values of the members with a name. -/
def valuesOf (name : String) (ms : List (Option String × Json)) : List Json :=
  (ms.filter fun m => m.1 == some name).map Prod.snd

/-- The value of the member with a name, which may be missing but not repeated. -/
def field? (ms : List (Option String × Json)) (name : String) : Option (Option Json) :=
  match valuesOf name ms with
  | [] => some none
  | [j] => some (some j)
  | _ => none

/-- The values of an object's members by their names. -/
def memberFields? (names : List String) : Json → Option (List (Option Json))
  | .object ms => if namesAreText ms then names.mapM (field? ms) else none
  | _ => none

/-- The values of a record's members by their names, or in order. -/
def fields? (names : List String) : Json → Option (List (Option Json))
  | .array es => if es.length = names.length then some (es.map some) else none
  | j => memberFields? names j

/-- A reader of a record's members, one after the other. -/
abbrev FieldReader := StateT (List (Option Json)) Option

/-- The next member, which may be missing. -/
def nextField : FieldReader (Option Json)
  | [] => none
  | f :: fs => some (f, fs)

/-- Reads a member that must be there, in a way of its own. -/
def requiredBy (read : Json → Option α) : FieldReader α := do
  let some j ← nextField | failure
  let some a := read j | failure
  return a

/-- Reads a member that must be there. -/
def required [Wire α] : FieldReader α := requiredBy ofJson?

/-- Reads a member that may be missing or `null`. -/
def optional [Wire α] : FieldReader (Option α) := do
  match ← nextField with
  | none | some .null => return none
  | some j =>
    let some a := ofJson? j | failure
    return some a

/-- Reads a member that may be missing but not `null`, with the value that it has then. -/
def requiredOr [Wire α] (missing : α) : FieldReader α := do
  match ← nextField with
  | none => return missing
  | some j =>
    let some a := ofJson? j | failure
    return a

/-- Reads a record with members of the given names. -/
def readRecord (names : List String) (reader : FieldReader α) (j : Json) : Option α := do
  let fs ← fields? names j
  return (← reader.run fs).1

/-- Reads a record that must be an object. -/
def readObject (names : List String) (reader : FieldReader α) (j : Json) : Option α := do
  let fs ← memberFields? names j
  return (← reader.run fs).1

/-- The object with members of the given names and values. -/
def record (names : List String) (values : List Json) : Json := .record (names.zip values)

/-! ## Tagged values -/

/-- A value with the name of its kind. -/
def tagged (kind : String) (data : Json) : Json := .record [("type", .text kind), ("data", data)]

/-- The document can be set aside until the kind of its value is known. -/
def canWait (data : Json) : Bool := data.isPlain && data.depth + 1 ≤ Json.nestingLimit

/-- A tagged value that has been taken apart: the name of its kind, its data, and whether the data
was set aside. -/
structure Tagged where
  kind : String
  data : Json
  setAside : Bool := false

/-- The parts of a tagged value. -/
def tagged? : Json → Option Tagged
  | .array [tag, data] => (name? tag).map fun kind => { kind, data }
  | .object ms =>
    if namesAreText ms then
      match ms.filter fun m => m.1 == some "type" || m.1 == some "data" with
      | [(some "type", tag), (some "data", data)] => (name? tag).map fun kind => { kind, data }
      | [(some "data", data), (some "type", tag)] =>
        if canWait data then (name? tag).map fun kind => { kind, data, setAside := true } else none
      | _ => none
    else none
  | _ => none

end Wire
end Fulfilment
