import Fulfilment.Double

/-!
# JSON documents

A document keeps what was written: object members in their order and with repetitions, integers
apart from other numbers, and strings whose escapes or bytes do not spell Unicode text as `none`.
Such strings are legal JSON, so a reader refuses them only where it needs the text.
-/
namespace Fulfilment

/-- A number as written: without fraction and exponent it is an integer, except minus zero. -/
inductive Number where
  | integer (i : Int)
  | decimal (negative : Bool) (digits : Nat) (exponent : Int)
deriving DecidableEq, Repr

/-- A JSON document. -/
inductive Json where
  | null
  | bool (b : Bool)
  | number (n : Number)
  | string (s : Option String)
  | array (elements : List Json)
  | object (members : List (Option String × Json))
deriving Repr, Inhabited

namespace Json

/-! ## Making documents -/

def text (s : String) : Json := .string (some s)

def int (i : Int) : Json := .number (.integer i)

def nat (n : Nat) : Json := int n

/-- An object with the given members. -/
def record (members : List (String × Json)) : Json :=
  .object (members.map fun (k, v) => (some k, v))

/-- The document of a value, or `null` without one. -/
def ofOption {α : Type} (f : α → Json) : Option α → Json
  | some a => f a
  | none => .null

/-- The array of the documents of some values. -/
def ofList {α : Type} (f : α → Json) (xs : List α) : Json := .array (xs.map f)

/-! ## Taking documents apart -/

/-- The text of a string that spells one. -/
def text? : Json → Option String
  | .string s => s
  | _ => none

/-- The truth value of a document that is one. -/
def bool? : Json → Option Bool
  | .bool b => some b
  | _ => none

/-- The integer of a number written as one. -/
def int? : Json → Option Int
  | .number (.integer i) => some i
  | _ => none

/-- The elements of an array. -/
def array? : Json → Option (List Json)
  | .array es => some es
  | _ => none

/-- The value of the first member with a name. -/
def member? (j : Json) (name : String) : Option Json :=
  match j with
  | .object ms => (ms.find? fun m => m.1 == some name).map Prod.snd
  | _ => none

/-! ## Limits

A document that is set aside before its meaning is known must be readable on its own: its strings
are text, its numbers stay finite in double precision, and it is not nested too deeply.
-/

mutual

/-- The greatest number of arrays and objects around any part. -/
def depth : Json → Nat
  | .array es => depthElements es + 1
  | .object ms => depthMembers ms + 1
  | _ => 0

def depthElements : List Json → Nat
  | [] => 0
  | e :: es => max (depth e) (depthElements es)

def depthMembers : List (Option String × Json) → Nat
  | [] => 0
  | (_, v) :: ms => max (depth v) (depthMembers ms)

end

/-- The number stays finite in double precision. -/
def inDoubleRange : Number → Bool
  | .integer i => Double.isFinite i.natAbs 0
  | .decimal _ digits exponent => Double.isFinite digits exponent

mutual

/-- All strings are text and all numbers stay finite in double precision. -/
def isPlain : Json → Bool
  | .number n => inDoubleRange n
  | .string s => s.isSome
  | .array es => isPlainElements es
  | .object ms => isPlainMembers ms
  | _ => true

def isPlainElements : List Json → Bool
  | [] => true
  | e :: es => isPlain e && isPlainElements es

def isPlainMembers : List (Option String × Json) → Bool
  | [] => true
  | (k, v) :: ms => k.isSome && isPlain v && isPlainMembers ms

end

/-- The most arrays and objects that a document set aside may be nested in, itself included. -/
def nestingLimit : Nat := 127

end Json
end Fulfilment
