import Fulfilment.Text.Numeral

/-!
# Universally unique identifiers

A 128-bit number, ordered by its value and written as 32 lower-case hexadecimal digits in five
groups. The reader takes the groups with hyphens, also in braces or after `urn:uuid:`, or the 32
digits without any hyphen; letters may be in either case.
-/
namespace Fulfilment

/-- A 128-bit identifier. -/
structure Uuid where
  value : Nat
  value_lt : value < 1 <<< 128 := by decide
deriving DecidableEq, Repr

namespace Uuid

/-- An identifier is determined by its number. -/
theorem value_inj {u v : Uuid} (h : u.value = v.value) : u = v := by
  cases u
  cases v
  simp_all

instance : Ord Uuid := ⟨fun u v => compare u.value v.value⟩

instance : Std.TransOrd Uuid :=
  inferInstanceAs (Std.TransCmp (compareOn value))

instance : Std.LawfulEqOrd Uuid where
  eq_of_compare h := value_inj (Std.LawfulEqOrd.eq_of_compare (α := Nat) h)

/-- The identifier of the low 128 bits of a number. -/
def ofNat (n : Nat) : Uuid := ⟨n % 1 <<< 128, Nat.mod_lt _ (by decide)⟩

/-- Cuts text into groups of the given lengths with a hyphen after each but the last; what is left
over is kept in the last group. -/
def hyphenate : List Nat → List Char → List Char
  | [], cs => cs
  | n :: ns, cs => cs.take n ++ '-' :: hyphenate ns (cs.drop n)

/-- Takes the hyphens out again. -/
def unhyphenate? : List Nat → List Char → Option (List Char)
  | [], cs => some cs
  | n :: ns, cs =>
    match cs.drop n with
    | '-' :: rest => (unhyphenate? ns rest).map (cs.take n ++ ·)
    | _ => none

/-- The lengths of all groups but the last. -/
def groups : List Nat := [8, 4, 4, 4]

/-- The characters of the written form. -/
def chars (u : Uuid) : List Char := hyphenate groups (Numeral.hex 32 u.value)

/-- The written form: groups of 8, 4, 4, 4 and 12 lower-case digits. -/
def toText (u : Uuid) : String := String.ofList u.chars

def ofHex? (cs : List Char) : Option Uuid :=
  if cs.length = 32 then (cs.mapM Numeral.hexValue?).map fun ds => ofNat (Numeral.ofDigits 16 ds)
  else none

/-- Reads the groups with hyphens. -/
def ofGroups? (cs : List Char) : Option Uuid := do
  ofHex? (← unhyphenate? groups cs)

/-- Reads any of the four forms. -/
def ofText? (s : String) : Option Uuid :=
  let cs := s.toList
  match cs with
  | '\x7b' :: rest => if rest.getLast? = some '\x7d' then ofGroups? rest.dropLast else none
  | _ =>
    if (cs.take 9).map Char.toLower = "urn:uuid:".toList then ofGroups? (cs.drop 9)
    else if cs.length = 32 then ofHex? cs
    else ofGroups? cs

end Uuid
end Fulfilment
