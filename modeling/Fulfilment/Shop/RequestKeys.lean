import Fulfilment.Ident
import Fulfilment.Table

/-!
# Request keys

A user names a request to create an order by a key. The key is claimed before any work starts, so of
several requests with one key only one proceeds; it is bound to the order when that succeeds and
given back when it fails.
-/
namespace Fulfilment

/-- A key of a user; the keys of different users are different. -/
structure RequestKey where
  user : UserId
  text : String
deriving DecidableEq, Repr

namespace RequestKey

instance : Ord RequestKey := ⟨compareLex (compareOn user) (compareOn text)⟩

instance : Std.TransOrd RequestKey :=
  inferInstanceAs (Std.TransCmp (compareLex (compareOn user) (compareOn text)))

instance : Std.LawfulEqOrd RequestKey where
  eq_of_compare {a b} h := by
    have h : compareLex (compareOn user) (compareOn text) a b = .eq := h
    simp only [compareLex_eq_eq, compareOn] at h
    obtain ⟨hu, ht⟩ := h
    have hu := Std.LawfulEqOrd.eq_of_compare hu
    have ht := Std.LawfulEqOrd.eq_of_compare ht
    cases a
    cases b
    simp_all

end RequestKey

/-- What became of a claimed key. -/
inductive KeyState where
  | inFlight
  | completed (order : OrderId)
deriving DecidableEq, Repr

/-- What claiming a key is answered with. -/
inductive Claim where
  | acquired
  | inFlight
  | completed (order : OrderId)
deriving DecidableEq, Repr

/-- Why the keys could not be used. -/
inductive KeyError where
  | rejected
  | alreadyBound (key : String) (order : OrderId)
  | failed (detail : String)
deriving DecidableEq, Repr

namespace KeyError

def detail : KeyError → String
  | rejected => "claim rejected"
  | alreadyBound key order => "key " ++ key ++ " already bound to order " ++ order.toText
  | failed detail => detail

def message (e : KeyError) : String := "Idempotency store error: " ++ e.detail

end KeyError

/-- The keys claimed so far. While it fails, none can be claimed. -/
structure RequestKeys where
  entries : Table RequestKey KeyState := ∅
  failing : Bool := false

namespace RequestKeys

/-- Claims a key that is not known yet. -/
def claim (ks : RequestKeys) (k : RequestKey) : Except KeyError Claim × RequestKeys :=
  if ks.failing then (.error .rejected, ks)
  else
    match ks.entries.get? k with
    | some .inFlight => (.ok .inFlight, ks)
    | some (.completed order) => (.ok (.completed order), ks)
    | none => (.ok .acquired, { ks with entries := ks.entries.insert k .inFlight })

/-- Binds a key to an order, unless it is bound to another one. -/
def complete (ks : RequestKeys) (k : RequestKey) (order : OrderId) :
    Except KeyError Unit × RequestKeys :=
  match ks.entries.get? k with
  | some (.completed existing) =>
    if existing = order then (.ok (), ks) else (.error (.alreadyBound k.text existing), ks)
  | _ => (.ok (), { ks with entries := ks.entries.insert k (.completed order) })

/-- Gives a key back that is still in flight. -/
def release (ks : RequestKeys) (k : RequestKey) : RequestKeys :=
  match ks.entries.get? k with
  | some .inFlight => { ks with entries := ks.entries.erase k }
  | _ => ks

/-- The order that a key is bound to. -/
def completedOrder? (ks : RequestKeys) (k : RequestKey) : Option OrderId :=
  match ks.entries.get? k with
  | some (.completed order) => some order
  | _ => none

end RequestKeys
end Fulfilment
