import Fulfilment.Uuid

/-!
# Identifiers

Orders and users are named by a `Uuid`. Stores, products, reservations, payments and refunds are
named by free text, compared and ordered by code points. Each kind of name is a type of its own, so
that none is taken for another, and each is totally ordered.
-/
namespace Fulfilment

/-- Names an order. -/
structure OrderId where
  uuid : Uuid
deriving DecidableEq, Repr

/-- Names the user who owns an order. -/
structure UserId where
  uuid : Uuid
deriving DecidableEq, Repr

/-- Names a store, which owns its products and their stock. -/
structure StoreId where
  text : String
deriving DecidableEq, Repr

/-- Names a product. -/
structure ProductId where
  text : String
deriving DecidableEq, Repr

/-- Names a reservation of stock; its maker chooses it. -/
structure ReservationId where
  text : String
deriving DecidableEq, Repr

/-- Names a payment; the payment service chooses it. -/
structure PaymentId where
  text : String
deriving DecidableEq, Repr

/-- Names a refund of an order. -/
structure RefundId where
  text : String
deriving DecidableEq, Repr

def OrderId.toText (id : OrderId) : String := id.uuid.toText

def UserId.toText (id : UserId) : String := id.uuid.toText

/-- The reservation name made from a generated identifier. -/
def ReservationId.ofUuid (u : Uuid) : ReservationId := ⟨"RSV-" ++ u.toText⟩

/-- The refund name made from a generated identifier. -/
def RefundId.ofUuid (u : Uuid) : RefundId := ⟨"RFD-" ++ u.toText⟩

/-! ## Order -/

instance : Ord OrderId := ⟨compareOn OrderId.uuid⟩
instance : Ord UserId := ⟨compareOn UserId.uuid⟩
instance : Ord StoreId := ⟨compareOn StoreId.text⟩
instance : Ord ProductId := ⟨compareOn ProductId.text⟩
instance : Ord ReservationId := ⟨compareOn ReservationId.text⟩

instance : Std.TransOrd OrderId := inferInstanceAs (Std.TransCmp (compareOn OrderId.uuid))
instance : Std.TransOrd UserId := inferInstanceAs (Std.TransCmp (compareOn UserId.uuid))
instance : Std.TransOrd StoreId := inferInstanceAs (Std.TransCmp (compareOn StoreId.text))
instance : Std.TransOrd ProductId := inferInstanceAs (Std.TransCmp (compareOn ProductId.text))
instance : Std.TransOrd ReservationId :=
  inferInstanceAs (Std.TransCmp (compareOn ReservationId.text))

instance : Std.LawfulEqOrd OrderId where
  eq_of_compare {a b} h := by
    have h : a.uuid = b.uuid := Std.LawfulEqOrd.eq_of_compare h
    cases a; cases b; simp_all

instance : Std.LawfulEqOrd UserId where
  eq_of_compare {a b} h := by
    have h : a.uuid = b.uuid := Std.LawfulEqOrd.eq_of_compare h
    cases a; cases b; simp_all

instance : Std.LawfulEqOrd StoreId where
  eq_of_compare {a b} h := by
    have h : a.text = b.text := Std.LawfulEqOrd.eq_of_compare h
    cases a; cases b; simp_all

instance : Std.LawfulEqOrd ProductId where
  eq_of_compare {a b} h := by
    have h : a.text = b.text := Std.LawfulEqOrd.eq_of_compare h
    cases a; cases b; simp_all

instance : Std.LawfulEqOrd ReservationId where
  eq_of_compare {a b} h := by
    have h : a.text = b.text := Std.LawfulEqOrd.eq_of_compare h
    cases a; cases b; simp_all

end Fulfilment
