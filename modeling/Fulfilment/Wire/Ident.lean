import Fulfilment.Ident
import Fulfilment.Money
import Fulfilment.Wire.Basic

/-!
# Identifiers and amounts on the wire

Both are written as what they wrap: a text or an integer.
-/
namespace Fulfilment

open Wire

instance : Wire OrderId := ⟨fun id => toJson id.uuid, fun j => (ofJson? j).map OrderId.mk⟩
instance : Wire UserId := ⟨fun id => toJson id.uuid, fun j => (ofJson? j).map UserId.mk⟩
instance : Wire StoreId := ⟨fun id => toJson id.text, fun j => (ofJson? j).map StoreId.mk⟩
instance : Wire ProductId := ⟨fun id => toJson id.text, fun j => (ofJson? j).map ProductId.mk⟩
instance : Wire ReservationId :=
  ⟨fun id => toJson id.text, fun j => (ofJson? j).map ReservationId.mk⟩
instance : Wire PaymentId := ⟨fun id => toJson id.text, fun j => (ofJson? j).map PaymentId.mk⟩
instance : Wire RefundId := ⟨fun id => toJson id.text, fun j => (ofJson? j).map RefundId.mk⟩
instance : Wire Money := ⟨fun m => toJson m.word, fun j => (ofJson? j).map Money.mk⟩

end Fulfilment
