import Fulfilment.Stock.Hold
import Fulfilment.Wire.Ident

/-!
# Stock on the wire

A stock line is a product and a quantity, and a hold is written with its lines and both its
instants.
-/
namespace Fulfilment

open Wire

def StockLine.fieldNames : List String := ["product_id", "quantity"]

instance : Wire StockLine where
  toJson l := record StockLine.fieldNames [toJson l.product, toJson l.quantity]
  ofJson? := readRecord StockLine.fieldNames do
    return { product := ← required, quantity := ← required }

def Hold.fieldNames : List String :=
  ["reservation_id", "store_id", "items", "created_at", "expires_at"]

instance : Wire Hold where
  toJson h :=
    record Hold.fieldNames
      [toJson h.id, toJson h.store, toJson h.lines, toJson h.createdAt, toJson h.expiresAt]
  ofJson? := readRecord Hold.fieldNames do
    return { id := ← required, store := ← required, lines := ← required, createdAt := ← required,
             expiresAt := ← required }

end Fulfilment
