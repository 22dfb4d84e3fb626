import Fulfilment.Ident

/-!
# Stock errors

Why stock could not be reserved, settled or restored.
-/
namespace Fulfilment

/-- Why an operation on stock failed. A counter that stays contended for the whole retry budget
counts as short of stock, with the amount seen last. -/
inductive StockError where
  | insufficientStock (product : ProductId) (requested : UInt32) (available : Int)
  | storeClosed (store : StoreId)
  | reservationConflict (reservation : ReservationId)
  | invalidQuantity (product : ProductId) (quantity : UInt32)
  | emptyReservation
  | ledger (detail : String)
deriving DecidableEq, Repr

namespace StockError

def message : StockError → String
  | insufficientStock product requested available =>
    "Insufficient stock for product " ++ product.text ++ ": requested " ++
      toString requested.toNat ++ ", available " ++ toString available
  | storeClosed store => "Store " ++ store.text ++ " is closed"
  | reservationConflict reservation =>
    "Reservation " ++ reservation.text ++ " already exists with different items"
  | invalidQuantity product quantity =>
    "Invalid quantity " ++ toString quantity.toNat ++ " for product " ++ product.text ++
      " (must be greater than 0)"
  | emptyReservation => "Reservation has no items"
  | ledger detail => "Reservation ledger error: " ++ detail

/-- The name of the cause, for programs. -/
def code : StockError → String
  | insufficientStock .. => "InsufficientStock"
  | storeClosed _ => "StoreClosed"
  | reservationConflict _ => "ReservationConflict"
  | invalidQuantity .. => "InvalidQuantity"
  | emptyReservation => "EmptyReservation"
  | ledger _ => "Ledger"

end StockError
end Fulfilment
