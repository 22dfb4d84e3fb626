import Fulfilment.Stock.Reservation

/-!
# Settling holds

What becomes of a hold once its order is decided is left to a desk, which may fail. Both requests
answer whether there still was a hold.
-/
namespace Fulfilment

/-- Who settles and releases holds. -/
structure HoldDesk where
  settle : ReservationId → Script Stock.calls (Except StockError Bool)
  release : ReservationId → Script Stock.calls (Except StockError Bool)

/-- The desk that works on the ledger itself. -/
def HoldDesk.direct : HoldDesk where
  settle id := return .ok (← Reservation.settle id)
  release := Reservation.release

end Fulfilment
