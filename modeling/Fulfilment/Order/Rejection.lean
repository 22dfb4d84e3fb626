import Fulfilment.Ident
import Fulfilment.Order.Status

/-!
# Rejections

Why an order refuses to be placed or to move on.
-/
namespace Fulfilment

/-- The reason why an order is not placed or not changed. -/
inductive Rejection where
  | invalidState (current : Status) (required : List Status) (action : String)
  | paymentAlreadyLinked (existing : PaymentId)
  | paymentMismatch (expected received : PaymentId)
  | invalidQuantity (product : ProductId) (quantity : UInt32)
  | invalidPrice (product : ProductId) (price : Int)
  | noItems
  | amountOverflow (product : ProductId)
  | refundNotRequested
deriving DecidableEq, Repr

namespace Rejection

def message : Rejection → String
  | invalidState current required action =>
    "Invalid state transition: cannot " ++ action ++ " from " ++ current.toText ++ " (requires " ++
      Status.joinTexts required ++ ")"
  | paymentAlreadyLinked existing =>
    "Payment " ++ existing.text ++ " is already linked to this order"
  | paymentMismatch expected received =>
    "Payment " ++ received.text ++ " does not match linked payment " ++ expected.text
  | invalidQuantity product quantity =>
    "Invalid quantity for " ++ product.text ++ ": " ++ toString quantity.toNat ++
      " (must be greater than 0)"
  | invalidPrice product price =>
    "Invalid price for " ++ product.text ++ ": " ++ toString price ++ " (must be greater than 0)"
  | noItems => "Order has no items"
  | amountOverflow product => "Order total overflows at " ++ product.text
  | refundNotRequested => "No refund has been requested for this order"

/-- The name of the cause, for programs. -/
def code : Rejection → String
  | invalidState .. => "InvalidState"
  | paymentAlreadyLinked _ => "PaymentAlreadyLinked"
  | paymentMismatch .. => "PaymentMismatch"
  | invalidQuantity .. => "InvalidQuantity"
  | invalidPrice .. => "InvalidPrice"
  | noItems => "NoItems"
  | amountOverflow _ => "AmountOverflow"
  | refundNotRequested => "RefundNotRequested"

/-- The order's status is the reason. -/
def isInvalidState : Rejection → Bool
  | invalidState .. => true
  | _ => false

end Rejection
end Fulfilment
