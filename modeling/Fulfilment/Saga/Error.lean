import Fulfilment.Order.Book
import Fulfilment.Order.Rejection
import Fulfilment.Stock.Error

/-!
# Saga errors

Why a signal was not applied. Most failures may pass, so that the signal should come again; an order
that rejects what the signal asks for, and bytes that hold no signal, will fail in the same way
again.
-/
namespace Fulfilment

/-- Why a signal was not applied. -/
inductive SagaError where
  | orderNotFound (id : OrderId)
  | order (cause : Rejection)
  | book (cause : BookError)
  | stock (cause : StockError)
  | malformed
  | conflictRetriesExhausted (id : OrderId) (attempts : Nat)
  | consumerClosed
deriving DecidableEq, Repr

namespace SagaError

def message : SagaError → String
  | orderNotFound id => "Order not found: " ++ id.toText
  | order cause => "Order error: " ++ cause.message
  | book cause => "Repository error: " ++ cause.message
  | stock cause => "Reservation error: " ++ cause.message
  | malformed => "Malformed event payload"
  | conflictRetriesExhausted id attempts =>
    "Gave up on order " ++ id.toText ++ " after " ++ toString attempts ++ " conflicting writes"
  | consumerClosed => "Event consumer is not running"

/-- The name of the cause, for programs. -/
def code : SagaError → String
  | orderNotFound _ => "OrderNotFound"
  | order cause => "Order." ++ cause.code
  | book cause => "Repository." ++ cause.code
  | stock cause => "Reservation." ++ cause.code
  | malformed => "Decode"
  | conflictRetriesExhausted .. => "ConflictRetriesExhausted"
  | consumerClosed => "ConsumerClosed"

/-- Handling the same signal again may succeed. -/
def isRetryable : SagaError → Bool
  | order _ | malformed => false
  | _ => true

end SagaError
end Fulfilment
