import Fulfilment.Order.Book
import Fulfilment.Shop.Catalog
import Fulfilment.Shop.RequestKeys
import Fulfilment.Stock.Error

/-!
# Service errors

Why a request to the order services failed, and how that is told to whoever asked.
-/
namespace Fulfilment

/-- What kind of failure the caller is told of. -/
inductive ErrorKind where
  | notFound
  | accessDenied
  | invalidState
  | conflict
  | duplicateRequest
  | invalidRequest
  | internal
deriving DecidableEq, Repr

/-- The name of the kind of failure. -/
def ErrorKind.toText : ErrorKind → String
  | notFound => "NotFound"
  | accessDenied => "AccessDenied"
  | invalidState => "InvalidState"
  | conflict => "Conflict"
  | duplicateRequest => "DuplicateRequest"
  | invalidRequest => "InvalidRequest"
  | internal => "Internal"

/-- The status code of a failed request. -/
def ErrorKind.httpStatus : ErrorKind → Nat
  | notFound => 404
  | accessDenied => 403
  | invalidState | invalidRequest => 400
  | conflict | duplicateRequest => 409
  | internal => 500

/-- Why a request failed. -/
inductive ServiceError where
  | orderNotFound (order : OrderId)
  | storeNotFound (store : StoreId)
  | productNotInStore (store : StoreId) (product : ProductId)
  | accessDenied (order : OrderId) (user : UserId)
  | duplicateRequest (key : String)
  | order (cause : Rejection)
  | stock (cause : StockError)
  | book (cause : BookError)
  | keys (cause : KeyError)
  | catalog (cause : CatalogError)
deriving DecidableEq, Repr

/-- A rejected action is a bad request, unless the order's state or its payment is in the way. -/
def Rejection.errorKind : Rejection → ErrorKind
  | invalidState .. | refundNotRequested => .invalidState
  | paymentAlreadyLinked _ | paymentMismatch .. => .conflict
  | invalidQuantity .. | invalidPrice .. | noItems | amountOverflow _ => .invalidRequest

/-- Stock that is not to be had is a conflict with other requests. -/
def StockError.errorKind : StockError → ErrorKind
  | insufficientStock .. | storeClosed _ | reservationConflict _ => .conflict
  | invalidQuantity .. | emptyReservation => .invalidRequest
  | ledger _ => .internal

/-- An order that was saved otherwise meanwhile is a conflict. -/
def BookError.errorKind : BookError → ErrorKind
  | notFound _ => .notFound
  | conflict .. | duplicateOrder _ | duplicateNumber _ => .conflict
  | storage _ => .internal

namespace ServiceError

def message : ServiceError → String
  | orderNotFound id => "Order not found: " ++ id.toText
  | storeNotFound store => "Store not found: " ++ store.text
  | productNotInStore store product =>
    "Product " ++ product.text ++ " is not sold by store " ++ store.text
  | accessDenied id user => "User " ++ user.toText ++ " may not access order " ++ id.toText
  | duplicateRequest key => "A request with idempotency key " ++ key ++ " is already in progress"
  | order cause => cause.message
  | stock cause => cause.message
  | book cause => cause.message
  | keys cause => cause.message
  | catalog cause => cause.message

/-- The name of the cause, for programs. -/
def code : ServiceError → String
  | orderNotFound _ => "OrderNotFound"
  | storeNotFound _ => "StoreNotFound"
  | productNotInStore .. => "ProductNotInStore"
  | accessDenied .. => "AccessDenied"
  | duplicateRequest _ => "DuplicateRequest"
  | order cause => "Order." ++ cause.code
  | stock cause => "Reservation." ++ cause.code
  | book cause => "Repository." ++ cause.code
  | keys _ => "Idempotency"
  | catalog _ => "Catalog"

/-- The kind of failure that the caller is told of. -/
def kind : ServiceError → ErrorKind
  | orderNotFound _ | storeNotFound _ => .notFound
  | productNotInStore .. => .invalidRequest
  | accessDenied .. => .accessDenied
  | duplicateRequest _ => .duplicateRequest
  | order cause => cause.errorKind
  | stock cause => cause.errorKind
  | book cause => cause.errorKind
  | keys _ | catalog _ => .internal

end ServiceError
end Fulfilment
