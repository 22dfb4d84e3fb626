import Fulfilment.Ident
import Fulfilment.Table

/-!
# The catalog

Which stores there are and what they sell.
-/
namespace Fulfilment

/-- Why the catalog could not answer. -/
structure CatalogError where
  detail : String
deriving DecidableEq, Repr

def CatalogError.message (e : CatalogError) : String := "Catalog error: " ++ e.detail

/-- The products that each store sells. -/
structure Catalog where
  stores : Table StoreId (Table ProductId Unit) := ∅

namespace Catalog

def hasStore (c : Catalog) (s : StoreId) : Bool := c.stores.contains s

/-- The store is there and sells the product. -/
def sells (c : Catalog) (s : StoreId) (p : ProductId) : Bool :=
  match c.stores.get? s with
  | some products => products.contains p
  | none => false

/-- Adds products to a store, which is new or known. -/
def add (c : Catalog) (s : StoreId) (products : List ProductId) : Catalog where
  stores :=
    c.stores.insert s <| products.foldl (fun t p => t.insert p ()) ((c.stores.get? s).getD ∅)

end Catalog
end Fulfilment
