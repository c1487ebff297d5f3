import DataService.Model.Query
import DataService.Model.Error
import DataService.Model.Filter.CanonicalText

/-!
# Cache keys

A result is kept under the pipeline version, the parameters, the canonical filter text and the
order of the query that produced it. A look-up tries looser and looser keys: the exact one, the one
without an order, and the one with neither order nor filter. `generalizations` lists the three, and
`lookupOrder` the distinct ones among them. A hit under a looser key fits the query in structure
only; whether it holds enough rows is for `CachedResult.answers` to say.
-/

set_option autoImplicit false

namespace DataService

/-- The key of a cached result. -/
structure CacheKey where
  pipelineVersion : UInt64
  parameters : Parameters := .empty
  whereClause : Option String := none
  orderBy : List String := []
  deriving DecidableEq, Hashable, Inhabited

namespace CacheKey

/-- The exact key of a query. Without a fingerprint there is none. -/
def ofQuery (q : Query) : Except Failure CacheKey :=
  match q.fingerprint with
  | none => .error (.configuration .noFingerprint)
  | some version =>
    .ok { pipelineVersion := version
          parameters := q.parameters
          whereClause := q.filter.bind Filter.canonicalText
          orderBy := q.orderBy }

/-- The key without its order. -/
def withoutOrder (k : CacheKey) : CacheKey := { k with orderBy := [] }

/-- The key without its filter. -/
def withoutCondition (k : CacheKey) : CacheKey := { k with whereClause := none }

/-- The key and its two generalizations, the most specific first. They may coincide. -/
def generalizations (k : CacheKey) : List CacheKey :=
  [k, k.withoutOrder, k.withoutOrder.withoutCondition]

/-- The distinct generalizations, in the order in which a look-up tries them. -/
def lookupOrder (k : CacheKey) : List CacheKey :=
  k.generalizations.foldl (fun ks j => if j ∈ ks then ks else ks ++ [j]) []

/-- The key as one line of text. -/
def display (k : CacheKey) : String :=
  let version := "v" ++ toString k.pipelineVersion.toNat
  let bindings := k.parameters.bindings.map fun b => b.1 ++ "=" ++ b.2
  let parameters :=
    if bindings.isEmpty then "" else " [" ++ String.intercalate ", " bindings ++ "]"
  let condition := match k.whereClause with
    | none => ""
    | some clause => " WHERE " ++ clause
  let order :=
    if k.orderBy.isEmpty then "" else " ORDER BY " ++ String.intercalate ", " k.orderBy
  version ++ parameters ++ condition ++ order

end CacheKey

end DataService
