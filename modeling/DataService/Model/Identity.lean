/-!
# Identities

Runs, populations, stores and boards are told apart by serial numbers, which are never used twice.
A run also has the name under which an engine reaches it: a name can pass to another run, and then
the earlier run is gone, while its identity is still that of no other run.
-/

set_option autoImplicit false

namespace DataService

/-- The identity of a run. -/
structure RunId where
  name : String
  serial : Nat
  deriving DecidableEq, Repr, Inhabited

/-- The identity of a population. -/
structure PopulationId where
  serial : Nat
  deriving DecidableEq, Repr, Inhabited

/-- The identity of a store. -/
structure StoreId where
  serial : Nat
  deriving DecidableEq, Repr, Inhabited

/-- The identity of a board on which services note the populations in flight. -/
structure BoardId where
  serial : Nat
  deriving DecidableEq, Repr, Inhabited

/-- Who owns a run. -/
inductive Owner where
  /-- A population, which is shown by its label. -/
  | population (id : PopulationId) (label : String)
  /-- Someone else, who goes by a name. -/
  | outsider (name : String)
  deriving DecidableEq, Repr

/-- How an owner is shown. -/
def Owner.text : Owner → String
  | .population _ label => label
  | .outsider name => name

end DataService
