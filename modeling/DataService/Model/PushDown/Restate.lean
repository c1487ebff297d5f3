import DataService.Model.Filter.Tree
import DataService.Model.PushDown.FieldMap

/-!
# Filters in the terms of an earlier step

`Filter.restate` states the part of a filter that an earlier step can evaluate in the terms of that
step. A condition on a mapped field is renamed, one on another field is lost. A conjunction keeps
what is left of its children and is lost when nothing is; a disjunction is lost with any of its
children, and an empty one is lost as well. A single survivor takes the place of its parent and the
parent's negation with it.

The whole filter is still evaluated later on. Where no negation stands above a lost part, the
restated filter keeps every row that the filter keeps; a part lost under a negated conjunction
narrows it.
-/

set_option autoImplicit false

namespace DataService

/-- The values of a list in which none is missing. -/
def allPresent {α : Type} : List (Option α) → Option (List α)
  | [] => some []
  | none :: _ => none
  | some a :: rest => (allPresent rest).map (a :: ·)

namespace Filter

/-- A node over the survivors of its children; a single survivor stands for the node, and a leaf
among such survivors loses its operator. -/
def promote (operator : Operator) (negated : Bool) : List Filter → Option Filter
  | [] => none
  | [only] =>
    some ((if only.isLeaf then { only with operator := .none } else only).negateIf negated)
  | survivors => some ⟨operator, negated, survivors, none⟩

mutual

/-- What an earlier step can evaluate of a filter, in its own names. -/
def restate (m : FieldMap) : Filter → Option Filter
  | ⟨operator, negated, children, some condition⟩ =>
    (m.target? condition.field).map fun target =>
      ⟨operator, negated, children, some { condition with field := target }⟩
  | ⟨.or, negated, children, none⟩ =>
    (allPresent (restateAll m children)).bind (promote .or negated)
  | ⟨.and, negated, children, none⟩ =>
    promote .and negated ((restateAll m children).filterMap id)
  | ⟨.none, negated, children, none⟩ =>
    promote .and negated ((restateAll m children).filterMap id)

/-- What is left of several filters, each for itself. -/
def restateAll (m : FieldMap) : List Filter → List (Option Filter)
  | [] => []
  | f :: fs => restate m f :: restateAll m fs

end

end Filter

end DataService
