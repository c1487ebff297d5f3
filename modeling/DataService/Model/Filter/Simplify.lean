import DataService.Model.Filter.Tree

/-!
# Simplified filters

`Filter.simplify` brings a tree into the form that canonical text is written from. At every node
without a condition it does four things to the already simplified children: no operator becomes a
conjunction, a child of the same operator that is not negated gives up its place to its own
children, of equal siblings only the first stays, and a single child takes the place of its parent
and the parent's negation with it. Leaves stay as they are.
-/

set_option autoImplicit false

namespace DataService

/-- The operator a node combines its children by: without one they form a conjunction. -/
def Operator.combining : Operator → Operator
  | .or => .or
  | .and | .none => .and

namespace Filter

/-- Appends a tree that is not yet in the list. -/
def pushUnique (siblings : List Filter) (f : Filter) : List Filter :=
  if siblings.contains f then siblings else siblings ++ [f]

/-- What a simplified child brings into a node: its children where it combines them in the same
way, itself otherwise. -/
def splice (operator : Operator) (child : Filter) : List Filter :=
  if !child.negated && !child.isLeaf && child.operator == operator then child.children else [child]

/-- The siblings that simplified children leave in a node, each of them once. -/
def merge (operator : Operator) (children : List Filter) : List Filter :=
  (children.flatMap (splice operator)).foldl pushUnique []

/-- A node over the given children; a single child stands for the node. -/
def collapse (operator : Operator) (negated : Bool) : List Filter → Filter
  | [only] => only.negateIf negated
  | children => ⟨operator, negated, children, none⟩

mutual

/-- The simplified tree. -/
def simplify : Filter → Filter
  | ⟨operator, negated, children, some condition⟩ => ⟨operator, negated, children, some condition⟩
  | ⟨operator, negated, children, none⟩ =>
    collapse operator.combining negated (merge operator.combining (simplifyAll children))

/-- The simplified trees of several. -/
def simplifyAll : List Filter → List Filter
  | [] => []
  | f :: fs => simplify f :: simplifyAll fs

end

end Filter

end DataService
