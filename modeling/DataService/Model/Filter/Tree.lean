/-!
# Filter trees

A query's WHERE clause is a tree of conditions. A node with a condition is a leaf, whatever else it
carries; a node without one combines its children, all of which must hold under `and` or under no
operator, and one of which must hold under `or`. Every node may be negated.

Literals are compared case by case, and numbers as floating point numbers: a NaN differs from
itself, and the two zeros are equal. `beq` on trees rests on that comparison.
-/

set_option autoImplicit false

namespace DataService

/-- How a node combines its children. -/
inductive Operator where
  /-- No operator: leaves have it, and a node without a condition reads as a conjunction. -/
  | none
  | and
  | or
  deriving DecidableEq, Repr, Inhabited

/-- How a condition compares a field. -/
inductive Comparator where
  | eq
  | ne
  | lt
  | le
  | gt
  | ge
  | like
  | isIn
  | isNull
  | isNotNull
  deriving DecidableEq, Repr, Inhabited

namespace Comparator

/-- The spelling in a query. -/
def sql : Comparator → String
  | .eq => "="
  | .ne => "<>"
  | .lt => "<"
  | .le => "<="
  | .gt => ">"
  | .ge => ">="
  | .like => "LIKE"
  | .isIn => "IN"
  | .isNull => "IS NULL"
  | .isNotNull => "IS NOT NULL"

/-- Whether the comparison has no literal. -/
def isUnary : Comparator → Bool
  | .isNull | .isNotNull => true
  | _ => false

end Comparator

/-- The value a field is compared with. -/
inductive Literal where
  | null
  | boolean (value : Bool)
  | integer (value : Int64)
  | number (value : Float)
  | text (value : String)
  | list (items : List Literal)
  deriving Inhabited

namespace Literal

mutual

/-- Equality of literals of one case. -/
def beq : Literal → Literal → Bool
  | .null, .null => true
  | .boolean a, .boolean b => a == b
  | .integer a, .integer b => a == b
  | .number a, .number b => a == b
  | .text a, .text b => a == b
  | .list a, .list b => beqItems a b
  | _, _ => false

/-- Equality of lists, item by item. -/
def beqItems : List Literal → List Literal → Bool
  | [], [] => true
  | a :: as, b :: bs => beq a b && beqItems as bs
  | _, _ => false

end

instance : BEq Literal := ⟨beq⟩

end Literal

/-- One comparison: a field, a comparator and a literal. -/
structure Condition where
  field : String
  comparator : Comparator
  value : Literal
  deriving Inhabited

instance : BEq Condition :=
  ⟨fun a b => a.field == b.field && a.comparator == b.comparator && a.value == b.value⟩

/-- A node of a filter tree. -/
structure Filter where
  operator : Operator
  negated : Bool
  children : List Filter
  condition : Option Condition
  deriving Inhabited

namespace Filter

mutual

/-- Equality of trees, node by node. -/
def beq : Filter → Filter → Bool
  | ⟨o, n, cs, c⟩, ⟨o', n', cs', c'⟩ => o == o' && n == n' && beqAll cs cs' && c == c'

/-- Equality of lists of trees, one by one. -/
def beqAll : List Filter → List Filter → Bool
  | [], [] => true
  | f :: fs, g :: gs => beq f g && beqAll fs gs
  | _, _ => false

end

instance : BEq Filter := ⟨beq⟩

/-- A node with a condition is a leaf. -/
def isLeaf (f : Filter) : Bool := f.condition.isSome

/-- The tree negated where `b` holds. -/
def negateIf (b : Bool) (f : Filter) : Filter := { f with negated := f.negated ^^ b }

/-- The opposite tree. -/
def negate (f : Filter) : Filter := f.negateIf true

/-- A leaf. -/
def leaf (field : String) (comparator : Comparator) (value : Literal) : Filter :=
  ⟨.none, false, [], some ⟨field, comparator, value⟩⟩

/-- The leaf `field = value`. -/
def equals (field : String) (value : Literal) : Filter := leaf field .eq value

/-- The leaf `field IS NULL`. -/
def isNull (field : String) : Filter := leaf field .isNull .null

/-- The leaf `field IN (values)`. -/
def isIn (field : String) (values : List Literal) : Filter := leaf field .isIn (.list values)

/-- A node that combines children. -/
def composite (operator : Operator) (children : List Filter) : Filter :=
  ⟨operator, false, children, none⟩

/-- The conjunction of the children. -/
def allOf (children : List Filter) : Filter := composite .and children

/-- The disjunction of the children. -/
def anyOf (children : List Filter) : Filter := composite .or children

/-- Both trees. -/
def and (f g : Filter) : Filter := allOf [f, g]

/-- Either tree. -/
def or (f g : Filter) : Filter := anyOf [f, g]

/-- The parts of a flat filter under one operator: no parts make no filter, and a single part
stands for itself. -/
def build (operator : Operator) : List Filter → Option Filter
  | [] => none
  | [f] => some f
  | parts => some (composite operator parts)

mutual

/-- The fields of the conditions, in tree order and with repetitions. -/
def fields : Filter → List String
  | ⟨_, _, children, condition⟩ => (condition.map (·.field)).toList ++ fieldsOfAll children

/-- The fields of several trees, one after the other. -/
def fieldsOfAll : List Filter → List String
  | [] => []
  | f :: fs => fields f ++ fieldsOfAll fs

end

/-- Induction on a tree: a node without a condition has what all its children have. -/
@[elab_as_elim]
theorem induction {P : Filter → Prop}
    (leaf : ∀ operator negated children condition,
      P ⟨operator, negated, children, some condition⟩)
    (composite : ∀ operator negated children, (∀ f ∈ children, P f) →
      P ⟨operator, negated, children, none⟩) : (t : Filter) → P t
  | ⟨operator, negated, children, some condition⟩ => leaf operator negated children condition
  | ⟨operator, negated, children, none⟩ =>
    composite operator negated children fun f _member => induction leaf composite f
termination_by t => t
decreasing_by
  have smaller := List.sizeOf_lt_of_mem _member
  simp only [Filter.mk.sizeOf_spec]
  omega

end Filter

end DataService
