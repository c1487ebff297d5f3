import DataService.Model.Filter.Tree
import Mathlib.Order.MinMax

/-!
# The truth of a filter

A condition need not be true or false of a row: comparing with a missing value is unknown. Truth
values are ordered `no < unknown < yes`, a conjunction has the least of its parts' values and a
disjunction the greatest, and negation turns the order around. `Filter.value` is the value of a tree
under an assignment of values to its conditions; a row enters only through such an assignment.

`InOrder` compares two values in one direction or the other. Arguments that go up through a tree
turn their direction at every negation, and are made once for both directions.
-/

set_option autoImplicit false

namespace DataService

/-- The truth values of a condition on a row. -/
inductive Truth where
  | no
  | unknown
  | yes
  deriving DecidableEq, Repr

namespace Truth

/-- The place of a value in the order. -/
def rank : Truth → Nat
  | .no => 0
  | .unknown => 1
  | .yes => 2

/-- Different values have different ranks. -/
theorem rank_injective : Function.Injective rank := by
  intro a b h
  cases a <;> cases b <;> first | rfl | exact absurd h (by decide)

instance : LinearOrder Truth := LinearOrder.lift' rank rank_injective

theorem no_le (a : Truth) : .no ≤ a := by
  cases a <;> decide

theorem le_yes (a : Truth) : a ≤ .yes := by
  cases a <;> decide

/-- The opposite value; what is unknown stays so. -/
def not : Truth → Truth
  | .no => .yes
  | .unknown => .unknown
  | .yes => .no

/-- The opposite value where `b` holds. -/
def negateIf (b : Bool) (a : Truth) : Truth := if b then a.not else a

theorem not_not (a : Truth) : a.not.not = a := by
  cases a <;> rfl

/-- Negation turns the order around. -/
theorem not_le_not {a b : Truth} (h : a ≤ b) : b.not ≤ a.not := by
  revert h
  cases a <;> cases b <;> decide

/-- Two negations, each if its flag is set, are one, if exactly one of the flags is. -/
theorem negateIf_negateIf (b c : Bool) (a : Truth) :
    (a.negateIf b).negateIf c = a.negateIf (b ^^ c) := by
  cases b <;> cases c <;> simp [negateIf, not_not]

/-- Two values in ascending order, or in descending order where `down` holds. -/
def InOrder (down : Bool) (a b : Truth) : Prop := if down then b ≤ a else a ≤ b

theorem InOrder.refl (down : Bool) (a : Truth) : InOrder down a a := by
  cases down <;> exact le_refl a

/-- The lesser values of two pairs in order are in order. -/
theorem InOrder.least {down : Bool} {a b c d : Truth} (h : InOrder down a b)
    (h' : InOrder down c d) : InOrder down (min a c) (min b d) := by
  cases down
  · exact min_le_min h h'
  · exact min_le_min h h'

/-- The greater values of two pairs in order are in order. -/
theorem InOrder.greatest {down : Bool} {a b c d : Truth} (h : InOrder down a b)
    (h' : InOrder down c d) : InOrder down (max a c) (max b d) := by
  cases down
  · exact max_le_max h h'
  · exact max_le_max h h'

/-- A negation turns the direction around. -/
theorem InOrder.negateIf {down n : Bool} {a b : Truth} (h : InOrder (down ^^ n) a b) :
    InOrder down (a.negateIf n) (b.negateIf n) := by
  cases n
  · cases down <;> exact h
  · cases down
    · exact not_le_not h
    · exact not_le_not h

end Truth

/-- The value of a node before its negation, from the values of its children. -/
def Operator.combine (operator : Operator) (values : List Truth) : Truth :=
  match operator with
  | .or => values.foldr max .no
  | .and | .none => values.foldr min .yes

/-- A single value is combined to itself, whatever the operator. -/
theorem Operator.combine_singleton (operator : Operator) (a : Truth) :
    operator.combine [a] = a := by
  cases operator
  · exact min_eq_left a.le_yes
  · exact min_eq_left a.le_yes
  · exact max_eq_left a.no_le

namespace Filter

mutual

/-- The value of a tree under an assignment of values to conditions. -/
def value (v : Condition → Truth) : Filter → Truth
  | ⟨_, negated, _, some condition⟩ => (v condition).negateIf negated
  | ⟨operator, negated, children, none⟩ => (operator.combine (valueAll v children)).negateIf negated

/-- The values of several trees. -/
def valueAll (v : Condition → Truth) : List Filter → List Truth
  | [] => []
  | f :: fs => value v f :: valueAll v fs

end

theorem valueAll_eq_map (v : Condition → Truth) (fs : List Filter) :
    valueAll v fs = fs.map (value v) := by
  induction fs with
  | nil => rfl
  | cons f fs ih => rw [valueAll, ih, List.map_cons]

/-- A negated tree has the opposite value. -/
theorem value_negateIf (v : Condition → Truth) (f : Filter) (b : Bool) :
    (f.negateIf b).value v = (f.value v).negateIf b := by
  obtain ⟨operator, negated, children, condition⟩ := f
  cases condition with
  | none => rw [negateIf, value, value, Truth.negateIf_negateIf]
  | some condition => rw [negateIf, value, value, Truth.negateIf_negateIf]

end Filter

end DataService
