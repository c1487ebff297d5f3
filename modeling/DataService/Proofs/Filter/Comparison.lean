import DataService.Model.Filter.Tree

/-!
# How trees compare

The comparison of trees is no equality: a tree with a NaN in it differs from itself. It is symmetric
though, from floating point numbers (`float_beq_comm`) up to trees (`Filter.beq_comm`), so that which
of two siblings is compared with the other makes no difference.
-/

set_option autoImplicit false

namespace DataService

/-- Which of two floating point numbers comes first in the comparison makes no difference. -/
theorem compare_eq_iff_compare_eq (x y : Float.Model.UnpackedFloat) :
    x.compare y = some .eq ↔ y.compare x = some .eq := by
  cases x with
  | notANumber => cases y <;> exact Iff.rfl
  | infinity sign =>
    cases y with
    | notANumber => exact Iff.rfl
    | infinity sign' => cases sign <;> cases sign' <;> decide
    | _ => cases sign <;> exact iff_of_false nofun nofun
  | zero sign =>
    cases y with
    | notANumber | zero => exact Iff.rfl
    | infinity sign' | finite sign' => cases sign' <;> exact iff_of_false nofun nofun
  | finite sign mantissa exponent =>
    cases y with
    | notANumber => exact Iff.rfl
    | infinity sign' => cases sign' <;> exact iff_of_false nofun nofun
    | zero => cases sign <;> exact iff_of_false nofun nofun
    | finite sign' mantissa' exponent' =>
      -- of equal signs, the exponents are compared first
      have same_sign : (compare exponent exponent').then (compare mantissa mantissa') = .eq ↔
          (compare exponent' exponent).then (compare mantissa' mantissa) = .eq := by
        simp [Ordering.then_eq_eq, eq_comm (a := exponent), eq_comm (a := mantissa)]
      cases sign <;> cases sign'
      · have swapped := Ordering.swap_eq_eq.trans (same_sign.trans Ordering.swap_eq_eq.symm)
        exact Option.some_inj.trans (swapped.trans Option.some_inj.symm)
      · exact iff_of_false nofun nofun
      · exact iff_of_false nofun nofun
      · exact Option.some_inj.trans (same_sign.trans Option.some_inj.symm)

/-- Comparison of numbers is symmetric, even where a number is not equal to itself. -/
theorem float_beq_comm (x y : Float) : (x == y) = (y == x) := by
  rw [Bool.eq_iff_iff]
  change (x.toModel.unpack.compare y.toModel.unpack == some .eq) = true ↔
    (y.toModel.unpack.compare x.toModel.unpack == some .eq) = true
  rw [beq_iff_eq, beq_iff_eq]
  exact compare_eq_iff_compare_eq _ _

namespace Literal

mutual

/-- Comparison of literals is symmetric. -/
theorem beq_comm : (v w : Literal) → v.beq w = w.beq v
  | .null, w => by cases w <;> rfl
  | .boolean a, w => by cases w <;> simp only [beq, Bool.beq_comm]
  | .integer a, w => by cases w <;> simp only [beq, BEq.comm]
  | .number x, w => by cases w <;> simp only [beq, float_beq_comm]
  | .text s, w => by cases w <;> simp only [beq, BEq.comm]
  | .list items, w => by
    cases w with
    | list items' => exact beqItems_comm items items'
    | _ => rfl

/-- Comparison of the items of lists is symmetric. -/
theorem beqItems_comm : (vs ws : List Literal) → beqItems vs ws = beqItems ws vs
  | [], ws => by cases ws <;> rfl
  | v :: vs, ws => by
    cases ws with
    | nil => rfl
    | cons w ws => rw [beqItems, beqItems, beq_comm v w, beqItems_comm vs ws]

end

end Literal

/-- Comparison of conditions is symmetric. -/
theorem Condition.beq_comm (c d : Condition) : (c == d) = (d == c) := by
  change (c.field == d.field && c.comparator == d.comparator && c.value.beq d.value) =
    (d.field == c.field && d.comparator == c.comparator && d.value.beq c.value)
  rw [BEq.comm (a := c.field), BEq.comm (a := c.comparator), Literal.beq_comm]

namespace Filter

/-- Comparison of what is at two nodes is symmetric, whether it is a condition or not. -/
theorem beq_condition_comm (c d : Option Condition) : (c == d) = (d == c) := by
  cases c <;> cases d <;> first | rfl | exact Condition.beq_comm _ _

mutual

/-- Comparison of trees by their nodes is symmetric. -/
theorem beq_eq_beq_comm : (f g : Filter) → f.beq g = g.beq f
  | ⟨o, n, fs, c⟩, ⟨o', n', gs, c'⟩ => by
    rw [beq, beq, beqAll_comm fs gs, beq_condition_comm c c', BEq.comm (a := o),
      BEq.comm (a := n)]

/-- Comparison of the children of trees is symmetric. -/
theorem beqAll_comm : (fs gs : List Filter) → beqAll fs gs = beqAll gs fs
  | [], gs => by cases gs <;> rfl
  | f :: fs, gs => by
    cases gs with
    | nil => rfl
    | cons g gs => rw [beqAll, beqAll, beq_eq_beq_comm f g, beqAll_comm fs gs]

end

/-- Which of two trees comes first in the comparison makes no difference. -/
theorem beq_comm (f g : Filter) : (f == g) = (g == f) := beq_eq_beq_comm f g

end Filter

end DataService
