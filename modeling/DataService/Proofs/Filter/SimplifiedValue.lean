import DataService.Proofs.Filter.Merge
import DataService.Proofs.Filter.Truth

/-!
# The value of a simplified filter

A filter is written, compared and cached in its simplified form, so that form must mean what the
filter means. Each of the things done to a node keeps its value. Conjunction and disjunction are
associative, so a child that combines its children in the same way may give up its place to them
(`combine_flatMap_splice`); they are idempotent, so an equal sibling may go
(`combine_foldl_pushUnique`); and over a single part they are that part, which may then stand for
the node (`value_collapse`).

Siblings are dropped because they are equal as trees, where numbers compare as floating point
numbers. Nothing but the values that an assignment gives to equal conditions ties this equality to
the meaning, so the assignment has to respect it.
-/

set_option autoImplicit false

namespace DataService

/-! ## Combining values -/

namespace Operator

/-- Two values put together as the children of a node are. -/
def join (operator : Operator) (a b : Truth) : Truth :=
  match operator with
  | .or => max a b
  | .and | .none => min a b

theorem join_assoc (operator : Operator) (a b c : Truth) :
    operator.join (operator.join a b) c = operator.join a (operator.join b c) := by
  cases operator
  · exact min_assoc a b c
  · exact min_assoc a b c
  · exact max_assoc a b c

theorem join_comm (operator : Operator) (a b : Truth) : operator.join a b = operator.join b a := by
  cases operator
  · exact min_comm a b
  · exact min_comm a b
  · exact max_comm a b

theorem join_self (operator : Operator) (a : Truth) : operator.join a a = a := by
  cases operator
  · exact min_self a
  · exact min_self a
  · exact max_self a

/-- Values are combined by joining one after the other. -/
theorem combine_cons (operator : Operator) (a : Truth) (as : List Truth) :
    operator.combine (a :: as) = operator.join a (operator.combine as) := by
  cases operator <;> rfl

/-- The value of nothing is neutral for joining. -/
theorem combine_nil_join (operator : Operator) (a : Truth) :
    operator.join (operator.combine []) a = a := by
  cases operator
  · exact min_eq_right a.le_yes
  · exact min_eq_right a.le_yes
  · exact max_eq_right a.no_le

/-- Values may be combined in two portions. -/
theorem combine_append (operator : Operator) (as bs : List Truth) :
    operator.combine (as ++ bs) = operator.join (operator.combine as) (operator.combine bs) := by
  induction as with
  | nil => rw [List.nil_append, combine_nil_join]
  | cons a as ih => rw [List.cons_append, combine_cons, combine_cons, ih, join_assoc]

/-- A value that is there already adds nothing. -/
theorem combine_join_of_mem (operator : Operator) {a : Truth} {as : List Truth} (h : a ∈ as) :
    operator.join (operator.combine as) a = operator.combine as := by
  induction as with
  | nil => cases h
  | cons b as ih =>
    rw [combine_cons, join_assoc]
    rcases List.mem_cons.1 h with rfl | h
    · rw [join_comm operator (operator.combine as) a, ← join_assoc, join_self]
    · rw [ih h]

/-- A node without an operator combines values as a conjunction does. -/
theorem combine_combining (operator : Operator) (as : List Truth) :
    operator.combining.combine as = operator.combine as := by
  cases operator <;> rfl

end Operator

/-- The assignment gives equal conditions the same value. -/
def Condition.Respects (v : Condition → Truth) : Prop :=
  ∀ c c' : Condition, (c == c') = true → v c = v c'

namespace Filter

variable {v : Condition → Truth}

/-! ## Equal trees -/

mutual

/-- Equal trees have the same value. -/
theorem value_eq_of_beq (respects : Condition.Respects v) :
    (f g : Filter) → f.beq g = true → f.value v = g.value v
  | ⟨o, n, cs, some c⟩, ⟨o', n', cs', some c'⟩, h => by
    simp only [beq, Bool.and_eq_true, beq_iff_eq, Option.some_beq_some] at h
    obtain ⟨⟨⟨-, rfl⟩, -⟩, conditions⟩ := h
    rw [value, value, respects c c' conditions]
  | ⟨o, n, cs, none⟩, ⟨o', n', cs', none⟩, h => by
    simp only [beq, Bool.and_eq_true, beq_iff_eq] at h
    obtain ⟨⟨⟨rfl, rfl⟩, children⟩, -⟩ := h
    rw [value, value, valueAll_eq_of_beqAll respects cs cs' children]
  | ⟨o, n, cs, some c⟩, ⟨o', n', cs', none⟩, h => by simp [beq] at h
  | ⟨o, n, cs, none⟩, ⟨o', n', cs', some c'⟩, h => by simp [beq] at h

/-- Trees that are equal one by one have the same values. -/
theorem valueAll_eq_of_beqAll (respects : Condition.Respects v) :
    (fs gs : List Filter) → beqAll fs gs = true → valueAll v fs = valueAll v gs
  | [], [], _ => rfl
  | f :: fs, g :: gs, h => by
    rw [beqAll, Bool.and_eq_true] at h
    rw [valueAll, valueAll, value_eq_of_beq respects f g h.1,
      valueAll_eq_of_beqAll respects fs gs h.2]
  | [], _ :: _, h => by simp [beqAll] at h
  | _ :: _, [], h => by simp [beqAll] at h

end

/-! ## Merging children -/

/-- A tree that is in the list already may be left out. -/
theorem combine_pushUnique (respects : Condition.Respects v) (operator : Operator)
    (siblings : List Filter) (f : Filter) :
    operator.combine (valueAll v (pushUnique siblings f)) =
      operator.join (operator.combine (valueAll v siblings)) (f.value v) := by
  simp only [valueAll_eq_map]
  unfold pushUnique
  split
  · rename_i present
    obtain ⟨g, member, equal⟩ := List.contains_iff_exists_mem_beq.1 present
    have same : f.value v = g.value v := value_eq_of_beq respects f g equal
    rw [same, operator.combine_join_of_mem (List.mem_map_of_mem member)]
  · rw [List.map_append, operator.combine_append, List.map_singleton, operator.combine_singleton]

/-- Equal siblings may be left out. -/
theorem combine_foldl_pushUnique (respects : Condition.Respects v) (operator : Operator)
    (fs acc : List Filter) :
    operator.combine (valueAll v (fs.foldl pushUnique acc)) =
      operator.join (operator.combine (valueAll v acc)) (operator.combine (valueAll v fs)) := by
  induction fs generalizing acc with
  | nil =>
    rw [List.foldl_nil, valueAll, operator.join_comm, operator.combine_nil_join]
  | cons f fs ih =>
    rw [List.foldl_cons, ih, combine_pushUnique respects, valueAll, operator.combine_cons,
      operator.join_assoc]

/-- What a child brings into a node has the value of the child there. -/
theorem combine_splice (operator : Operator) (child : Filter) :
    operator.combine (valueAll v (splice operator child)) = child.value v := by
  unfold splice
  split
  · rename_i same
    obtain ⟨o, negated, children, condition⟩ := child
    simp only [isLeaf, Bool.and_eq_true, Bool.not_eq_true', Option.isSome_eq_false_iff,
      Option.isNone_iff_eq_none, beq_iff_eq] at same
    obtain ⟨⟨rfl, rfl⟩, rfl⟩ := same
    rfl
  · rw [valueAll, valueAll, operator.combine_singleton]

/-- Children may give up their places to what they bring in. -/
theorem combine_flatMap_splice (operator : Operator) (children : List Filter) :
    operator.combine (valueAll v (children.flatMap (splice operator))) =
      operator.combine (valueAll v children) := by
  induction children with
  | nil => rfl
  | cons child rest ih =>
    have brought := combine_splice (v := v) operator child
    rw [valueAll_eq_map] at ih brought ⊢
    rw [List.flatMap_cons, List.map_append, operator.combine_append, ih, brought, valueAll,
      operator.combine_cons]

/-- Children have the same combined value after those of the same operator were spliced in and
repetitions left out. -/
theorem combine_merge (respects : Condition.Respects v) (operator : Operator)
    (children : List Filter) :
    operator.combine (valueAll v (merge operator children)) =
      operator.combine (valueAll v children) := by
  unfold merge
  rw [combine_foldl_pushUnique respects, combine_flatMap_splice, valueAll,
    operator.combine_nil_join]

/-! ## The simplified tree -/

/-- A node that a single child stands for has the value of a node over that child. -/
theorem value_collapse (operator : Operator) (negated : Bool) (children : List Filter) :
    (collapse operator negated children).value v =
      (operator.combine (valueAll v children)).negateIf negated := by
  cases children with
  | nil => rfl
  | cons first rest =>
    cases rest with
    | nil => rw [collapse, value_negateIf, valueAll, valueAll, operator.combine_singleton]
    | cons second others => rfl

/-- **What a simplified filter means.** A simplified filter has the value of the filter, under every
assignment that respects the equality of conditions. -/
theorem value_simplify (respects : Condition.Respects v) (t : Filter) :
    (simplify t).value v = t.value v := by
  induction t using Filter.induction with
  | leaf operator negated children condition => rfl
  | composite operator negated children ih =>
    have each : valueAll v (simplifyAll children) = valueAll v children := by
      rw [valueAll_eq_map, valueAll_eq_map, simplifyAll_eq_map, List.map_map]
      exact List.map_congr_left ih
    calc (simplify ⟨operator, negated, children, none⟩).value v
      _ = (operator.combining.combine (valueAll v (merge operator.combining
            (simplifyAll children)))).negateIf negated := by rw [simplify, value_collapse]
      _ = (operator.combine (valueAll v (simplifyAll children))).negateIf negated := by
        rw [combine_merge respects, operator.combine_combining]
      _ = (operator.combine (valueAll v children)).negateIf negated := by rw [each]
      _ = Filter.value v ⟨operator, negated, children, none⟩ := by rw [value]

/-- A negated grouping of an empty conjunction, two equal disjunctions and a leaf that carries an
operator and a child comes down to three parts, and stays unknown where one of them is. -/
theorem value_simplify_grouping :
    let v : Condition → Truth := fun c => if c.field = "a" then .unknown else .yes
    let either := anyOf [equals "a" (.number 1.5), (allOf [equals "b" .null]).negate]
    let stray : Filter := ⟨.and, true, [equals "c" .null], some ⟨"a", .isNull, .null⟩⟩
    let t : Filter := ⟨.none, true, [allOf [], either, ⟨.none, false, [either, stray], none⟩], none⟩
    (simplify t).value v = .unknown := by
  intro v either stray t
  have respects : Condition.Respects v := by
    intro c c' equal
    have field : c.field = c'.field := by
      simp only [BEq.beq, Bool.and_eq_true] at equal
      exact eq_of_beq equal.1.1
    simp only [v, field]
  rw [value_simplify respects t]
  decide

end Filter

end DataService
