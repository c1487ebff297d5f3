import DataService.Model.Filter.CanonicalText
import DataService.Proofs.Filter.Merge

/-!
# What the text of a tree shows

A tree carries parts that its text never shows: the operator and the children of a leaf, and the
literal of a comparison that takes none. `Filter.shown` clears them, and a tree is written as what
it shows (`written_shown`), so trees that show the same have the same text.

For the converse the text has to give the structure away. A composite over one part would look like
that part in parentheses, and one without an operator like a conjunction. In a `Spelled` tree every
composite joins two parts or more by AND or OR. Simplified trees are spelled
(`Legible.simplify_spelled`) when no composite of the tree they come from is empty.
-/

set_option autoImplicit false

namespace DataService

/-- The parts of a condition that its text shows. -/
def Condition.shown (c : Condition) : Condition :=
  if c.comparator.isUnary then { c with value := .null } else c

namespace Filter

mutual

/-- The parts of a tree that its text shows. -/
def shown : Filter → Filter
  | ⟨_, negated, _, some condition⟩ => ⟨.none, negated, [], some condition.shown⟩
  | ⟨operator, negated, children, none⟩ => ⟨operator, negated, shownAll children, none⟩

/-- The parts of several trees that their texts show. -/
def shownAll : List Filter → List Filter
  | [] => []
  | f :: fs => shown f :: shownAll fs

end

theorem shownAll_eq_map (fs : List Filter) : shownAll fs = fs.map shown := by
  induction fs with
  | nil => rfl
  | cons f fs ih => rw [shownAll, ih, List.map_cons]

theorem writtenAll_eq_map (fs : List Filter) : writtenAll fs = fs.map written := by
  induction fs with
  | nil => rfl
  | cons f fs ih => rw [writtenAll, ih, List.map_cons]

/-- A condition is written as it is shown. -/
theorem written_shown_condition (c : Condition) : c.shown.written = c.written := by
  unfold Condition.shown
  split
  · rename_i h
    simp [Condition.written, h]
  · rfl

mutual

/-- A tree is written as what it shows. -/
theorem written_shown : (f : Filter) → f.shown.written = f.written
  | ⟨_, negated, _, some condition⟩ => by
    rw [shown, written, written, written_shown_condition]
  | ⟨operator, negated, children, none⟩ => by
    rw [shown, written, written, writtenAll_shownAll children]

/-- Trees are written as what they show. -/
theorem writtenAll_shownAll : (fs : List Filter) → writtenAll (shownAll fs) = writtenAll fs
  | [] => rfl
  | f :: fs => by
    rw [shownAll, writtenAll, writtenAll, written_shown f, writtenAll_shownAll fs]

end

end Filter

/-- Literals in which no number occurs, at any depth of lists. -/
inductive Literal.NumberFree : Literal → Prop
  | null : NumberFree .null
  | boolean (b : Bool) : NumberFree (.boolean b)
  | integer (n : Int64) : NumberFree (.integer n)
  | text (s : String) : NumberFree (.text s)
  | list {items : List Literal} : (∀ v ∈ items, NumberFree v) → NumberFree (.list items)

/-- Conditions that are written without a number. -/
def Condition.Legible (c : Condition) : Prop := c.comparator.isUnary = false → c.value.NumberFree

namespace Filter

/-- Trees that are written without a number and in which no composite is empty. -/
inductive Legible : Filter → Prop
  | leaf {operator : Operator} {negated : Bool} {children : List Filter} {c : Condition} :
    c.Legible → Legible ⟨operator, negated, children, some c⟩
  | composite {operator : Operator} {negated : Bool} {children : List Filter} :
    children ≠ [] → (∀ f ∈ children, Legible f) → Legible ⟨operator, negated, children, none⟩

/-- Trees that are written without a number and in which every composite joins two parts or more by
an operator. -/
inductive Spelled : Filter → Prop
  | leaf {operator : Operator} {negated : Bool} {children : List Filter} {c : Condition} :
    c.Legible → Spelled ⟨operator, negated, children, some c⟩
  | composite {operator : Operator} {negated : Bool} {first second : Filter}
    {others : List Filter} :
    operator ≠ .none → (∀ f ∈ first :: second :: others, Spelled f) →
      Spelled ⟨operator, negated, first :: second :: others, none⟩

/-- A tree that is spelled out is so under a negation. -/
theorem Spelled.negateIf {f : Filter} (h : f.Spelled) (b : Bool) : (f.negateIf b).Spelled := by
  cases h with
  | leaf hc => exact .leaf hc
  | composite hop hall => exact .composite hop hall

/-- A spelled tree brings something into a node, and only spelled trees. -/
theorem Spelled.splice {f : Filter} (h : f.Spelled) (operator : Operator) :
    Filter.splice operator f ≠ [] ∧ ∀ g ∈ Filter.splice operator f, g.Spelled := by
  unfold Filter.splice
  split
  · rename_i hsame
    cases h with
    | leaf hc => simp [isLeaf] at hsame
    | composite hop hall => exact ⟨by simp, hall⟩
  · refine ⟨by simp, ?_⟩
    intro g hg
    rw [List.mem_singleton.1 hg]
    exact h

/-- A node over parts that are spelled out is spelled out, if there are any. -/
theorem spelled_collapse {operator : Operator} (hop : operator ≠ .none) (negated : Bool)
    {parts : List Filter} (hne : parts ≠ []) (h : ∀ f ∈ parts, f.Spelled) :
    (collapse operator negated parts).Spelled := by
  cases parts with
  | nil => exact absurd rfl hne
  | cons first rest =>
    cases rest with
    | nil => exact (h first (List.mem_singleton.2 rfl)).negateIf negated
    | cons second others => exact .composite hop h

theorem combining_ne_none (operator : Operator) : operator.combining ≠ .none := by
  cases operator <;> simp [Operator.combining]

/-- A simplified tree is spelled, unless a composite was empty. -/
theorem Legible.simplify_spelled {f : Filter} (h : f.Legible) : f.simplify.Spelled := by
  induction h with
  | leaf hc => exact .leaf hc
  | @composite operator negated children hne _ ih =>
    rw [simplify, simplifyAll_eq_map]
    have hspelled : ∀ g ∈ children.map simplify, g.Spelled := by
      intro g hg
      obtain ⟨child, hchild, rfl⟩ := List.mem_map.1 hg
      exact ih child hchild
    apply spelled_collapse (combining_ne_none operator)
    · apply merge_ne_nil (by simpa using hne)
      intro child hchild
      exact ((hspelled child hchild).splice _).1
    · intro g hg
      obtain ⟨child, hchild, hsplice⟩ := exists_mem_splice_of_mem hg
      exact ((hspelled child hchild).splice _).2 g hsplice

end Filter

end DataService
