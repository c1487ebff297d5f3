import DataService.Model.Filter.Simplify
import DataService.Model.PushDown.Restate
import Mathlib.Data.List.Basic

/-!
# What is left of a node

Conjunctions and disjunctions are restated alike: the restated node stands over what is left of its
children (`restate_of_intact`). They differ in when they are lost with a child
(`restate_of_not_intact`), and no node is left without a survivor (`promote_eq_none_iff`). These
three say all that restating does to a node, and nothing outside this file needs its arms.

A single survivor stands for its node, as a leaf it loses its operator, and takes over the negation.
Restating passes through both changes (`restate_alone`, `restate_negateIf`).
-/

set_option autoImplicit false

namespace DataService

/-- One item that fails makes all of them fail. -/
theorem allPresent_map_eq_none {α β : Type} {f : α → Option β} {as : List α}
    (h : ∃ a ∈ as, f a = none) : allPresent (as.map f) = none := by
  induction as with
  | nil => simp at h
  | cons a rest ih =>
    rw [List.map_cons]
    cases ha : f a with
    | none => rfl
    | some b =>
      obtain ⟨a', hmem, lost⟩ := h
      have hrest : a' ∈ rest := by
        rcases List.mem_cons.1 hmem with rfl | hrest
        · rw [ha] at lost
          cases lost
        · exact hrest
      rw [allPresent, ih ⟨a', hrest, lost⟩, Option.map_none]

/-- Where no item fails, each of them is there, in order. -/
theorem allPresent_map_eq_some {α β : Type} {f : α → Option β} {as : List α}
    (h : ∀ a ∈ as, f a ≠ none) : allPresent (as.map f) = some (as.filterMap f) := by
  induction as with
  | nil => rfl
  | cons a rest ih =>
    obtain ⟨b, hb⟩ := Option.ne_none_iff_exists'.1 (h a (List.mem_cons_self ..))
    have hrest := ih fun a' hmem => h a' (List.mem_cons_of_mem _ hmem)
    rw [List.map_cons, hb, allPresent, hrest, Option.map_some, List.filterMap_cons_some hb]

namespace Filter

variable {m : FieldMap} {operator : Operator} {negated : Bool} {children survivors : List Filter}

theorem restateAll_eq_map (m : FieldMap) (fs : List Filter) :
    restateAll m fs = fs.map (restate m) := by
  induction fs with
  | nil => rfl
  | cons f fs ih => rw [restateAll, ih, List.map_cons]

/-- The node is not lost with a child: no child of a disjunction is lost. -/
def Intact (m : FieldMap) (operator : Operator) (children : List Filter) : Prop :=
  operator = .or → ∀ f ∈ children, restate m f ≠ none

/-- A disjunction is lost with any one of its children. -/
theorem restate_of_not_intact (h : ¬ Intact m operator children) :
    restate m ⟨operator, negated, children, none⟩ = none := by
  simp only [Intact, Classical.not_imp, not_forall, not_not] at h
  obtain ⟨rfl, f, hf, lost⟩ := h
  rw [restate, restateAll_eq_map, allPresent_map_eq_none ⟨f, hf, lost⟩, Option.bind_none]

/-- A node that is not lost with a child stands over what is left of its children. -/
theorem restate_of_intact (h : Intact m operator children) :
    restate m ⟨operator, negated, children, none⟩ =
      promote operator.combining negated (children.filterMap (restate m)) := by
  have kept : (restateAll m children).filterMap id = children.filterMap (restate m) := by
    rw [restateAll_eq_map, List.filterMap_map]
    rfl
  cases operator with
  | none => rw [restate, kept, Operator.combining]
  | and => rw [restate, kept, Operator.combining]
  | or =>
    rw [restate, restateAll_eq_map, allPresent_map_eq_some (h rfl), Option.bind_some,
      Operator.combining]

/-- What is left of a node is a node over what is left of its children. -/
theorem promote_of_restate {g : Filter}
    (h : restate m ⟨operator, negated, children, none⟩ = some g) :
    promote operator.combining negated (children.filterMap (restate m)) = some g := by
  by_cases hintact : Intact m operator children
  · rw [← h, restate_of_intact hintact]
  · rw [restate_of_not_intact hintact] at h
    cases h

/-! ## Nodes over survivors -/

/-- The tree as it stands for its parent: a leaf loses its operator. -/
def alone (f : Filter) : Filter := if f.isLeaf then { f with operator := .none } else f

/-- A single survivor stands for its node, under the negation of the node. -/
theorem promote_singleton (operator : Operator) (negated : Bool) (f : Filter) :
    promote operator negated [f] = some (f.alone.negateIf negated) := rfl

/-- Two survivors or more stay the children of their node. -/
theorem promote_of_two_le (h : 2 ≤ survivors.length) :
    promote operator negated survivors = some ⟨operator, negated, survivors, none⟩ := by
  rcases survivors with _ | ⟨first, _ | ⟨second, others⟩⟩
  · simp at h
  · simp at h
  · rfl

/-- A node is lost only where none of its children survives. -/
theorem promote_eq_none_iff : promote operator negated survivors = none ↔ survivors = [] := by
  rcases survivors with _ | ⟨first, _ | ⟨second, others⟩⟩
  · exact iff_of_true rfl rfl
  · simp [promote]
  · simp [promote]

/-- Two negations, each if its flag is set, are one, if exactly one of the flags is. -/
theorem negateIf_negateIf (f : Filter) (b c : Bool) :
    (f.negateIf b).negateIf c = f.negateIf (b ^^ c) := by
  simp only [negateIf, Bool.xor_assoc]

/-- A tree loses its operator and gains a negation in either order. -/
theorem alone_negateIf (f : Filter) (b : Bool) : (f.negateIf b).alone = f.alone.negateIf b := by
  obtain ⟨o, n, fs, c⟩ := f
  cases c <;> rfl

/-- A leaf loses its operator once. -/
theorem alone_alone (f : Filter) : f.alone.alone = f.alone := by
  obtain ⟨o, n, fs, c⟩ := f
  cases c <;> rfl

/-- The negation of a node can be applied to what its survivors make of it. -/
theorem promote_xor (operator : Operator) (b c : Bool) (survivors : List Filter) :
    promote operator (b ^^ c) survivors = (promote operator b survivors).map (negateIf c) := by
  rcases survivors with _ | ⟨first, _ | ⟨second, others⟩⟩
  · rfl
  · rw [promote_singleton, promote_singleton, Option.map_some, negateIf_negateIf]
  · rfl

/-- A node over survivors stands for its parent already. -/
theorem promote_map_alone (operator : Operator) (negated : Bool) (survivors : List Filter) :
    (promote operator negated survivors).map alone = promote operator negated survivors := by
  rcases survivors with _ | ⟨first, _ | ⟨second, others⟩⟩
  · rfl
  · rw [promote_singleton, Option.map_some, alone_negateIf, alone_alone]
  · rfl

/-! ## Restating a single survivor -/

/-- What is left of a negated tree is the negation of what is left of the tree. -/
theorem restate_negateIf (m : FieldMap) (f : Filter) (b : Bool) :
    restate m (f.negateIf b) = (restate m f).map (negateIf b) := by
  obtain ⟨operator, negated, children, condition⟩ := f
  rw [negateIf]
  cases condition with
  | some condition =>
    rw [restate, restate, Option.map_map]
    rfl
  | none =>
    by_cases h : Intact m operator children
    · rw [restate_of_intact h, restate_of_intact h, promote_xor]
    · rw [restate_of_not_intact h, restate_of_not_intact h, Option.map_none]

/-- A leaf may lose its operator before it is restated or afterwards. What is left of a composite
has none to lose, since a leaf among it stands for its parent already. -/
theorem restate_alone (m : FieldMap) (f : Filter) :
    restate m f.alone = (restate m f).map alone := by
  obtain ⟨operator, negated, children, condition⟩ := f
  cases condition with
  | some condition =>
    change restate m ⟨.none, negated, children, some condition⟩ = _
    rw [restate, restate, Option.map_map]
    rfl
  | none =>
    change restate m ⟨operator, negated, children, none⟩ = _
    by_cases h : Intact m operator children
    · rw [restate_of_intact h, promote_map_alone]
    · rw [restate_of_not_intact h, Option.map_none]

end Filter

end DataService
