import DataService.Model.Filter.Tree
import Mathlib.Data.List.Basic

/-!
# The nodes of a tree

`Filter.paths` walks through a tree in tree order, a node before its children, and gives every node
with the path that leads down to it. The nodes and the conditions of a tree are read off that walk,
and `nodes_eq` and `conditions_eq` say what a tree adds to those of its children. The fields that a
filter names are the fields of its conditions (`fields_eq_map_conditions`).
-/

set_option autoImplicit false

namespace DataService.Filter

mutual

/-- The nodes of a tree in tree order, each behind the nodes from the root down to it, itself
included. What a leaf carries as children is part of the tree. -/
def paths : Filter → List (List Filter × Filter)
  | ⟨operator, negated, children, condition⟩ =>
    let root : Filter := ⟨operator, negated, children, condition⟩
    ([root], root) :: (pathsOfAll children).map fun path => (root :: path.1, path.2)

/-- The nodes of several trees, one tree after the other. -/
def pathsOfAll : List Filter → List (List Filter × Filter)
  | [] => []
  | f :: fs => paths f ++ pathsOfAll fs

end

/-- The nodes of a tree, in tree order. -/
def nodes (f : Filter) : List Filter := f.paths.map fun path => path.2

/-- The conditions of a tree, in tree order. -/
def conditions (f : Filter) : List Condition := f.nodes.filterMap fun node => node.condition

theorem pathsOfAll_eq_flatMap (fs : List Filter) : pathsOfAll fs = fs.flatMap paths := by
  induction fs with
  | nil => rfl
  | cons f fs ih => rw [pathsOfAll, ih, List.flatMap_cons]

/-- A path in a tree ends at the root, or goes on below a child. -/
theorem paths_eq (f : Filter) :
    f.paths = ([f], f) :: (f.children.flatMap paths).map fun path => (f :: path.1, path.2) := by
  obtain ⟨operator, negated, children, condition⟩ := f
  rw [paths, pathsOfAll_eq_flatMap]

/-- The nodes of a tree are its root and those below its children. -/
theorem nodes_eq (f : Filter) : f.nodes = f :: f.children.flatMap nodes := by
  have hnodes : nodes = fun f => f.paths.map fun path => path.2 := rfl
  rw [nodes, paths_eq, List.map_cons, List.map_map, hnodes, ← List.map_flatMap]
  rfl

/-- The conditions of a tree are that of its root and those below its children. -/
theorem conditions_eq (f : Filter) :
    f.conditions = f.condition.toList ++ f.children.flatMap conditions := by
  have hconditions : conditions = fun f => f.nodes.filterMap fun node => node.condition := rfl
  rw [conditions, nodes_eq, hconditions, ← List.filterMap_flatMap]
  cases hcondition : f.condition with
  | none => rw [List.filterMap_cons_none hcondition, Option.toList_none, List.nil_append]
  | some c => rw [List.filterMap_cons_some hcondition, Option.toList_some, List.singleton_append]

/-- A tree is one of its own nodes. -/
theorem mem_nodes_self (f : Filter) : f ∈ f.nodes := by
  rw [nodes_eq]
  exact List.mem_cons_self ..

/-- The nodes below a child are nodes of the tree. -/
theorem mem_nodes_of_child {f child node : Filter} (hchild : child ∈ f.children)
    (hnode : node ∈ child.nodes) : node ∈ f.nodes := by
  rw [nodes_eq]
  exact List.mem_cons_of_mem _ (List.mem_flatMap.2 ⟨child, hchild, hnode⟩)

/-- The conditions below a child are conditions of the tree. -/
theorem mem_conditions_of_child {f child : Filter} {c : Condition} (hchild : child ∈ f.children)
    (hc : c ∈ child.conditions) : c ∈ f.conditions := by
  rw [conditions_eq]
  exact List.mem_append_right _ (List.mem_flatMap.2 ⟨child, hchild, hc⟩)

mutual

/-- A filter names the fields of its conditions. -/
theorem fields_eq_map_conditions : (f : Filter) → f.fields = f.conditions.map fun c => c.field
  | ⟨operator, negated, children, condition⟩ => by
    rw [fields, conditions_eq, List.map_append, fieldsOfAll_eq_map_conditions children]
    cases condition <;> rfl

/-- The fields of several trees are those of their conditions, in order. -/
theorem fieldsOfAll_eq_map_conditions :
    (fs : List Filter) → fieldsOfAll fs = (fs.flatMap conditions).map fun c => c.field
  | [] => rfl
  | f :: fs => by
    rw [fieldsOfAll, List.flatMap_cons, List.map_append, fields_eq_map_conditions f,
      fieldsOfAll_eq_map_conditions fs]

end

end DataService.Filter
