import DataService.Model.Filter.Simplify
import Mathlib.Data.List.Basic

/-!
# What a simplified node is merged from

`Filter.merge` brings the parts of simplified children together. What a node is left with comes from
one of its children, either the child itself or a child of that child (`exists_mem_splice_of_mem`),
and a node whose children all bring something in is left with something (`merge_ne_nil`).
-/

set_option autoImplicit false

namespace DataService.Filter

theorem simplifyAll_eq_map (fs : List Filter) : simplifyAll fs = fs.map simplify := by
  induction fs with
  | nil => rfl
  | cons f fs ih => rw [simplifyAll, ih, List.map_cons]

/-- Appending a tree brings no other one in. -/
theorem mem_pushUnique {fs : List Filter} {f g : Filter} (h : g ∈ pushUnique fs f) :
    g ∈ fs ∨ g = f := by
  unfold pushUnique at h
  split at h
  · exact .inl h
  · simpa using h

/-- Appending several trees brings no other one in. -/
theorem mem_foldl_pushUnique {fs acc : List Filter} {g : Filter} (h : g ∈ fs.foldl pushUnique acc) :
    g ∈ acc ∨ g ∈ fs := by
  induction fs generalizing acc with
  | nil => exact .inl h
  | cons f fs ih =>
    rcases ih h with hacc | hfs
    · rcases mem_pushUnique hacc with hacc | rfl
      · exact .inl hacc
      · exact .inr (List.mem_cons_self ..)
    · exact .inr (List.mem_cons_of_mem _ hfs)

/-- No tree is lost by appending others. -/
theorem foldl_pushUnique_ne_nil {fs acc : List Filter} (h : acc ≠ []) :
    fs.foldl pushUnique acc ≠ [] := by
  induction fs generalizing acc with
  | nil => exact h
  | cons f fs ih =>
    apply ih
    unfold pushUnique
    split
    · exact h
    · simp

/-- What a node is left with was brought in by one of its children. -/
theorem exists_mem_splice_of_mem {operator : Operator} {children : List Filter} {g : Filter}
    (h : g ∈ merge operator children) : ∃ child ∈ children, g ∈ splice operator child := by
  rcases mem_foldl_pushUnique h with h | h
  · cases h
  · exact List.mem_flatMap.1 h

/-- A node with children that all bring something in is left with something. -/
theorem merge_ne_nil {operator : Operator} {children : List Filter} (hne : children ≠ [])
    (h : ∀ child ∈ children, splice operator child ≠ []) : merge operator children ≠ [] := by
  cases children with
  | nil => exact absurd rfl hne
  | cons child rest =>
    have hfirst := h child (List.mem_cons_self ..)
    unfold merge
    rw [List.flatMap_cons]
    cases hs : splice operator child with
    | nil => exact absurd hs hfirst
    | cons f fs =>
      rw [List.cons_append, List.foldl_cons]
      exact foldl_pushUnique_ne_nil (by simp [pushUnique])

end DataService.Filter
