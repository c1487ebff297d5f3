import DataService.Proofs.Filter.Comparison
import DataService.Proofs.Filter.Merge

/-!
# The normal form of simplified trees

A tree in normal form is built from the condition nodes of the tree it comes from
(`Filter.conditionNodes`), negated or not, by composites that have an operator, never a single
child, no child twice and no child that they could take apart (`Filter.Normal`). Every node of
`simplify` keeps this: what a normal child brings in is normal and is not taken apart further
(`Normal.splice`), the merged siblings differ from one another (`pairwise_merge`), and a single one
of them is normal with any negation (`Normal.negateIf`).

On a normal tree no rewrite of `simplify` has anything left to do (`Normal.simplify_eq_self`), so
simplifying twice is simplifying once.
-/

set_option autoImplicit false

namespace DataService.Filter

mutual

/-- The nodes with a condition that a tree consists of. What a leaf carries besides its condition is
no part of it. -/
def conditionNodes : Filter → List Filter
  | ⟨operator, negated, children, some condition⟩ =>
    [⟨operator, negated, children, some condition⟩]
  | ⟨_, _, children, none⟩ => conditionNodesOfAll children

/-- The nodes with a condition that several trees consist of. -/
def conditionNodesOfAll : List Filter → List Filter
  | [] => []
  | f :: fs => conditionNodes f ++ conditionNodesOfAll fs

end

/-- Trees that differ, whichever of them is compared with the other. -/
def Differ (f g : Filter) : Prop := (f == g) = false ∧ (g == f) = false

/-- Trees in normal form over given condition nodes. -/
inductive Normal (nodes : List Filter) : Filter → Prop
  /-- A condition node, unchanged up to its negation. -/
  | leaf {f : Filter} (negated : Bool) :
    f ∈ nodes → f.isLeaf = true → Normal nodes { f with negated := negated }
  /-- A composite that has an operator and children that differ, but no single child and none that
  it could take apart. -/
  | composite {operator : Operator} {negated : Bool} {children : List Filter} :
    operator = .and ∨ operator = .or →
    children.length ≠ 1 →
    children.Pairwise Differ →
    (∀ f ∈ children, ¬(f.negated = false ∧ f.isLeaf = false ∧ f.operator = operator)) →
    (∀ f ∈ children, Normal nodes f) →
      Normal nodes ⟨operator, negated, children, none⟩

variable {nodes : List Filter} {f g : Filter} {operator : Operator} {children siblings : List Filter}

theorem conditionNodesOfAll_eq_flatMap (fs : List Filter) :
    conditionNodesOfAll fs = fs.flatMap conditionNodes := by
  induction fs with
  | nil => rfl
  | cons f fs ih => rw [conditionNodesOfAll, ih, List.flatMap_cons]

/-! ## Each rewrite -/

/-- A normal tree may be said to be made from more nodes. -/
theorem Normal.mono {more : List Filter} (h : f.Normal nodes) (hmore : ∀ g ∈ nodes, g ∈ more) :
    f.Normal more := by
  induction h with
  | leaf negated hmem hleaf => exact .leaf negated (hmore _ hmem) hleaf
  | composite hop hlength hdifferent hapart _ ih =>
    exact .composite hop hlength hdifferent hapart ih

/-- A normal tree is normal under a negation. -/
theorem Normal.negateIf (h : f.Normal nodes) (b : Bool) : (f.negateIf b).Normal nodes := by
  cases h with
  | @leaf f negated hmem hleaf =>
    change Normal nodes { f with negated := negated ^^ b }
    exact .leaf (negated ^^ b) hmem hleaf
  | composite hop hlength hdifferent hapart hall =>
    exact .composite hop hlength hdifferent hapart hall

/-- What a normal child brings into a node is normal, and the node cannot take it apart. -/
theorem Normal.splice (h : f.Normal nodes) (hg : g ∈ Filter.splice operator f) :
    g.Normal nodes ∧ ¬(g.negated = false ∧ g.isLeaf = false ∧ g.operator = operator) := by
  unfold Filter.splice at hg
  split at hg
  · rename_i hsame
    simp only [Bool.and_eq_true, Bool.not_eq_true', beq_iff_eq] at hsame
    obtain ⟨⟨_, hcomposite⟩, hoperator⟩ := hsame
    cases h with
    | leaf negated hmem hleaf =>
      rw [isLeaf] at hleaf hcomposite
      rw [hleaf] at hcomposite
      cases hcomposite
    | composite hop hlength hdifferent hapart hall =>
      subst hoperator
      exact ⟨hall g hg, hapart g hg⟩
  · rename_i hother
    obtain rfl := List.mem_singleton.1 hg
    refine ⟨h, ?_⟩
    rintro ⟨hnegated, hcomposite, hoperator⟩
    exact hother (by simp [hnegated, hcomposite, hoperator])

/-- Siblings that differ still do when a tree is appended that is not among them. -/
theorem pairwise_pushUnique (h : siblings.Pairwise Differ) (f : Filter) :
    (pushUnique siblings f).Pairwise Differ := by
  unfold pushUnique
  split
  · exact h
  · rename_i hnew
    rw [List.contains_eq_any_beq, Bool.not_eq_true, List.any_eq_false] at hnew
    refine List.pairwise_append.2 ⟨h, List.pairwise_singleton _ _, ?_⟩
    intro sibling hsibling last hlast
    obtain rfl := List.mem_singleton.1 hlast
    have hdiffer : (last == sibling) = false := by simpa using hnew sibling hsibling
    exact ⟨by rw [beq_comm, hdiffer], hdiffer⟩

/-- The siblings that a node is left with differ from one another. -/
theorem pairwise_merge (operator : Operator) (children : List Filter) :
    (merge operator children).Pairwise Differ := by
  unfold merge
  suffices h : ∀ (parts acc : List Filter),
      acc.Pairwise Differ → (parts.foldl pushUnique acc).Pairwise Differ from
    h _ [] List.Pairwise.nil
  intro parts
  induction parts with
  | nil => exact fun _ hacc => hacc
  | cons part parts ih => exact fun acc hacc => ih _ (pairwise_pushUnique hacc part)

/-- A node over siblings that differ and that it cannot take apart is normal once a single sibling
has taken its place. -/
theorem normal_collapse (hop : operator = .and ∨ operator = .or) (negated : Bool)
    (hdifferent : siblings.Pairwise Differ)
    (hall : ∀ f ∈ siblings, f.Normal nodes ∧
      ¬(f.negated = false ∧ f.isLeaf = false ∧ f.operator = operator)) :
    (collapse operator negated siblings).Normal nodes := by
  have hcomposite (hlength : siblings.length ≠ 1) :
      Normal nodes ⟨operator, negated, siblings, none⟩ :=
    .composite hop hlength hdifferent (fun f hf => (hall f hf).2) (fun f hf => (hall f hf).1)
  cases siblings with
  | nil => exact hcomposite (by simp)
  | cons first rest =>
    cases rest with
    | nil => exact (hall first (List.mem_singleton.2 rfl)).1.negateIf negated
    | cons second others => exact hcomposite (by simp)

/-- Children are combined by a conjunction or by a disjunction. -/
theorem combining_eq_and_or_eq_or (operator : Operator) :
    operator.combining = .and ∨ operator.combining = .or := by
  cases operator <;> simp [Operator.combining]

/-- A simplified tree is normal over the condition nodes it was made from. -/
theorem normal_simplify (t : Filter) : t.simplify.Normal t.conditionNodes := by
  induction t using Filter.induction with
  | leaf operator negated children condition =>
    rw [simplify, conditionNodes]
    exact .leaf negated (List.mem_singleton.2 rfl) rfl
  | composite operator negated children ih =>
    rw [simplify, simplifyAll_eq_map, conditionNodes, conditionNodesOfAll_eq_flatMap]
    apply normal_collapse (combining_eq_and_or_eq_or operator) negated (pairwise_merge _ _)
    intro f hf
    obtain ⟨child, hchild, hsplice⟩ := exists_mem_splice_of_mem hf
    obtain ⟨source, hsource, rfl⟩ := List.mem_map.1 hchild
    have hnormal := (ih source hsource).mono
      (fun node hnode => List.mem_flatMap.2 ⟨source, hsource, hnode⟩)
    exact hnormal.splice hsplice

/-! ## Nothing left to do -/

/-- Trees that all differ are all appended. -/
theorem foldl_pushUnique_of_pairwise {parts acc : List Filter}
    (h : (acc ++ parts).Pairwise Differ) : parts.foldl pushUnique acc = acc ++ parts := by
  induction parts generalizing acc with
  | nil => simp
  | cons part parts ih =>
    have hpushed : pushUnique acc part = acc ++ [part] := by
      unfold pushUnique
      rw [if_neg]
      rw [List.contains_eq_any_beq, Bool.not_eq_true, List.any_eq_false]
      intro sibling hsibling
      have hdiffer := (List.pairwise_append.1 h).2.2 sibling hsibling part (List.mem_cons_self ..)
      simp [hdiffer.2]
    rw [List.foldl_cons, hpushed, ih (by simpa using h), List.append_assoc, List.singleton_append]

/-- A node keeps siblings that differ and that it cannot take apart. -/
theorem merge_eq_self
    (hdifferent : children.Pairwise Differ)
    (hapart : ∀ f ∈ children, ¬(f.negated = false ∧ f.isLeaf = false ∧ f.operator = operator)) :
    merge operator children = children := by
  have hwhole : children.flatMap (splice operator) = children.flatMap (fun f => [f]) := by
    apply List.flatMap_congr
    intro f hf
    unfold splice
    rw [if_neg]
    intro hsame
    simp only [Bool.and_eq_true, Bool.not_eq_true', beq_iff_eq] at hsame
    exact hapart f hf ⟨hsame.1.1, hsame.1.2, hsame.2⟩
  unfold merge
  rw [hwhole, List.flatMap_singleton', foldl_pushUnique_of_pairwise (by simpa using hdifferent),
    List.nil_append]

/-- A node stays over its children unless there is exactly one. -/
theorem collapse_of_length_ne_one (operator : Operator) (negated : Bool)
    (h : children.length ≠ 1) :
    collapse operator negated children = ⟨operator, negated, children, none⟩ := by
  cases children with
  | nil => rfl
  | cons first rest =>
    cases rest with
    | nil => exact absurd rfl h
    | cons second others => rfl

/-- A normal tree is simplified already. -/
theorem Normal.simplify_eq_self (h : f.Normal nodes) : f.simplify = f := by
  induction h with
  | @leaf f negated hmem hleaf =>
    obtain ⟨condition, hcondition⟩ := Option.isSome_iff_exists.1 hleaf
    obtain ⟨operator, _, children, _⟩ := f
    obtain rfl := hcondition
    rw [simplify]
  | @composite operator negated children hop hlength hdifferent hapart _ ih =>
    have hcombining : operator.combining = operator := by
      rcases hop with rfl | rfl <;> rfl
    have hchildren : children.map simplify = children :=
      (List.map_congr_left ih).trans (List.map_id children)
    rw [simplify, simplifyAll_eq_map, hchildren, hcombining, merge_eq_self hdifferent hapart,
      collapse_of_length_ne_one operator negated hlength]

/-- **Simplified trees are in normal form.** Every simplified tree is in normal form over the condition
nodes of the tree it comes from, and simplifying it once more gives the same tree, node for node. -/
theorem simplify_normal_and_idempotent (t : Filter) :
    t.simplify.Normal t.conditionNodes ∧ t.simplify.simplify = t.simplify :=
  ⟨normal_simplify t, (normal_simplify t).simplify_eq_self⟩

/-- Two comparisons with a NaN differ, so both of them stay. -/
example : let f := equals "a" (.number (0 / 0))
    (anyOf [f, anyOf [f]]).simplify.children.length = 2 := by decide +kernel

end DataService.Filter
