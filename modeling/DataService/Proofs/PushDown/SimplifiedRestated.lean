import DataService.Model.Filter.CanonicalText
import DataService.Proofs.PushDown.Composition
import DataService.Proofs.PushDown.Mappable

/-!
# Restating and simplifying

Restating and simplifying both go through a tree and let single children stand for their parents,
each in its own way. Where a field map knows every field of a filter and tells them apart, the two
come to the same. Nothing is lost then, and the restated filter is simplified to what the filter is
simplified to, in the names of the earlier step (`simplify_restate`).

The one part is about names: renaming goes through every rewrite of simplification, the removal of
duplicates included, since different fields stay different (`simplify_renamed`). The other is about
single children: a node over one child is simplified to what the child is simplified to, whether or
not that child is a node that the parent could take apart (`simplify_singleton`). So it makes no
difference to simplification that restating has promoted it already (`simplify_of_promote`).
-/

set_option autoImplicit false

namespace DataService

/-- The map knows all of the fields, and no two of them under the same name. -/
structure FieldMap.Separates (m : FieldMap) (fields : List String) : Prop where
  mapped : ∀ field ∈ fields, (m.target? field).isSome = true
  apart : ∀ field ∈ fields, ∀ field' ∈ fields, m.target? field = m.target? field' → field = field'

namespace FieldMap.Separates

variable {m : FieldMap} {fields : List String}

/-- Fields that a map tells apart are the same if they are in its names. -/
theorem rename_eq_iff (separates : m.Separates fields) {field field' : String}
    (h : field ∈ fields) (h' : field' ∈ fields) :
    (m.target? field).getD field = (m.target? field').getD field' ↔ field = field' := by
  refine ⟨fun same => separates.apart field h field' h' ?_, fun same => by rw [same]⟩
  obtain ⟨target, htarget⟩ := Option.isSome_iff_exists.1 (separates.mapped field h)
  obtain ⟨target', htarget'⟩ := Option.isSome_iff_exists.1 (separates.mapped field' h')
  rw [htarget, htarget', Option.getD_some, Option.getD_some] at same
  rw [htarget, htarget', same]

/-- Conditions compare as they do in other names that tell their fields apart. -/
theorem beq_rename (separates : m.Separates fields) {c c' : Condition} (h : c.field ∈ fields)
    (h' : c'.field ∈ fields) : (m.rename c == m.rename c') = (c == c') := by
  have same_field : ((m.rename c).field == (m.rename c').field) = (c.field == c'.field) := by
    rw [Bool.eq_iff_iff, beq_iff_eq, beq_iff_eq]
    exact separates.rename_eq_iff h h'
  change ((m.rename c).field == (m.rename c').field && c.comparator == c'.comparator &&
      c.value == c'.value) = (c.field == c'.field && c.comparator == c'.comparator &&
      c.value == c'.value)
  rw [same_field]

end FieldMap.Separates

namespace Filter

variable {m : FieldMap} {fields : List String} {operator : Operator} {f g t : Filter}
  {children siblings survivors : List Filter}

/-! ## Fields -/

/-- The fields of a tree are that of its condition and those of its children. -/
theorem fields_eq (f : Filter) :
    f.fields = (f.condition.map (·.field)).toList ++ f.children.flatMap Filter.fields := by
  have fields : Filter.fields = fun f => f.conditions.map (·.field) :=
    funext fields_eq_map_conditions
  rw [fields_eq_map_conditions, conditions_eq, List.map_append, List.map_flatMap, ← fields]
  cases f.condition with
  | none => rfl
  | some c => rfl

/-- A tree has the field of its condition. -/
theorem mem_fields_of_condition {c : Condition} (h : f.condition = some c) :
    c.field ∈ f.fields := by
  rw [fields_eq, h]
  exact List.mem_append_left _ (List.mem_singleton.2 rfl)

/-- A tree has the fields of its children. -/
theorem fields_subset_of_mem (h : g ∈ f.children) : g.fields ⊆ f.fields := by
  intro field hfield
  rw [fields_eq f]
  exact List.mem_append_right _ (List.mem_flatMap.2 ⟨g, h, hfield⟩)

/-- A negation does not change the fields of a tree. -/
theorem fields_negateIf (f : Filter) (b : Bool) : (f.negateIf b).fields = f.fields := by
  rw [fields_eq, fields_eq f]
  rfl

/-- What a child is replaced by has no other fields than the child. -/
theorem fields_splice_subset (h : g ∈ splice operator f) : g.fields ⊆ f.fields := by
  unfold splice at h
  split at h
  · exact fields_subset_of_mem h
  · rw [List.mem_singleton.1 h]
    exact List.Subset.refl _

/-- Simplification brings in no field. -/
theorem fields_simplify_subset (t : Filter) : t.simplify.fields ⊆ t.fields := by
  induction t using Filter.induction with
  | leaf operator negated children condition =>
    rw [simplify]
    exact List.Subset.refl _
  | composite operator negated children ih =>
    rw [simplify, simplifyAll_eq_map]
    have sibling_subset (f : Filter)
        (hf : f ∈ merge operator.combining (children.map simplify)) :
        f.fields ⊆ Filter.fields ⟨operator, negated, children, none⟩ := by
      obtain ⟨simplified, hchild, hsplice⟩ := exists_mem_splice_of_mem hf
      obtain ⟨child, hmem, rfl⟩ := List.mem_map.1 hchild
      have simplified_subset := List.Subset.trans (fields_splice_subset hsplice) (ih child hmem)
      exact List.Subset.trans simplified_subset
        (fields_subset_of_mem (f := ⟨operator, negated, children, none⟩) hmem)
    generalize merge operator.combining (children.map simplify) = siblings at sibling_subset
    rcases siblings with _ | ⟨only, _ | ⟨second, others⟩⟩
    · exact List.nil_subset _
    · rw [collapse, fields_negateIf]
      exact sibling_subset only (List.mem_singleton.2 rfl)
    · intro field hfield
      rw [collapse, fields_eq] at hfield
      · obtain ⟨sibling, hsibling, hfield⟩ := List.mem_flatMap.1 hfield
        exact sibling_subset sibling hsibling hfield
      · simp

/-! ## Renaming through simplification -/

mutual

/-- Trees compare as they do in other names that tell their fields apart. -/
theorem beq_renamed (separates : m.Separates fields) :
    (f g : Filter) → f.fields ⊆ fields → g.fields ⊆ fields →
      (f.renamed m).beq (g.renamed m) = f.beq g
  | ⟨o, n, fs, c⟩, ⟨o', n', gs, c'⟩, hf, hg => by
    have children_same := beqAll_renamed separates fs gs
      (fun child hchild => List.Subset.trans (fields_subset_of_mem hchild) hf)
      (fun child hchild => List.Subset.trans (fields_subset_of_mem hchild) hg)
    rw [renamed, renamed, beq, beq, children_same]
    congr 1
    cases c with
    | none => cases c' <;> rfl
    | some c =>
      cases c' with
      | none => rfl
      | some c' =>
        exact separates.beq_rename (hf (mem_fields_of_condition rfl))
          (hg (mem_fields_of_condition rfl))

/-- Lists of trees compare as they do in other names that tell their fields apart. -/
theorem beqAll_renamed (separates : m.Separates fields) :
    (fs gs : List Filter) → (∀ f ∈ fs, f.fields ⊆ fields) → (∀ g ∈ gs, g.fields ⊆ fields) →
      beqAll (renamedAll m fs) (renamedAll m gs) = beqAll fs gs
  | [], gs, _, _ => by cases gs <;> rfl
  | f :: fs, [], _, _ => rfl
  | f :: fs, g :: gs, hfs, hgs => by
    rw [List.forall_mem_cons] at hfs hgs
    rw [renamedAll, renamedAll, beqAll, beqAll, beq_renamed separates f g hfs.1 hgs.1,
      beqAll_renamed separates fs gs hfs.2 hgs.2]

end

/-- Whether a tree is a duplicate is the same in other names. -/
theorem pushUnique_renamed (separates : m.Separates fields)
    (hsiblings : ∀ g ∈ siblings, g.fields ⊆ fields) (hf : f.fields ⊆ fields) :
    pushUnique (siblings.map (renamed m)) (f.renamed m) =
      (pushUnique siblings f).map (renamed m) := by
  have same : (siblings.map (renamed m)).contains (f.renamed m) = siblings.contains f := by
    rw [List.contains_eq_any_beq, List.contains_eq_any_beq, List.any_map, Bool.eq_iff_iff,
      List.any_eq_true, List.any_eq_true]
    refine exists_congr fun g => and_congr_right fun hg => Bool.eq_iff_iff.1 ?_
    exact beq_renamed separates f g hf (hsiblings g hg)
  unfold pushUnique
  rw [same]
  split
  · rfl
  · rw [List.map_append, List.map_singleton]

/-- Whether a child can be taken apart is the same in other names. -/
theorem splice_renamed (operator : Operator) (f : Filter) :
    splice operator (f.renamed m) = (splice operator f).map (renamed m) := by
  obtain ⟨o, negated, fs, condition⟩ := f
  rw [renamed, renamedAll_eq_map]
  unfold splice isLeaf
  rw [Option.isSome_map]
  dsimp only
  split
  · rfl
  · rw [List.map_singleton, renamed, renamedAll_eq_map]

/-- The children of a node are merged in the same way in other names. -/
theorem merge_renamed (separates : m.Separates fields)
    (h : ∀ f ∈ children, f.fields ⊆ fields) (operator : Operator) :
    merge operator (children.map (renamed m)) = (merge operator children).map (renamed m) := by
  have spliced : (children.map (renamed m)).flatMap (splice operator) =
      (children.flatMap (splice operator)).map (renamed m) := by
    rw [List.flatMap_map, List.map_flatMap]
    exact List.flatMap_congr fun f _ => splice_renamed operator f
  have parts_subset : ∀ part ∈ children.flatMap (splice operator), part.fields ⊆ fields := by
    intro part hpart
    obtain ⟨child, hchild, hsplice⟩ := List.mem_flatMap.1 hpart
    exact List.Subset.trans (fields_splice_subset hsplice) (h child hchild)
  have pushed (parts acc : List Filter) (hparts : ∀ part ∈ parts, part.fields ⊆ fields)
      (hacc : ∀ g ∈ acc, g.fields ⊆ fields) :
      (parts.map (renamed m)).foldl pushUnique (acc.map (renamed m)) =
        (parts.foldl pushUnique acc).map (renamed m) := by
    induction parts generalizing acc with
    | nil => rfl
    | cons part parts ih =>
      rw [List.forall_mem_cons] at hparts
      rw [List.map_cons, List.foldl_cons, List.foldl_cons,
        pushUnique_renamed separates hacc hparts.1]
      refine ih _ hparts.2 fun g hg => ?_
      rcases mem_pushUnique hg with hg | rfl
      · exact hacc g hg
      · exact hparts.1
  unfold merge
  rw [spliced]
  exact pushed _ [] parts_subset (List.forall_mem_nil _)

/-- Whether a single child stands for its parent is the same in other names. -/
theorem collapse_renamed (operator : Operator) (negated : Bool) (siblings : List Filter) :
    collapse operator negated (siblings.map (renamed m)) =
      (collapse operator negated siblings).renamed m := by
  rcases siblings with _ | ⟨only, _ | ⟨second, others⟩⟩
  · rfl
  · obtain ⟨o, n, fs, c⟩ := only
    rfl
  · rw [List.map_cons, List.map_cons, collapse, collapse, renamed, renamedAll_eq_map]
    · rfl
    · simp
    · simp

/-- It makes no difference whether a filter is renamed before it is simplified or afterwards, if its
fields stay apart. -/
theorem simplify_renamed (separates : m.Separates t.fields) :
    (t.renamed m).simplify = t.simplify.renamed m := by
  induction t using Filter.induction with
  | leaf operator negated children condition => rfl
  | composite operator negated children ih =>
    have below (child : Filter) (hchild : child ∈ children) :
        child.fields ⊆ Filter.fields ⟨operator, negated, children, none⟩ :=
      fields_subset_of_mem hchild
    have each : (children.map (renamed m)).map simplify =
        (children.map simplify).map (renamed m) := by
      rw [List.map_map, List.map_map]
      refine List.map_congr_left fun child hchild => ih child hchild ?_
      exact ⟨fun field h => separates.mapped field (below child hchild h),
        fun field h field' h' =>
          separates.apart field (below child hchild h) field' (below child hchild h')⟩
    have within : ∀ f ∈ children.map simplify,
        f.fields ⊆ Filter.fields ⟨operator, negated, children, none⟩ := by
      intro f hf
      obtain ⟨child, hchild, rfl⟩ := List.mem_map.1 hf
      exact List.Subset.trans (fields_simplify_subset child) (below child hchild)
    rw [renamed, renamedAll_eq_map, Option.map_none, simplify, simplify, simplifyAll_eq_map,
      simplifyAll_eq_map, each, merge_renamed separates within, collapse_renamed]

/-! ## Single children -/

/-- A negated tree is simplified to the negation of what the tree is simplified to. -/
theorem simplify_negateIf (f : Filter) (b : Bool) :
    (f.negateIf b).simplify = f.simplify.negateIf b := by
  obtain ⟨operator, negated, children, condition⟩ := f
  cases condition with
  | some condition => rfl
  | none =>
    rw [negateIf, simplify, simplify]
    generalize merge operator.combining (simplifyAll children) = siblings
    rcases siblings with _ | ⟨only, _ | ⟨second, others⟩⟩
    · rfl
    · rw [collapse, collapse, negateIf_negateIf]
    · rfl

/-- A node over a single child is simplified to what the child is simplified to. If the node takes
the simplified child apart, it puts the parts together again. -/
theorem simplify_singleton (operator : Operator) (negated : Bool) (f : Filter) :
    simplify ⟨operator, negated, [f], none⟩ = (f.negateIf negated).simplify := by
  rw [simplify_negateIf, simplify, simplifyAll, simplifyAll]
  have normal := normal_simplify f
  generalize f.simplify = s at normal
  cases normal with
  | @leaf leaf b _ hleaf =>
    have whole : merge operator.combining [{ leaf with negated := b }] =
        [{ leaf with negated := b }] := by
      refine merge_eq_self (List.pairwise_singleton _ _) ?_
      rw [List.forall_mem_singleton]
      rintro ⟨_, hcomposite, _⟩
      rw [isLeaf] at hleaf hcomposite
      rw [hleaf] at hcomposite
      cases hcomposite
    rw [whole, collapse]
  | @composite o b children hop hlength hdifferent hapart _ =>
    by_cases same : b = false ∧ o = operator.combining
    · obtain ⟨rfl, rfl⟩ := same
      have parts : merge operator.combining [⟨operator.combining, false, children, none⟩] =
          children := by
        unfold merge
        rw [List.flatMap_singleton, splice, if_pos (by simp [isLeaf]),
          foldl_pushUnique_of_pairwise (by simpa using hdifferent), List.nil_append]
      rw [parts, collapse_of_length_ne_one _ _ hlength, negateIf, Bool.false_xor]
    · have whole : merge operator.combining [⟨o, b, children, none⟩] =
          [⟨o, b, children, none⟩] := by
        refine merge_eq_self (List.pairwise_singleton _ _) ?_
        rw [List.forall_mem_singleton]
        rintro ⟨hb, _, ho⟩
        exact same ⟨hb, ho⟩
      rw [whole, collapse]

/-- Survivors that stand for their parents already are simplified in a promoted node as in the node
over them. -/
theorem simplify_of_promote {negated : Bool} (h : promote operator negated survivors = some g)
    (hall : ∀ f ∈ survivors, f.alone = f) :
    g.simplify = simplify ⟨operator, negated, survivors, none⟩ := by
  rcases survivors with _ | ⟨only, _ | ⟨second, others⟩⟩
  · cases h
  · rw [promote_singleton, Option.some.injEq, hall only (List.mem_singleton.2 rfl)] at h
    rw [simplify_singleton, h]
  · rw [promote_of_two_le (by simp), Option.some.injEq] at h
    rw [h]

/-! ## Restated filters -/

/-- A node that has a condition and neither operator nor children, or else has children. -/
def Tidy (node : Filter) : Prop :=
  if node.isLeaf then node.operator = .none ∧ node.children = [] else node.children ≠ []

instance (node : Filter) : Decidable node.Tidy := by
  unfold Tidy
  infer_instance

/-- Something is left of a tidy tree whose fields are all mapped, and it is simplified to what the
renamed tree is simplified to. -/
theorem exists_restate_simplify {t : Filter} (tidy : ∀ node ∈ t.nodes, node.Tidy)
    (mapped : ∀ field ∈ t.fields, (m.target? field).isSome = true) :
    ∃ g, restate m t = some g ∧ g.alone = g ∧ g.simplify = (t.renamed m).simplify := by
  induction t using Filter.induction with
  | leaf operator negated children condition =>
    obtain ⟨rfl, rfl⟩ : operator = .none ∧ children = [] := tidy _ (mem_nodes_self _)
    obtain ⟨target, htarget⟩ := Option.isSome_iff_exists.1
      (mapped condition.field (by rw [fields_eq]; exact List.mem_cons_self ..))
    have restated : restate m ⟨.none, negated, [], some condition⟩ =
        some (renamed m ⟨.none, negated, [], some condition⟩) := by
      rw [restate, htarget, Option.map_some, renamed, renamedAll, Option.map_some,
        FieldMap.rename, htarget, Option.getD_some]
    exact ⟨_, restated, rfl, rfl⟩
  | composite operator negated children ih =>
    have filled : children ≠ [] := tidy _ (mem_nodes_self _)
    have each (child : Filter) (hchild : child ∈ children) :
        ∃ g, restate m child = some g ∧ g.alone = g ∧ g.simplify = (child.renamed m).simplify :=
      ih child hchild (fun node hnode => tidy node (mem_nodes_of_child hchild hnode))
        fun field hfield => mapped field (fields_subset_of_mem hchild hfield)
    have intact : Intact m operator children := by
      intro _ child hchild
      obtain ⟨g, hg, -⟩ := each child hchild
      rw [hg]
      exact Option.some_ne_none g
    have alone : ∀ f ∈ children.filterMap (restate m), f.alone = f := by
      intro f hf
      obtain ⟨child, hchild, hchildf⟩ := List.mem_filterMap.1 hf
      obtain ⟨g, hg, halone, -⟩ := each child hchild
      rw [hchildf, Option.some.injEq] at hg
      rw [hg, halone]
    have simplified : (children.filterMap (restate m)).map simplify =
        (children.map (renamed m)).map simplify := by
      rw [List.map_filterMap, List.map_map, ← List.filterMap_eq_map]
      refine List.filterMap_congr fun child hchild => ?_
      obtain ⟨g, hg, -, hsimplify⟩ := each child hchild
      rw [hg, Option.map_some, hsimplify]
      rfl
    have survives : promote operator.combining negated (children.filterMap (restate m)) ≠ none := by
      rw [ne_eq, promote_eq_none_iff]
      obtain ⟨child, hchild⟩ := List.exists_mem_of_ne_nil children filled
      obtain ⟨g, hg, -⟩ := each child hchild
      exact List.ne_nil_of_mem (List.mem_filterMap.2 ⟨child, hchild, hg⟩)
    obtain ⟨g, hg⟩ := Option.ne_none_iff_exists'.1 survives
    refine ⟨g, (restate_of_intact intact).trans hg, ?_, ?_⟩
    · have stands := promote_map_alone operator.combining negated (children.filterMap (restate m))
      rw [hg, Option.map_some, Option.some.injEq] at stands
      exact stands
    · rw [simplify_of_promote hg alone, renamed, renamedAll_eq_map, Option.map_none, simplify,
        simplify, simplifyAll_eq_map, simplifyAll_eq_map, simplified, combining_combining]

/-- **Restating and simplifying agree.** If no composite of a filter is empty, its leaves have neither
operator nor children, and the map knows its fields and tells them apart, then something is left of
the filter, it is simplified to what the filter is simplified to in other names, and its canonical
text is that of the renamed filter. -/
theorem simplify_restate {m : FieldMap} {t : Filter} (tidy : ∀ node ∈ t.nodes, node.Tidy)
    (separates : m.Separates t.fields) :
    ∃ g, restate m t = some g ∧ g.simplify = t.simplify.renamed m ∧
      g.canonicalText = (t.renamed m).canonicalText := by
  obtain ⟨g, restated, -, simplified⟩ := exists_restate_simplify tidy separates.mapped
  refine ⟨g, restated, simplified.trans (simplify_renamed separates), ?_⟩
  unfold canonicalText
  rw [simplified]

/-- A negated grouping over one negated disjunction. The disjunction is left of it, and a repeated
alternative, once behind a conjunction of its own, is left once. -/
theorem simplify_restate_repeated :
    let m := (FieldMap.empty.insert "a" "b").insert "b" "a"
    let repeated := equals "a" (.integer 1)
    let t : Filter := ⟨.none, true,
      [(anyOf [repeated, allOf [repeated], anyOf [isNull "b", repeated]]).negate], none⟩
    ∃ g, restate m t = some g ∧
      g.simplify = anyOf [equals "b" (.integer 1), isNull "a"] ∧
      g.canonicalText = (t.renamed m).canonicalText := by
  intro m repeated t
  have tidy : ∀ node ∈ t.nodes, node.Tidy := by decide
  have separates : m.Separates t.fields := ⟨by decide, by decide⟩
  obtain ⟨g, restated, simplified, same_text⟩ := simplify_restate tidy separates
  exact ⟨g, restated, simplified.trans rfl, same_text⟩

/-- Under a map that takes two fields for one, alternatives fall together. -/
example :
    let m := (FieldMap.empty.insert "a" "x").insert "b" "x"
    let t := anyOf [isNull "a", isNull "b"]
    (restate m t).map simplify = some (isNull "x") ∧
      t.simplify.renamed m = anyOf [isNull "x", isNull "x"] :=
  ⟨rfl, rfl⟩

end Filter

end DataService
