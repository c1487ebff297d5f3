import DataService.Proofs.Filter.Nodes
import DataService.Proofs.Filter.NormalForm
import DataService.Proofs.PushDown.Survivors

/-!
# The part of a filter that can be restated

`Filter.mappable` says of a tree, by its shape alone, whether an earlier step can evaluate any of it:
a leaf by its field, a conjunction by one of its children, a disjunction by all of them. The
conditions that such nodes lead down to are the ones `Filter.kept` lists, in tree order and renamed.

Restating gives something exactly for mappable trees (`isSome_restate_iff`), with exactly the kept
conditions (`conditions_restate`) at nodes that all join two children or more
(`joined_of_restate`). Where every node of a filter is of that kind already and every field is
mapped, it does no more than rename (`restate_eq_renamed`).
-/

set_option autoImplicit false

namespace DataService

/-- A condition in the names of an earlier step. -/
def FieldMap.rename (m : FieldMap) (c : Condition) : Condition :=
  { c with field := (m.target? c.field).getD c.field }

namespace Filter

/-! ## By the shape of the filter -/

mutual

/-- Whether an earlier step can evaluate some part of a tree: a leaf on a mapped field, a conjunction
or a grouping over some mappable child, a disjunction over children that are all mappable. -/
def mappable (m : FieldMap) : Filter → Bool
  | ⟨_, _, _, some condition⟩ => (m.target? condition.field).isSome
  | ⟨.or, _, children, none⟩ => !children.isEmpty && (mappableAll m children).all id
  | ⟨.and, _, children, none⟩ => (mappableAll m children).any id
  | ⟨.none, _, children, none⟩ => (mappableAll m children).any id

/-- Which of several trees are mappable. -/
def mappableAll (m : FieldMap) : List Filter → List Bool
  | [] => []
  | f :: fs => mappable m f :: mappableAll m fs

end

/-- The conditions of a tree to which only mappable nodes lead down, in tree order and in the names
of the earlier step. -/
def kept (m : FieldMap) (t : Filter) : List Condition :=
  ((t.paths.filter fun path => path.1.all (mappable m)).filterMap
    fun path => path.2.condition).map m.rename

mutual

/-- The tree with every field renamed. -/
def renamed (m : FieldMap) : Filter → Filter
  | ⟨operator, negated, children, condition⟩ =>
    ⟨operator, negated, renamedAll m children, condition.map m.rename⟩

/-- Several trees with every field renamed. -/
def renamedAll (m : FieldMap) : List Filter → List Filter
  | [] => []
  | f :: fs => renamed m f :: renamedAll m fs

end

/-- A node that has no children if it has a condition. -/
def Bare (node : Filter) : Prop := node.isLeaf = true → node.children = []

/-- A node that has a condition, or else joins two children or more by AND or OR. -/
def Joined (node : Filter) : Prop :=
  node.isLeaf = false → (node.operator = .and ∨ node.operator = .or) ∧ 2 ≤ node.children.length

instance (node : Filter) : Decidable node.Bare :=
  inferInstanceAs (Decidable (node.isLeaf = true → node.children = []))

instance (node : Filter) : Decidable node.Joined :=
  inferInstanceAs (Decidable (node.isLeaf = false →
    (node.operator = .and ∨ node.operator = .or) ∧ 2 ≤ node.children.length))

variable {m : FieldMap} {operator : Operator} {negated : Bool} {children survivors : List Filter}

theorem mappableAll_eq_map (m : FieldMap) (fs : List Filter) :
    mappableAll m fs = fs.map (mappable m) := by
  induction fs with
  | nil => rfl
  | cons f fs ih => rw [mappableAll, ih, List.map_cons]

/-- A composite is mappable over some mappable child, and a disjunction over no other children. -/
theorem mappable_composite_iff :
    mappable m ⟨operator, negated, children, none⟩ = true ↔
      (∃ f ∈ children, mappable m f = true) ∧
        (operator = .or → ∀ f ∈ children, mappable m f = true) := by
  cases operator with
  | none => simp [mappable, mappableAll_eq_map]
  | and => simp [mappable, mappableAll_eq_map]
  | or =>
    simp only [mappable, mappableAll_eq_map, Bool.and_eq_true, Bool.not_eq_true', List.all_map,
      List.all_eq_true, Function.comp_apply, id_eq, List.isEmpty_eq_false_iff, forall_const]
    constructor
    · rintro ⟨hne, hall⟩
      obtain ⟨f, hf⟩ := List.exists_mem_of_ne_nil children hne
      exact ⟨⟨f, hf, hall f hf⟩, hall⟩
    · rintro ⟨⟨f, hf, _⟩, hall⟩
      exact ⟨List.ne_nil_of_mem hf, hall⟩

/-- Something is left of a tree exactly if it is mappable. -/
theorem isSome_restate_iff (m : FieldMap) (t : Filter) :
    (restate m t).isSome = true ↔ t.mappable m = true := by
  induction t using Filter.induction with
  | leaf operator negated children condition => rw [restate, mappable, Option.isSome_map]
  | composite operator negated children ih =>
    rw [mappable_composite_iff]
    by_cases h : Intact m operator children
    · rw [restate_of_intact h, Option.isSome_iff_ne_none, ne_eq, promote_eq_none_iff]
      constructor
      · intro hne
        obtain ⟨g, hg⟩ := List.exists_mem_of_ne_nil _ hne
        obtain ⟨f, hf, hfg⟩ := List.mem_filterMap.1 hg
        refine ⟨⟨f, hf, (ih f hf).1 (by simp [hfg])⟩, ?_⟩
        intro hop f' hf'
        exact (ih f' hf').1 (Option.isSome_iff_ne_none.2 (h hop f' hf'))
      · rintro ⟨⟨f, hf, hmappable⟩, _⟩
        obtain ⟨g, hg⟩ := Option.isSome_iff_exists.1 ((ih f hf).2 hmappable)
        exact List.ne_nil_of_mem (List.mem_filterMap.2 ⟨f, hf, hg⟩)
    · rw [restate_of_not_intact h]
      refine iff_of_false (by simp) ?_
      rintro ⟨_, hall⟩
      apply h
      intro hop f hf
      exact Option.isSome_iff_ne_none.1 ((ih f hf).2 (hall hop f hf))

/-! ## The conditions that are kept -/

/-- Every path in a tree begins at the root. -/
theorem mem_path_self {t : Filter} {path : List Filter × Filter} (h : path ∈ t.paths) :
    t ∈ path.1 := by
  rw [paths_eq, List.mem_cons, List.mem_map] at h
  rcases h with rfl | ⟨below, _, rfl⟩
  · exact List.mem_singleton.2 rfl
  · exact List.mem_cons_self ..

/-- A tree that is not mappable keeps none of its conditions. -/
theorem kept_of_not_mappable {t : Filter} (h : t.mappable m = false) : kept m t = [] := by
  have none_passes : (t.paths.filter fun path => path.1.all (mappable m)) = [] := by
    rw [List.filter_eq_nil_iff]
    intro path hpath hall
    have hself := List.all_eq_true.1 hall t (mem_path_self hpath)
    rw [h] at hself
    cases hself
  rw [kept, none_passes]
  rfl

/-- A mappable tree keeps its own condition and what its children keep. -/
theorem kept_of_mappable {t : Filter} (h : t.mappable m = true) :
    kept m t = (t.condition.map m.rename).toList ++ t.children.flatMap (kept m) := by
  have hkept : kept m = fun t => ((t.paths.filter fun path => path.1.all (mappable m)).filterMap
    fun path => path.2.condition).map m.rename := rfl
  have below : ((t.children.flatMap paths).map fun path => (t :: path.1, path.2)).filter
      (fun path => path.1.all (mappable m)) =
        ((t.children.flatMap paths).filter fun path => path.1.all (mappable m)).map
          fun path => (t :: path.1, path.2) := by
    rw [List.filter_map]
    congr 1
    apply List.filter_congr
    intro path _
    simp [h]
  rw [kept, paths_eq, List.filter_cons_of_pos (by simp [h]), below, hkept,
    ← List.map_flatMap, ← List.filterMap_flatMap, ← List.filter_flatMap]
  cases hcondition : t.condition with
  | none =>
    simp only [List.filterMap_cons, hcondition, List.filterMap_map, Option.map_none,
      Option.toList_none, List.nil_append]
    rfl
  | some c =>
    simp only [List.filterMap_cons, hcondition, List.filterMap_map, Option.map_some,
      Option.toList_some, List.map_cons, List.singleton_append]
    rfl

/-- Neither the operator of a leaf nor a negation is a condition. -/
theorem conditions_alone_negateIf (f : Filter) (b : Bool) :
    (f.alone.negateIf b).conditions = f.conditions := by
  rw [conditions_eq, conditions_eq f]
  obtain ⟨operator, negated, children, condition⟩ := f
  cases condition <;> rfl

/-- A node over survivors has their conditions. -/
theorem conditions_of_promote {g : Filter} (h : promote operator negated survivors = some g) :
    g.conditions = survivors.flatMap conditions := by
  rcases survivors with _ | ⟨only, _ | ⟨second, others⟩⟩
  · cases h
  · rw [promote_singleton, Option.some.injEq] at h
    rw [← h, conditions_alone_negateIf, List.flatMap_singleton]
  · rw [promote_of_two_le (by simp), Option.some.injEq] at h
    rw [← h, conditions_eq, Option.toList_none, List.nil_append]

/-- What is listed of the values of a partial function is listed of its arguments. -/
theorem flatMap_filterMap_eq {α β γ : Type} {f : α → Option β} {g : β → List γ} {h : α → List γ}
    {as : List α} (found : ∀ a ∈ as, ∀ b, f a = some b → g b = h a)
    (missing : ∀ a ∈ as, f a = none → h a = []) :
    (as.filterMap f).flatMap g = as.flatMap h := by
  induction as with
  | nil => rfl
  | cons a rest ih =>
    have tail := ih (fun a' ha' => found a' (List.mem_cons_of_mem _ ha'))
      (fun a' ha' => missing a' (List.mem_cons_of_mem _ ha'))
    cases hfa : f a with
    | none =>
      rw [List.filterMap_cons_none hfa, tail, List.flatMap_cons,
        missing a (List.mem_cons_self ..) hfa, List.nil_append]
    | some b =>
      rw [List.filterMap_cons_some hfa, List.flatMap_cons, tail, List.flatMap_cons,
        found a (List.mem_cons_self ..) b hfa]

/-- Exactly the kept conditions are left of a filter. -/
theorem conditions_restate {t : Filter} (bare : ∀ node ∈ t.nodes, node.Bare) {g : Filter}
    (h : restate m t = some g) : g.conditions = kept m t := by
  induction t using Filter.induction generalizing g with
  | leaf operator negated children condition =>
    have hmappable := (isSome_restate_iff m _).1 (Option.isSome_of_eq_some h)
    obtain rfl : children = [] := bare _ (mem_nodes_self _) rfl
    rw [restate, Option.map_eq_some_iff] at h
    obtain ⟨target, htarget, rfl⟩ := h
    rw [kept_of_mappable hmappable, conditions_eq, Option.map_some, FieldMap.rename, htarget]
    rfl
  | composite operator negated children ih =>
    have hmappable := (isSome_restate_iff m _).1 (Option.isSome_of_eq_some h)
    rw [kept_of_mappable hmappable, conditions_of_promote (promote_of_restate h), Option.map_none,
      Option.toList_none, List.nil_append]
    apply flatMap_filterMap_eq
    · intro child hchild g' hg'
      exact ih child hchild (fun node hnode => bare node (mem_nodes_of_child hchild hnode)) hg'
    · intro child _ lost
      apply kept_of_not_mappable
      rw [← Bool.not_eq_true, ← isSome_restate_iff, lost]
      exact Bool.false_ne_true

/-! ## The nodes that are left -/

/-- Only the root of a tree is another node when it stands for its parent. -/
theorem mem_nodes_alone_negateIf {f node : Filter} {b : Bool}
    (h : node ∈ (f.alone.negateIf b).nodes) : node = f.alone.negateIf b ∨ node ∈ f.nodes := by
  have hchildren : (f.alone.negateIf b).children = f.children := by
    obtain ⟨operator, negated, children, condition⟩ := f
    cases condition <;> rfl
  rw [nodes_eq, hchildren, List.mem_cons] at h
  rcases h with h | h
  · exact .inl h
  · rw [nodes_eq]
    exact .inr (List.mem_cons_of_mem _ h)

/-- A tree that stands for its parent stays bare and joined. -/
theorem bare_joined_alone_negateIf {f : Filter} (h : f.Bare ∧ f.Joined) (b : Bool) :
    (f.alone.negateIf b).Bare ∧ (f.alone.negateIf b).Joined := by
  obtain ⟨operator, negated, children, condition⟩ := f
  cases condition with
  | none => exact h
  | some condition => exact ⟨h.1, nofun⟩

/-- A node over survivors joins two of them or more, or else is the only one. -/
theorem bare_joined_of_promote {g : Filter} (hop : operator = .and ∨ operator = .or)
    (h : promote operator negated survivors = some g)
    (hall : ∀ f ∈ survivors, ∀ node ∈ f.nodes, node.Bare ∧ node.Joined) :
    ∀ node ∈ g.nodes, node.Bare ∧ node.Joined := by
  intro node hnode
  rcases survivors with _ | ⟨only, _ | ⟨second, others⟩⟩
  · cases h
  · rw [promote_singleton, Option.some.injEq] at h
    have honly := hall only (List.mem_singleton.2 rfl)
    rw [← h] at hnode
    rcases mem_nodes_alone_negateIf hnode with rfl | hnode
    · exact bare_joined_alone_negateIf (honly only (mem_nodes_self only)) negated
    · exact honly node hnode
  · rw [promote_of_two_le (by simp), Option.some.injEq] at h
    rw [← h, nodes_eq, List.mem_cons, List.mem_flatMap] at hnode
    rcases hnode with rfl | ⟨f, hf, hnode⟩
    · exact ⟨nofun, fun _ => ⟨hop, by simp⟩⟩
    · exact hall f hf node hnode

/-- Whatever nodes a filter has, those that are left of it are joined. -/
theorem joined_of_restate {t : Filter} (bare : ∀ node ∈ t.nodes, node.Bare) {g : Filter}
    (h : restate m t = some g) : ∀ node ∈ g.nodes, node.Bare ∧ node.Joined := by
  induction t using Filter.induction generalizing g with
  | leaf operator negated children condition =>
    obtain rfl : children = [] := bare _ (mem_nodes_self _) rfl
    rw [restate, Option.map_eq_some_iff] at h
    obtain ⟨target, _, rfl⟩ := h
    intro node hnode
    rw [nodes_eq, List.flatMap_nil, List.mem_singleton] at hnode
    rw [hnode]
    exact ⟨fun _ => rfl, nofun⟩
  | composite operator negated children ih =>
    apply bare_joined_of_promote (combining_eq_and_or_eq_or operator) (promote_of_restate h)
    intro f hf
    obtain ⟨child, hchild, hchildf⟩ := List.mem_filterMap.1 hf
    exact ih child hchild (fun node hnode => bare node (mem_nodes_of_child hchild hnode)) hchildf

/-! ## Filters that are kept whole -/

theorem renamedAll_eq_map (m : FieldMap) (fs : List Filter) :
    renamedAll m fs = fs.map (renamed m) := by
  induction fs with
  | nil => rfl
  | cons f fs ih => rw [renamedAll, ih, List.map_cons]

/-- A filter of joined nodes on mapped fields is renamed and nothing else. -/
theorem restate_eq_renamed {t : Filter} (bare : ∀ node ∈ t.nodes, node.Bare)
    (joined : ∀ node ∈ t.nodes, node.Joined)
    (mapped : ∀ c ∈ t.conditions, (m.target? c.field).isSome = true) :
    restate m t = some (t.renamed m) := by
  induction t using Filter.induction with
  | leaf operator negated children condition =>
    obtain rfl : children = [] := bare _ (mem_nodes_self _) rfl
    have hcondition : (m.target? condition.field).isSome = true :=
      mapped condition (by rw [conditions_eq]; simp)
    obtain ⟨target, htarget⟩ := Option.isSome_iff_exists.1 hcondition
    rw [restate, htarget, Option.map_some, renamed, renamedAll, Option.map_some, FieldMap.rename,
      htarget, Option.getD_some]
  | composite operator negated children ih =>
    have each : ∀ child ∈ children, restate m child = some (child.renamed m) := by
      intro child hchild
      apply ih child hchild
      · exact fun node hnode => bare node (mem_nodes_of_child hchild hnode)
      · exact fun node hnode => joined node (mem_nodes_of_child hchild hnode)
      · exact fun c hc => mapped c (mem_conditions_of_child hchild hc)
    obtain ⟨hop, htwo⟩ := joined _ (mem_nodes_self _) rfl
    have hintact : Intact m operator children := by
      intro _ child hchild
      rw [each child hchild]
      exact Option.some_ne_none _
    have survivors : children.filterMap (restate m) = renamedAll m children := by
      rw [List.filterMap_congr each, renamedAll_eq_map]
      exact congrFun List.filterMap_eq_map' children
    have hcombining : operator.combining = operator := by
      rcases hop with rfl | rfl <;> rfl
    rw [restate_of_intact hintact, survivors, hcombining, promote_of_two_le, renamed,
      Option.map_none]
    rw [renamedAll_eq_map, List.length_map]
    exact htwo

/-- **Restating keeps exactly the mappable part.** Of a filter whose leaves have no children
something is left exactly if it is mappable. The conditions that are left are those to which only
mappable nodes lead down, in their order and renamed, and every composite that is left joins two
children or more by AND or OR. A filter that has only such composites and only mapped fields is
renamed, and nothing else changes. -/
theorem restate_keeps_mappable_part {t : Filter} (bare : ∀ node ∈ t.nodes, node.Bare) :
    ((restate m t).isSome = true ↔ t.mappable m = true) ∧
    (∀ g, restate m t = some g →
      g.conditions = kept m t ∧ ∀ node ∈ g.nodes, node.Bare ∧ node.Joined) ∧
    ((∀ node ∈ t.nodes, node.Joined) →
      (∀ c ∈ t.conditions, (m.target? c.field).isSome = true) →
        restate m t = some (t.renamed m)) := by
  refine ⟨isSome_restate_iff m t, ?_, ?_⟩
  · intro g h
    exact ⟨conditions_restate bare h, joined_of_restate bare h⟩
  · intro joined mapped
    exact restate_eq_renamed bare joined mapped

/-- A negated conjunction that loses a disjunction over an unmapped field, and half of a grouping,
and a disjunction that loses nothing. -/
theorem restate_keeps_mappable_part_of_halves :
    let m := ((FieldMap.empty.insert "a" "x").insert "b" "y").insert "c" "w"
    let t := (allOf [equals "a" (.integer 1), anyOf [equals "b" (.integer 2), isNull "z"],
      ⟨.none, true, [equals "c" (.integer 3), isNull "z"], none⟩]).negate
    let u := anyOf [equals "b" (.integer 2), (allOf [isNull "a", isNull "c"]).negate]
    (∃ g, restate m t = some g ∧
      g.conditions = [⟨"x", .eq, .integer 1⟩, ⟨"w", .eq, .integer 3⟩] ∧
      ∀ node ∈ g.nodes, node.Bare ∧ node.Joined) ∧
    restate m u =
      some (anyOf [equals "y" (.integer 2), (allOf [isNull "x", isNull "w"]).negate]) := by
  intro m t u
  have halves := restate_keeps_mappable_part (m := m) (t := t) (by decide)
  have whole := restate_keeps_mappable_part (m := m) (t := u) (by decide)
  obtain ⟨g, hg⟩ := Option.isSome_iff_exists.1 (halves.1.2 (by decide))
  exact ⟨⟨g, hg, halves.2.1 g hg⟩, whole.2.2 (by decide) (by decide)⟩

end Filter

end DataService
