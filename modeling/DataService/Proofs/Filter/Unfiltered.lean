import DataService.Model.Cache.Key
import DataService.Proofs.Filter.NormalForm
import DataService.Proofs.Filter.SimplifiedValue

/-!
# Filters without a text

A filter of which simplification leaves an empty composite has no canonical text, and its query has
the key of the query without a filter. Such a filter has no condition at all: of the conditions of
a tree simplification always leaves some (`hollow_of_hollow_simplify`). So its value is the same on
all rows (`value_of_hollow`), and it is that of the composite that is left.

There are four such composites. Two of them hold of every row (`Vacuous`), and the other two of none
(`Contradictory`). The key does not tell them apart.
-/

set_option autoImplicit false

namespace DataService.Filter

variable {operator : Operator} {children siblings : List Filter} {f g t : Filter}

/-- A tree of composites alone. -/
def Hollow (f : Filter) : Prop := f.conditionNodes = []

/-- A composite is hollow exactly if all its children are. -/
theorem hollow_composite_iff {negated : Bool} :
    Hollow ⟨operator, negated, children, none⟩ ↔ ∀ f ∈ children, f.Hollow := by
  rw [Hollow, conditionNodes, conditionNodesOfAll_eq_flatMap, List.flatMap_eq_nil_iff]
  rfl

/-- A leaf holds a condition. -/
theorem not_hollow_leaf {negated : Bool} {c : Condition} :
    ¬ Hollow ⟨operator, negated, children, some c⟩ := by
  rw [Hollow, conditionNodes]
  exact List.cons_ne_nil _ _

/-- A negation neither adds a condition nor takes one away. -/
theorem hollow_negateIf_iff (f : Filter) (b : Bool) : (f.negateIf b).Hollow ↔ f.Hollow := by
  obtain ⟨operator, negated, children, condition⟩ := f
  cases condition with
  | none => rw [negateIf, hollow_composite_iff, hollow_composite_iff]
  | some c => exact iff_of_false not_hollow_leaf not_hollow_leaf

/-- The value of a tree of composites alone is the same on all rows. -/
theorem value_of_hollow (h : t.Hollow) (v w : Condition → Truth) : t.value v = t.value w := by
  induction t using Filter.induction with
  | leaf operator negated children condition => exact absurd h not_hollow_leaf
  | composite operator negated children ih =>
    rw [hollow_composite_iff] at h
    rw [value, value, valueAll_eq_map, valueAll_eq_map]
    congr 2
    exact List.map_congr_left fun f hf => ih f hf (h f hf)

/-! ## Simplification never leaves the conditions out -/

mutual

/-- A tree that equals one of composites alone is one itself. -/
theorem Hollow.of_beq : (f g : Filter) → f.beq g = true → g.Hollow → f.Hollow
  | ⟨o, n, fs, none⟩, ⟨o', n', gs, none⟩, heq, hg => by
    simp only [beq, Bool.and_eq_true] at heq
    rw [hollow_composite_iff] at hg ⊢
    exact hollow_of_beqAll fs gs heq.1.2 hg
  | _, ⟨_, _, _, some _⟩, _, hg => absurd hg not_hollow_leaf
  | ⟨o, n, fs, some c⟩, ⟨o', n', gs, none⟩, heq, _ => by simp [beq] at heq

/-- Trees are hollow if those that they equal, one by one, are. -/
theorem hollow_of_beqAll : (fs gs : List Filter) → beqAll fs gs = true →
    (∀ g ∈ gs, g.Hollow) → ∀ f ∈ fs, f.Hollow
  | [], _, _, _ => by simp
  | f :: fs, [], heq, _ => by simp [beqAll] at heq
  | f :: fs, g :: gs, heq, hgs => by
    rw [beqAll, Bool.and_eq_true] at heq
    rw [List.forall_mem_cons] at hgs ⊢
    exact ⟨Hollow.of_beq f g heq.1 hgs.1, hollow_of_beqAll fs gs heq.2 hgs.2⟩

end

/-- A tree that is left out for an equal sibling has no condition that the sibling has not. -/
theorem hollow_of_pushUnique (h : ∀ g ∈ pushUnique siblings f, g.Hollow) :
    (∀ g ∈ siblings, g.Hollow) ∧ f.Hollow := by
  unfold pushUnique at h
  split at h
  · rename_i present
    obtain ⟨g, hg, heq⟩ := List.contains_iff_exists_mem_beq.1 present
    exact ⟨h, Hollow.of_beq f g heq (h g hg)⟩
  · rw [List.forall_mem_append, List.forall_mem_singleton] at h
    exact h

/-- Where what is kept of a list is hollow, so is all of it, what was left out as equal included. -/
theorem hollow_of_foldl_pushUnique {parts acc : List Filter}
    (h : ∀ g ∈ parts.foldl pushUnique acc, g.Hollow) :
    (∀ g ∈ acc, g.Hollow) ∧ ∀ g ∈ parts, g.Hollow := by
  induction parts generalizing acc with
  | nil => exact ⟨h, by simp⟩
  | cons part parts ih =>
    obtain ⟨hpushed, hparts⟩ := ih h
    obtain ⟨hacc, hpart⟩ := hollow_of_pushUnique hpushed
    exact ⟨hacc, List.forall_mem_cons.2 ⟨hpart, hparts⟩⟩

/-- A child is hollow if all that it brings into its parent is. -/
theorem hollow_of_splice (h : ∀ g ∈ splice operator f, g.Hollow) : f.Hollow := by
  unfold splice at h
  split at h
  · rename_i same
    obtain ⟨o, negated, children, condition⟩ := f
    simp only [isLeaf, Bool.and_eq_true, Bool.not_eq_true', Option.isSome_eq_false_iff,
      Option.isNone_iff_eq_none] at same
    obtain ⟨⟨-, rfl⟩, -⟩ := same
    exact hollow_composite_iff.2 h
  · exact h f (List.mem_singleton.2 rfl)

/-- Children are hollow if the siblings that they leave are. -/
theorem hollow_of_merge (h : ∀ g ∈ merge operator children, g.Hollow) :
    ∀ child ∈ children, child.Hollow := by
  intro child hchild
  apply hollow_of_splice
  intro g hg
  exact (hollow_of_foldl_pushUnique h).2 g (List.mem_flatMap.2 ⟨child, hchild, hg⟩)

/-- A node that is hollow has only hollow siblings under it. -/
theorem hollow_of_collapse {negated : Bool} (h : (collapse operator negated siblings).Hollow) :
    ∀ f ∈ siblings, f.Hollow := by
  rcases siblings with _ | ⟨only, _ | ⟨second, others⟩⟩
  · simp
  · rw [List.forall_mem_singleton]
    exact (hollow_negateIf_iff only negated).1 h
  · exact hollow_composite_iff.1 h

/-- Of a tree with a condition simplification leaves a condition. -/
theorem hollow_of_hollow_simplify (h : t.simplify.Hollow) : t.Hollow := by
  induction t using Filter.induction with
  | leaf operator negated children condition => exact h
  | composite operator negated children ih =>
    rw [simplify, simplifyAll_eq_map] at h
    rw [hollow_composite_iff]
    intro child hchild
    apply ih child hchild
    exact hollow_of_merge (hollow_of_collapse h) _ (List.mem_map_of_mem hchild)

/-! ## What is left -/

/-- A conjunction of nothing is left, or the negation of a disjunction of nothing. -/
def Vacuous (t : Filter) : Prop := t.simplify = allOf [] ∨ t.simplify = (anyOf []).negate

/-- A disjunction of nothing is left, or the negation of a conjunction of nothing. -/
def Contradictory (t : Filter) : Prop := t.simplify = anyOf [] ∨ t.simplify = (allOf []).negate

/-- A filter of which a tree of composites alone is left has the value of that tree. -/
theorem value_of_simplify_eq {left : Filter} (h : t.simplify = left) (hollow : left.Hollow)
    (v : Condition → Truth) : t.value v = left.value v := by
  have respects : Condition.Respects fun _ => .yes := fun _ _ _ => rfl
  calc t.value v
    _ = t.value fun _ => .yes := value_of_hollow (hollow_of_hollow_simplify (h ▸ hollow)) _ _
    _ = left.value fun _ => .yes := by rw [← value_simplify respects t, h]
    _ = left.value v := value_of_hollow hollow _ _

/-- A vacuous filter selects every row. -/
theorem Vacuous.value_eq (h : t.Vacuous) (v : Condition → Truth) : t.value v = .yes := by
  rcases h with h | h
  · exact value_of_simplify_eq h rfl v
  · exact value_of_simplify_eq h rfl v

/-- A contradictory filter selects no row. -/
theorem Contradictory.value_eq (h : t.Contradictory) (v : Condition → Truth) :
    t.value v = .no := by
  rcases h with h | h
  · exact value_of_simplify_eq h rfl v
  · exact value_of_simplify_eq h rfl v

/-- A filter has no text exactly if one of the four empty composites is left of it. -/
theorem canonicalText_eq_none_iff (t : Filter) :
    t.canonicalText = none ↔ t.Vacuous ∨ t.Contradictory := by
  unfold canonicalText Vacuous Contradictory
  have normal := normal_simplify t
  generalize t.simplify = s at normal
  cases normal with
  | @leaf f negated _ hleaf =>
    obtain ⟨operator, _, children, condition⟩ := f
    obtain ⟨c, rfl⟩ := Option.isSome_iff_exists.1 hleaf
    simp [isLeaf, allOf, anyOf, composite, negate, negateIf]
  | @composite operator negated children hop =>
    cases children with
    | nil =>
      rcases hop with rfl | rfl
      · cases negated <;> simp [isLeaf, allOf, anyOf, composite, negate, negateIf]
      · cases negated <;> simp [isLeaf, allOf, anyOf, composite, negate, negateIf]
    | cons first rest => simp [isLeaf, allOf, anyOf, composite, negate, negateIf]

/-- **Filters that share the key of no filter.** A query with a filter has the key of the query
without it exactly if one of the four empty composites is left of the filter. Two of them exclude
no row and the other two exclude every row, whatever the conditions are worth. -/
theorem shares_unfiltered_key_iff (t : Filter) :
    (t.canonicalText = none ↔ t.Vacuous ∨ t.Contradictory) ∧
    (∀ q : Query, q.fingerprint.isSome = true →
      (CacheKey.ofQuery { q with filter := some t } = CacheKey.ofQuery { q with filter := none } ↔
        t.Vacuous ∨ t.Contradictory)) ∧
    (t.Vacuous → ∀ v, t.value v = .yes) ∧
    (t.Contradictory → ∀ v, t.value v = .no) := by
  refine ⟨canonicalText_eq_none_iff t, ?_, Vacuous.value_eq, Contradictory.value_eq⟩
  intro q hq
  obtain ⟨version, hversion⟩ := Option.isSome_iff_exists.1 hq
  rw [← canonicalText_eq_none_iff]
  simp [CacheKey.ofQuery, hversion]

/-- A negated grouping of empty conjunctions excludes every row, and the negation of a disjunction of
empty disjunctions none. Both have the key of no filter. -/
theorem shares_unfiltered_key_of_groupings :
    let all := (anyOf [anyOf [], anyOf [anyOf []]]).negate
    let nothing : Filter := ⟨.none, true, [allOf [], allOf [allOf []]], none⟩
    (∀ v, all.value v = .yes) ∧ (∀ v, nothing.value v = .no) ∧
      all.canonicalText = nothing.canonicalText ∧
      CacheKey.ofQuery { fingerprint := some 7, filter := some nothing } =
        CacheKey.ofQuery { fingerprint := some 7 } := by
  intro all nothing
  have vacuous : all.Vacuous := .inr rfl
  have contradictory : nothing.Contradictory := .inr rfl
  obtain ⟨text_all, -, keeps, -⟩ := shares_unfiltered_key_iff all
  obtain ⟨text_nothing, key_nothing, -, excludes⟩ := shares_unfiltered_key_iff nothing
  refine ⟨keeps vacuous, excludes contradictory, ?_, ?_⟩
  · rw [text_all.2 (.inl vacuous), text_nothing.2 (.inr contradictory)]
  · exact (key_nothing { fingerprint := some 7 } rfl).2 (.inr contradictory)

/-- A disjunction of nothing excludes every row, and its query has the key of the query without a
filter. -/
theorem unfiltered_key_of_contradiction :
    (anyOf []).canonicalText = none ∧ (∀ v, (anyOf []).value v = .no) ∧
    CacheKey.ofQuery { fingerprint := some 7, filter := some (anyOf []) } =
      CacheKey.ofQuery { fingerprint := some 7 } :=
  ⟨rfl, fun _ => rfl, rfl⟩

end DataService.Filter
