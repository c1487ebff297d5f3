import DataService.Proofs.PushDown.Survivors

/-!
# Restating in two steps

A filter may pass two steps on its way up, each with a field map of its own. Restating it for the
first step and what is left of it for the second is restating it once through both maps
(`restate_andThen`). Between the two rounds a node may have lost children or given its place to its
only survivor, so the second round does not meet the nodes of the filter. It meets the promoted
survivors of each of them, and restates these as it would have restated the node over them
(`restate_promote_of_intact`, `restate_promote_of_not_intact`).
-/

set_option autoImplicit false

namespace DataService

namespace FieldMap

/-- The map through two maps, one after the other: it has the fields that the first one maps and
whose targets the second one maps. -/
def andThen (m₁ m₂ : FieldMap) : FieldMap :=
  ⟨⟨m₁.targets.keys.filterMap fun source =>
    ((m₁.target? source).bind m₂.target?).map fun target => (source, target)⟩⟩

/-- A table made from a list of sources has the targets of these sources. -/
theorem lookup_filterMap (f : String → Option String) (sources : List String) (source : String) :
    (sources.filterMap fun s => (f s).map fun target => (s, target)).lookup source =
      if source ∈ sources then f source else none := by
  induction sources with
  | nil => rfl
  | cons first rest ih =>
    by_cases same : source = first
    · subst same
      cases hf : f source with
      | none => simp [hf, ih]
      | some target => simp [hf]
    · have different : (source == first) = false := beq_eq_false_iff_ne.2 same
      cases hf : f first with
      | none => simp [hf, ih, same]
      | some target => simp [hf, ih, same, List.lookup_cons, different]

/-- A field is mapped through two maps if both of them take it on, and to where they take it. -/
theorem target?_andThen (m₁ m₂ : FieldMap) (source : String) :
    (m₁.andThen m₂).target? source = (m₁.target? source).bind m₂.target? := by
  change List.lookup source (m₁.targets.keys.filterMap _) = _
  rw [lookup_filterMap]
  split
  · rfl
  · rename_i unmapped
    have absent : m₁.target? source = none := by
      rw [← Table.contains_iff_mem_keys, Table.contains] at unmapped
      simpa [target?] using unmapped
    rw [absent, Option.bind_none]

end FieldMap

namespace Filter

variable {m m₁ m₂ : FieldMap} {operator : Operator} {children survivors : List Filter}

/-- The second round over a promoted node is the round over the node. -/
theorem restate_promote_of_intact (hop : operator.combining = operator) (negated : Bool)
    (h : Intact m operator survivors) :
    (promote operator negated survivors).bind (restate m) =
      promote operator negated (survivors.filterMap (restate m)) := by
  rcases survivors with _ | ⟨only, _ | ⟨second, others⟩⟩
  · rfl
  · rw [promote_singleton, Option.bind_some, restate_negateIf, restate_alone]
    cases honly : restate m only with
    | none => simp [honly, promote]
    | some g => simp [honly, promote_singleton]
  · rw [promote_of_two_le (by simp), Option.bind_some, restate_of_intact h, hop]

/-- A node over survivors is lost with the next map where it is not intact under that one. -/
theorem restate_promote_of_not_intact (negated : Bool) (h : ¬ Intact m operator survivors) :
    (promote operator negated survivors).bind (restate m) = none := by
  rcases survivors with _ | ⟨only, _ | ⟨second, others⟩⟩
  · rfl
  · have lost : restate m only = none := by
      simp only [Intact, List.mem_singleton, forall_eq, Classical.not_imp, not_not] at h
      exact h.2
    rw [promote_singleton, Option.bind_some, restate_negateIf, restate_alone, lost]
    rfl
  · rw [promote_of_two_le (by simp), Option.bind_some, restate_of_not_intact h]

theorem combining_combining (operator : Operator) :
    operator.combining.combining = operator.combining := by
  cases operator <;> rfl

/-- Children are combined by a disjunction at a disjunction only. -/
theorem combining_eq_or_iff (operator : Operator) : operator.combining = .or ↔ operator = .or := by
  cases operator <;> simp [Operator.combining]

/-- A node outlasts both rounds if it outlasts the first one, and the node over its survivors the
second one. -/
theorem intact_iff_of_composed (operator : Operator)
    (each : ∀ f ∈ children, (restate m₁ f).bind (restate m₂) = restate m f) :
    Intact m operator children ↔ Intact m₁ operator children ∧
      Intact m₂ operator.combining (children.filterMap (restate m₁)) := by
  unfold Intact
  rw [combining_eq_or_iff]
  constructor
  · intro h
    refine ⟨?_, ?_⟩
    · intro hop f hf lost
      apply h hop f hf
      rw [← each f hf, lost, Option.bind_none]
    · intro hop g hg lost
      obtain ⟨f, hf, hfg⟩ := List.mem_filterMap.1 hg
      apply h hop f hf
      rw [← each f hf, hfg, Option.bind_some, lost]
  · rintro ⟨first, second⟩ hop f hf
    obtain ⟨g, hg⟩ := Option.ne_none_iff_exists'.1 (first hop f hf)
    rw [← each f hf, hg, Option.bind_some]
    exact second hop g (List.mem_filterMap.2 ⟨f, hf, hg⟩)

/-- Restating through one map and then another is restating through the composed one. -/
theorem restate_restate
    (composed : ∀ source, m.target? source = (m₁.target? source).bind m₂.target?) (t : Filter) :
    (restate m₁ t).bind (restate m₂) = restate m t := by
  induction t using Filter.induction with
  | leaf operator negated children condition =>
    rw [restate, restate, composed]
    cases m₁.target? condition.field with
    | none => rfl
    | some target => rw [Option.map_some, Option.bind_some, restate, Option.bind_some]
  | composite operator negated children each =>
    have survivors : (children.filterMap (restate m₁)).filterMap (restate m₂) =
        children.filterMap (restate m) := by
      rw [List.filterMap_filterMap]
      exact List.filterMap_congr each
    have intact := intact_iff_of_composed operator each
    by_cases first : Intact m₁ operator children
    · rw [restate_of_intact first]
      by_cases second : Intact m₂ operator.combining (children.filterMap (restate m₁))
      · rw [restate_of_intact (intact.2 ⟨first, second⟩), ← survivors]
        exact restate_promote_of_intact (combining_combining operator) negated second
      · rw [restate_promote_of_not_intact negated second,
          restate_of_not_intact fun h => second (intact.1 h).2]
    · rw [restate_of_not_intact first, restate_of_not_intact fun h => first (intact.1 h).1,
        Option.bind_none]

/-- **Restating in two steps.** What is left of a filter after restating it through one field map
and then another is what is left of it after restating it once through both of them, and through
both of them a field is mapped exactly if each takes it on. -/
theorem restate_andThen (m₁ m₂ : FieldMap) :
    (∀ source, (m₁.andThen m₂).target? source = (m₁.target? source).bind m₂.target?) ∧
    ∀ t, (restate m₁ t).bind (restate m₂) = restate (m₁.andThen m₂) t :=
  ⟨FieldMap.target?_andThen m₁ m₂, restate_restate (FieldMap.target?_andThen m₁ m₂)⟩

end Filter

end DataService
