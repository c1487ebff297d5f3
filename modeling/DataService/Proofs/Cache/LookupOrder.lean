import DataService.Model.Cache.Key

/-!
# The keys that a look-up tries

A look-up starts at the key itself and goes on at a looser one: a key with an order is followed by
the way of the key without it, a key with a filter only by the key with neither, and there the way
ends. So from any key on the way the rest of it is the way of that key, and two look-ups that meet
at a key go on together (`exists_lookupOrder_append`).
-/

set_option autoImplicit false

namespace DataService.CacheKey

/-- A key is its own generalization exactly if it has no order. -/
theorem withoutOrder_eq_self_iff (k : CacheKey) : k.withoutOrder = k ↔ k.orderBy = [] := by
  constructor
  · intro h
    rw [← h]
    rfl
  · intro h
    obtain ⟨version, parameters, condition, order⟩ := k
    obtain rfl : order = [] := h
    rfl

/-- A key without a filter has nothing to lose by dropping it. -/
theorem withoutCondition_eq_self_iff (k : CacheKey) :
    k.withoutCondition = k ↔ k.whereClause = none := by
  constructor
  · intro h
    rw [← h]
    rfl
  · intro h
    obtain ⟨version, parameters, condition, order⟩ := k
    obtain rfl : condition = none := h
    rfl

/-! ## One key after another -/

/-- The look-up of an ordered key goes on as that of the key without its order. -/
theorem lookupOrder_of_ordered {k : CacheKey} (order : k.orderBy ≠ []) :
    k.lookupOrder = k :: k.withoutOrder.lookupOrder := by
  have first : k.withoutOrder ≠ k := mt k.withoutOrder_eq_self_iff.1 order
  have last : k.withoutOrder.withoutCondition ≠ k := by
    intro h
    apply order
    rw [← h]
    rfl
  have again : k.withoutOrder.withoutOrder = k.withoutOrder := rfl
  unfold lookupOrder generalizations
  simp only [List.foldl_cons, List.foldl_nil, List.not_mem_nil, if_false, if_true, List.nil_append,
    List.mem_singleton, List.mem_append, first, again, last, false_or]
  by_cases h : k.withoutOrder.withoutCondition = k.withoutOrder
  · simp only [h, if_true, List.singleton_append]
  · simp only [h, if_false, List.nil_append, List.cons_append]

/-- The look-up of an unordered key with a filter goes on as that of the key without it. -/
theorem lookupOrder_of_filtered {k : CacheKey} (order : k.orderBy = [])
    (filter : k.whereClause ≠ none) : k.lookupOrder = k :: k.withoutCondition.lookupOrder := by
  have self : k.withoutOrder = k := k.withoutOrder_eq_self_iff.2 order
  have next : k.withoutCondition ≠ k := mt k.withoutCondition_eq_self_iff.1 filter
  have again : k.withoutCondition.withoutOrder = k.withoutCondition :=
    k.withoutCondition.withoutOrder_eq_self_iff.2 order
  have last : k.withoutCondition.withoutCondition = k.withoutCondition := rfl
  unfold lookupOrder generalizations
  simp only [List.foldl_cons, List.foldl_nil, List.not_mem_nil, if_false, if_true, List.nil_append,
    List.mem_singleton, self, next, again, last, List.singleton_append]

/-- The look-up of a key with neither order nor filter ends there. -/
theorem lookupOrder_of_bare {k : CacheKey} (order : k.orderBy = [])
    (filter : k.whereClause = none) : k.lookupOrder = [k] := by
  have self : k.withoutOrder = k := k.withoutOrder_eq_self_iff.2 order
  have last : k.withoutCondition = k := k.withoutCondition_eq_self_iff.2 filter
  unfold lookupOrder generalizations
  simp only [List.foldl_cons, List.foldl_nil, List.not_mem_nil, if_false, if_true, List.nil_append,
    List.mem_singleton, self, last]

/-! ## The whole way -/

/-- Every look-up starts at its key. -/
theorem exists_lookupOrder_cons (k : CacheKey) : ∃ rest, k.lookupOrder = k :: rest := by
  by_cases order : k.orderBy = []
  · by_cases filter : k.whereClause = none
    · exact ⟨[], lookupOrder_of_bare order filter⟩
    · exact ⟨_, lookupOrder_of_filtered order filter⟩
  · exact ⟨_, lookupOrder_of_ordered order⟩

/-- The keys tried for a key without an order have none either. -/
theorem orderBy_of_mem_lookupOrder {j k : CacheKey} (order : k.orderBy = [])
    (h : j ∈ k.lookupOrder) : j.orderBy = [] := by
  by_cases filter : k.whereClause = none
  · rw [lookupOrder_of_bare order filter, List.mem_singleton] at h
    rw [h]
    exact order
  · rw [lookupOrder_of_filtered order filter, List.mem_cons,
      lookupOrder_of_bare (k := k.withoutCondition) order rfl, List.mem_singleton] at h
    cases h with
    | inl first =>
      rw [first]
      exact order
    | inr last =>
      rw [last]
      exact order

/-- No key on the way but the first has an order. -/
theorem eq_or_orderBy_eq_nil {j k : CacheKey} (h : j ∈ k.lookupOrder) :
    j = k ∨ j.orderBy = [] := by
  by_cases order : k.orderBy = []
  · exact .inr (orderBy_of_mem_lookupOrder order h)
  · rw [lookupOrder_of_ordered order, List.mem_cons] at h
    exact h.imp_right (orderBy_of_mem_lookupOrder rfl)

/-- What a key on the way of a look-up has in common with the key that is looked up: all but a filter
and an order, which it has like that key or not at all. -/
structure Generalizes (j k : CacheKey) : Prop where
  pipelineVersion_eq : j.pipelineVersion = k.pipelineVersion
  parameters_eq : j.parameters = k.parameters
  condition : j.whereClause = k.whereClause ∨ j.whereClause = none
  order : j.orderBy = k.orderBy ∧ j.whereClause = k.whereClause ∨ j.orderBy = []

theorem Generalizes.refl (k : CacheKey) : k.Generalizes k :=
  ⟨rfl, rfl, .inl rfl, .inl ⟨rfl, rfl⟩⟩

/-- A look-up tries generalizations of its key only. -/
theorem generalizes_of_mem_lookupOrder {j k : CacheKey} (h : j ∈ k.lookupOrder) :
    j.Generalizes k := by
  have unordered {l : CacheKey} (order : l.orderBy = []) (h : j ∈ l.lookupOrder) :
      j = l ∨ j = l.withoutCondition := by
    by_cases filter : l.whereClause = none
    · rw [lookupOrder_of_bare order filter, List.mem_singleton] at h
      exact .inl h
    · rw [lookupOrder_of_filtered order filter, List.mem_cons,
        lookupOrder_of_bare (k := l.withoutCondition) order rfl, List.mem_singleton] at h
      exact h
  by_cases order : k.orderBy = []
  · rcases unordered order h with rfl | rfl
    · exact .refl j
    · exact ⟨rfl, rfl, .inr rfl, .inr order⟩
  · rw [lookupOrder_of_ordered order, List.mem_cons] at h
    rcases h with rfl | later
    · exact .refl j
    · rcases unordered (l := k.withoutOrder) rfl later with rfl | rfl
      · exact ⟨rfl, rfl, .inl rfl, .inr rfl⟩
      · exact ⟨rfl, rfl, .inr rfl, .inr rfl⟩

/-- If the look-up of `k` goes on as that of `next`, then a key on the way of `k` either is `k` or
divides the way as it divides that of `next`. -/
theorem exists_append_of_cons {j k next : CacheKey} (way : k.lookupOrder = k :: next.lookupOrder)
    (later : j ∈ next.lookupOrder →
      ∃ front, next.lookupOrder = front ++ j.lookupOrder ∧ j ∉ front)
    (h : j ∈ k.lookupOrder) : ∃ front, k.lookupOrder = front ++ j.lookupOrder ∧ j ∉ front := by
  by_cases here : j = k
  · rw [here]
    exact ⟨[], rfl, List.not_mem_nil⟩
  · rw [way, List.mem_cons, or_iff_right here] at h
    obtain ⟨front, rest, fresh⟩ := later h
    refine ⟨k :: front, ?_, List.not_mem_cons_of_ne_of_not_mem here fresh⟩
    rw [way, rest, List.cons_append]

/-- From a key on the way of a look-up, the rest of the way is the way of that key. -/
theorem exists_lookupOrder_append {j k : CacheKey} (h : j ∈ k.lookupOrder) :
    ∃ front, k.lookupOrder = front ++ j.lookupOrder ∧ j ∉ front := by
  have bare {l : CacheKey} (order : l.orderBy = []) (filter : l.whereClause = none)
      (h : j ∈ l.lookupOrder) : ∃ front, l.lookupOrder = front ++ j.lookupOrder ∧ j ∉ front := by
    rw [lookupOrder_of_bare order filter, List.mem_singleton] at h
    rw [h]
    exact ⟨[], rfl, List.not_mem_nil⟩
  have unordered {l : CacheKey} (order : l.orderBy = []) (h : j ∈ l.lookupOrder) :
      ∃ front, l.lookupOrder = front ++ j.lookupOrder ∧ j ∉ front := by
    by_cases filter : l.whereClause = none
    · exact bare order filter h
    · exact exists_append_of_cons (lookupOrder_of_filtered order filter) (bare order rfl) h
  by_cases order : k.orderBy = []
  · exact unordered order h
  · exact exists_append_of_cons (lookupOrder_of_ordered order) (unordered rfl) h

end DataService.CacheKey
