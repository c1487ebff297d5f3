import DataService.Proofs.Cache.LookupOrder
import DataService.Proofs.Store.Keyed

/-!
# Look-ups that meet go on together

The way of a look-up is the list of the keys that it tries. No key comes twice
(`nodup_lookupOrder`), and from a key on the way the rest of it is the way of that key
(`exists_lookupOrder_append`). So the first key that two look-ups share divides both ways, and from
there on they are one: what the ways have in common is the end of each (`exists_common_suffix`).

The keys that a way leaves out of the generalizations were listed before, so that it makes no
difference which of the two lists is looked through (`findSome?_lookupOrder`).
-/

set_option autoImplicit false

namespace DataService.CacheKey

/-- No key is tried twice. -/
theorem nodup_lookupOrder (k : CacheKey) : k.lookupOrder.Nodup := by
  have unordered {l : CacheKey} (order : l.orderBy = []) : l.lookupOrder.Nodup := by
    by_cases filter : l.whereClause = none
    · simp [lookupOrder_of_bare order filter]
    · have next : l ≠ l.withoutCondition := fun same =>
        filter (l.withoutCondition_eq_self_iff.1 same.symm)
      rw [lookupOrder_of_filtered order filter,
        lookupOrder_of_bare (k := l.withoutCondition) order rfl]
      simp [next]
  by_cases order : k.orderBy = []
  · exact unordered order
  · rw [lookupOrder_of_ordered order, List.nodup_cons]
    refine ⟨fun again => order ?_, unordered rfl⟩
    -- only the first key of a way has an order
    exact orderBy_of_mem_lookupOrder rfl again

/-- What comes before the first occurrence of a key is dropped. -/
theorem dropWhile_ne_append {j : CacheKey} {front rest : List CacheKey} (fresh : j ∉ front) :
    (front ++ j :: rest).dropWhile (· ≠ j) = j :: rest := by
  have passed : ∀ i ∈ front, decide (i ≠ j) = true := fun i before =>
    decide_eq_true fun same => fresh (same ▸ before)
  rw [List.dropWhile_append_of_pos passed]
  simp

/-- The end of a way that starts at a key is the way of that key. -/
theorem dropWhile_lookupOrder {j k : CacheKey} (h : j ∈ k.lookupOrder) :
    k.lookupOrder.dropWhile (· ≠ j) = j.lookupOrder := by
  obtain ⟨front, way, fresh⟩ := exists_lookupOrder_append h
  obtain ⟨rest, start⟩ := j.exists_lookupOrder_cons
  rw [way, start, dropWhile_ne_append fresh]

/-- If the way of `a` comes to the way of `j` without a key of the way of `b`, and `b` comes to `j`,
then the way of `j` is what both have in common, in the order of `a`. -/
theorem filter_lookupOrder_of_append {a b j : CacheKey} {front : List CacheKey}
    (way : a.lookupOrder = front ++ j.lookupOrder) (h : j ∈ b.lookupOrder)
    (apart : ∀ i ∈ front, i ∉ b.lookupOrder) :
    a.lookupOrder.filter (· ∈ b.lookupOrder) = j.lookupOrder := by
  obtain ⟨front', way', -⟩ := exists_lookupOrder_append h
  have before : front.filter (· ∈ b.lookupOrder) = [] := by
    simpa [List.filter_eq_nil_iff] using apart
  have behind : j.lookupOrder.filter (· ∈ b.lookupOrder) = j.lookupOrder := by
    refine List.filter_eq_self.2 fun i later => decide_eq_true ?_
    rw [way']
    exact List.mem_append_right front' later
  rw [way, List.filter_append, before, behind, List.nil_append]

/-- What two ways have in common is a suffix of both. -/
theorem exists_common_suffix (a b : CacheKey) :
    ∃ common, common <:+ a.lookupOrder ∧ common <:+ b.lookupOrder ∧
      a.lookupOrder.filter (· ∈ b.lookupOrder) = common ∧
      b.lookupOrder.filter (· ∈ a.lookupOrder) = common := by
  cases first : a.lookupOrder.find? (· ∈ b.lookupOrder) with
  | none =>
    have apart : ∀ i ∈ a.lookupOrder, i ∉ b.lookupOrder := by
      simpa using List.find?_eq_none.1 first
    refine ⟨[], List.nil_suffix, List.nil_suffix, ?_, ?_⟩
    · simpa [List.filter_eq_nil_iff] using apart
    · simpa [List.filter_eq_nil_iff] using fun i inB inA => apart i inA inB
  | some j =>
    -- the ways meet at `j`
    obtain ⟨shared, front, rest, way, apart⟩ := List.find?_eq_some_iff_append.1 first
    have onB : j ∈ b.lookupOrder := of_decide_eq_true shared
    have onA : j ∈ a.lookupOrder := by simp [way]
    have apart : ∀ i ∈ front, i ∉ b.lookupOrder := by simpa using apart
    have fresh : j ∉ front := fun before => apart j before onB
    have wayA : a.lookupOrder = front ++ j.lookupOrder := by
      rw [← dropWhile_lookupOrder onA, way, dropWhile_ne_append fresh]
    obtain ⟨front', wayB, -⟩ := exists_lookupOrder_append onB
    have apart' : ∀ i ∈ front', i ∉ a.lookupOrder := by
      intro i before onA
      have nodup := b.nodup_lookupOrder
      rw [wayB, List.nodup_append] at nodup
      rw [wayA, List.mem_append] at onA
      rcases onA with early | late
      · exact apart i early (by simp [wayB, before])
      · exact nodup.2.2 i before i late rfl
    exact ⟨j.lookupOrder, ⟨front, wayA.symm⟩, ⟨front', wayB.symm⟩,
      filter_lookupOrder_of_append wayA onB apart, filter_lookupOrder_of_append wayB onA apart'⟩

/-- To leave out of a list what was listed before does not change what is found first. -/
theorem findSome?_foldl_distinct {α : Type} (entry : CacheKey → Option α)
    (keys seen : List CacheKey) :
    (keys.foldl (fun ks j => if j ∈ ks then ks else ks ++ [j]) seen).findSome? entry =
      (seen ++ keys).findSome? entry := by
  induction keys generalizing seen with
  | nil => simp
  | cons j rest ih =>
    rw [List.foldl_cons, ih]
    by_cases known : j ∈ seen
    · rw [if_pos known, List.findSome?_append, List.findSome?_append, List.findSome?_cons]
      cases here : entry j with
      | none => rfl
      | some e =>
        have found : (seen.findSome? entry).isSome :=
          List.findSome?_isSome_iff.2 ⟨j, known, by simp [here]⟩
        rw [Option.or_of_isSome found, Option.or_of_isSome found]
    · rw [if_neg known, List.append_assoc, List.singleton_append]

/-- What the first key of a way has that has an entry, the first such generalization has. -/
theorem findSome?_lookupOrder {α : Type} (entry : CacheKey → Option α) (k : CacheKey) :
    k.lookupOrder.findSome? entry = k.generalizations.findSome? entry :=
  findSome?_foldl_distinct entry k.generalizations []

/-- The first key that is present is the same one in both orders. -/
theorem find?_lookupOrder (present : CacheKey → Bool) (k : CacheKey) :
    k.lookupOrder.find? present = k.generalizations.find? present := by
  rw [List.find?_eq_findSome?_guard, List.find?_eq_findSome?_guard, findSome?_lookupOrder]

/-- **Look-ups that meet go on together.** What two ways have in common is a suffix of both; from a
key on a way the rest of it is the way of that key; and whatever a store holds, the first key of a
way that is present is the first generalization that is, so that on a keyed map it makes no
difference which of the two lists is looked through. -/
theorem lookups_go_on_together {σ : Type} [KeyedStore σ] (a b : CacheKey) :
    (∃ common, common <:+ a.lookupOrder ∧ common <:+ b.lookupOrder ∧
        a.lookupOrder.filter (· ∈ b.lookupOrder) = common ∧
        b.lookupOrder.filter (· ∈ a.lookupOrder) = common) ∧
      (∀ k ∈ a.lookupOrder,
        k.lookupOrder <:+ a.lookupOrder ∧ a.lookupOrder.dropWhile (· ≠ k) = k.lookupOrder) ∧
      (∀ present : CacheKey → Bool,
        a.lookupOrder.find? present = a.generalizations.find? present) ∧
      ∀ (w : Watched σ) (cache : String),
        (w.getFirst cache a.lookupOrder).2 = (w.getFirst cache a.generalizations).2 := by
  refine ⟨exists_common_suffix a b, fun k h => ?_, fun present => find?_lookupOrder present a,
    fun w cache => ?_⟩
  · obtain ⟨front, way, -⟩ := exists_lookupOrder_append h
    exact ⟨⟨front, way.symm⟩, dropWhile_lookupOrder h⟩
  · obtain ⟨_, distinct, -⟩ := w.getFirst_eq cache a.lookupOrder
    obtain ⟨_, all, -⟩ := w.getFirst_eq cache a.generalizations
    rw [distinct, all, findSome?_lookupOrder]

/-- A key with a filter and an order, and the key of another order. -/
theorem lookups_go_on_together_unordered :
    let a : CacheKey := { pipelineVersion := 7, whereClause := some "n = 1", orderBy := ["n"] }
    let b : CacheKey := { a with orderBy := ["m"] }
    a.lookupOrder.filter (· ∈ b.lookupOrder) = [a.withoutOrder, a.withoutOrder.withoutCondition] ∧
      a.withoutOrder ∈ a.lookupOrder ∧
      a.lookupOrder.dropWhile (· ≠ a.withoutOrder) = a.withoutOrder.lookupOrder := by
  intro a b
  have onWay : a.withoutOrder ∈ a.lookupOrder := by decide
  obtain ⟨-, suffix, -⟩ := lookups_go_on_together (σ := KeyedMap) a b
  exact ⟨by decide, onWay, (suffix a.withoutOrder onWay).2⟩

end DataService.CacheKey
