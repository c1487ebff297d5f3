import DataService.Proofs.Service.Permanence
import DataService.Proofs.Store.Unreliable

/-!
# Deposits that fail

What a store can answer is judged by what it holds: a query could be answered (`CouldAnswer`) if a
look-up in which no call fails would hit. A complete result costs no such query its answer, whichever
calls of its deposit fail (`couldAnswer_deposit`). If it was kept, then every look-up that comes to
its place ends there with an answer. The only entry that may be dropped is that of the exact key,
which has an order then, so that no way but its own leads over it; and on that way the place of the
result comes next.
-/

set_option autoImplicit false

namespace DataService

universe u

/-- If a complete result takes its place and at most the exact key is cleared, every way on which the
first entry answers a query still has one that does. -/
theorem exists_answer_of_replaced {entry entry' : CacheKey → Option CachedResult} {key : CacheKey}
    {result : CachedResult} {q : Query} (complete : result.isComplete = true)
    (there : entry' key.withoutOrder = some result)
    (others : ∀ j, j ≠ key.withoutOrder → entry' j = entry j ∨ j = key ∧ entry' j = none)
    {k : CacheKey}
    (answered : ∃ found, k.lookupOrder.findSome? entry = some found ∧ found.answers q = true) :
    ∃ found, k.lookupOrder.findSome? entry' = some found ∧ found.answers q = true := by
  have answers : result.answers q = true := by
    rw [CachedResult.answers, complete, Bool.true_or]
  by_cases cleared : k = key ∧ entry' key = none
  · obtain ⟨rfl, nothing⟩ := cleared
    have ordered : k.orderBy ≠ [] := by
      intro unordered
      rw [k.withoutOrder_eq_self_iff.2 unordered, nothing] at there
      cases there
    obtain ⟨rest, way⟩ := k.withoutOrder.exists_lookupOrder_cons
    refine ⟨result, ?_, answers⟩
    rw [CacheKey.lookupOrder_of_ordered ordered, way, List.findSome?_cons, nothing,
      List.findSome?_cons, there]
  · refine exists_findSome?_of_change answered fun j on_way => ?_
    by_cases target : j = key.withoutOrder
    · rw [target]
      exact .inr ⟨result, there, answers⟩
    · rcases others j target with same | ⟨rfl, dropped⟩
      · exact .inl same
      · -- a key that was dropped has an order, so it can only be the first on the way
        rcases CacheKey.eq_or_orderBy_eq_nil on_way with first | unordered
        · exact absurd ⟨first.symm, dropped⟩ cleared
        · exact absurd (j.withoutOrder_eq_self_iff.2 unordered).symm target

namespace Service

variable {σ : Type u} [UnreliableStore σ]

/-- A look-up of the query would hit, if no call on the store failed. -/
def CouldAnswer (s : Service) (store : σ) (q : Query) : Prop :=
  ∃ result, (s.lookup q (⟨⟨UnreliableStore.entry store⟩, []⟩ : Watched KeyedMap)).2 =
    .ok (some ⟨.hit, some result⟩)

/-- A query could be answered if the service caches results and the first one under the keys tried
for it answers it. -/
theorem couldAnswer_iff {s : Service} {store : σ} {q : Query} :
    s.CouldAnswer store q ↔ s.definition.resultCache?.isSome = true ∧
      ∃ key, CacheKey.ofQuery q = .ok key ∧ ∃ result,
        key.lookupOrder.findSome? (UnreliableStore.entry store s.cacheName) = some result ∧
        result.answers q = true := by
  unfold CouldAnswer lookup
  cases s.definition.resultCache? with
  | none => simp
  | some cache =>
    cases CacheKey.ofQuery q with
    | error failure => simp
    | ok key =>
      let w : Watched KeyedMap := ⟨⟨UnreliableStore.entry store⟩, []⟩
      have entries : UnreliableStore.entry store s.cacheName = w.entry s.cacheName := rfl
      rw [entries]
      cases first : key.lookupOrder.findSome? (w.entry s.cacheName) with
      | none =>
        have nothing : key.lookupOrder.findSome?
            (fun key => (w.entry s.cacheName key).map (key, ·)) = none := by
          rw [List.findSome?_eq_none_iff] at first ⊢
          intro j on_way
          rw [first j on_way]
          rfl
        obtain ⟨w', walk, -⟩ := w.getFirst_eq s.cacheName key.lookupOrder
        rw [nothing] at walk
        simp [w, walk, first, entryOf, LookupAnswer.ofEntry]
      | some result =>
        obtain ⟨w', key', walk, -⟩ := Watched.getFirst_of_findSome? first
        cases answers : result.answers q <;>
          simp [w, walk, first, answers, entryOf, LookupAnswer.ofEntry]

/-- The deposit of a complete result costs no query its answer, whichever calls fail. -/
theorem couldAnswer_deposit {s : Service} {w : Watched σ} {q : Query}
    (could : s.CouldAnswer w.store q) (cache : String) (key : CacheKey) {result : CachedResult}
    (complete : result.isComplete = true) :
    s.CouldAnswer (w.deposit cache key result).store q := by
  rw [couldAnswer_iff] at could ⊢
  obtain ⟨cached, k, exact_key, answered⟩ := could
  refine ⟨cached, k, exact_key, ?_⟩
  rcases w.held_deposit_cases cache key complete with same | ⟨there, others⟩
  · have same : UnreliableStore.entry (w.deposit cache key result).store =
        UnreliableStore.entry w.store := same
    rw [same]
    exact answered
  · by_cases own : s.cacheName = cache
    · subst own
      refine exists_answer_of_replaced complete there (fun j other => ?_) answered
      rcases others s.cacheName j (fun both => other both.2) with same | ⟨-, dropped⟩
      · exact .inl same
      · exact .inr dropped
    · have same : UnreliableStore.entry (w.deposit cache key result).store s.cacheName =
          UnreliableStore.entry w.store s.cacheName := by
        funext j
        rcases others s.cacheName j (fun both => own both.1) with same | ⟨differs, -⟩
        · exact same
        · exact absurd differs own
      rw [same]
      exact answered

end Service

end DataService
