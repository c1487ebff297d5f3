import DataService.Model.Service.Lookup
import DataService.Proofs.Cache.LookupOrder
import DataService.Proofs.Store.Keyed

/-!
# A complete answer stays

Once the first entry on the way of a key is complete, it is complete after every deposit, under
whatever key and of whatever result (`Watched.answersFully_deposit`). A complete deposit leaves the
entries on the way as they are or makes them complete, but for the key that it clears: that one has
an order, so it can only be the first on the way, and the complete result comes to be the second. A
bounded deposit changes a key on the way only if no entry from that key on is complete, and so the
complete one stands before it.
-/

set_option autoImplicit false

namespace DataService

universe u

/-! ## Entries on the way -/

/-- The first entry under the keys is complete. -/
def OpensComplete (entry : CacheKey → Option CachedResult) (keys : List CacheKey) : Prop :=
  ∃ result, keys.findSome? entry = some result ∧ result.isComplete = true

/-- The first entry keeps a property if each entry stays as it is or comes to have it. -/
theorem exists_findSome?_of_change {P : CachedResult → Prop}
    {entry entry' : CacheKey → Option CachedResult} {keys : List CacheKey}
    (h : ∃ result, keys.findSome? entry = some result ∧ P result)
    (change : ∀ j ∈ keys, entry' j = entry j ∨ ∃ result, entry' j = some result ∧ P result) :
    ∃ result, keys.findSome? entry' = some result ∧ P result := by
  induction keys with
  | nil =>
    obtain ⟨result, none_found, holds⟩ := h
    cases none_found
  | cons key rest ih =>
    obtain ⟨result, first, holds⟩ := h
    have rest_change : ∀ j ∈ rest,
        entry' j = entry j ∨ ∃ result, entry' j = some result ∧ P result := by
      intro j on_way
      exact change j (List.mem_cons_of_mem key on_way)
    cases change key List.mem_cons_self with
    | inl same =>
      rw [List.findSome?_cons] at first
      cases here : entry key with
      | none =>
        rw [here] at first same
        obtain ⟨result', first', holds'⟩ := ih ⟨result, first, holds⟩ rest_change
        refine ⟨result', ?_, holds'⟩
        rw [List.findSome?_cons, same]
        exact first'
      | some e =>
        rw [here] at first same
        refine ⟨result, ?_, holds⟩
        rw [List.findSome?_cons, same]
        exact first
    | inr now =>
      obtain ⟨result', here, holds'⟩ := now
      refine ⟨result', ?_, holds'⟩
      rw [List.findSome?_cons, here]

/-- The first entry stays complete if each one stays as it is or becomes complete. -/
theorem OpensComplete.mono {entry entry' : CacheKey → Option CachedResult} {keys : List CacheKey}
    (h : OpensComplete entry keys)
    (change : ∀ j ∈ keys,
      entry' j = entry j ∨ ∃ result, entry' j = some result ∧ result.isComplete = true) :
    OpensComplete entry' keys :=
  exists_findSome?_of_change h change

/-- If no entry of the second list is complete, the first complete one is in the first list. -/
theorem OpensComplete.of_append {entry : CacheKey → Option CachedResult}
    {front rest : List CacheKey} (h : OpensComplete entry (front ++ rest))
    (incomplete : (rest.any fun j => (entry j).any (·.isComplete)) = false) :
    OpensComplete entry front := by
  obtain ⟨result, first, complete⟩ := h
  rw [List.findSome?_append] at first
  cases early : front.findSome? entry with
  | some e =>
    rw [early, Option.some_or] at first
    exact ⟨result, early.trans first, complete⟩
  | none =>
    rw [early, Option.none_or] at first
    obtain ⟨j, on_way, here⟩ := List.exists_of_findSome?_eq_some first
    have missed := List.any_eq_false.1 incomplete j on_way
    rw [here, Option.any_some, complete] at missed
    exact absurd rfl missed

/-- Whether keys open on a complete result does not depend on further keys behind them. -/
theorem OpensComplete.append {entry : CacheKey → Option CachedResult} {front : List CacheKey}
    (h : OpensComplete entry front) (rest : List CacheKey) :
    OpensComplete entry (front ++ rest) := by
  obtain ⟨result, first, complete⟩ := h
  refine ⟨result, ?_, complete⟩
  rw [List.findSome?_append, first, Option.some_or]

namespace Watched

variable {σ : Type u} [KeyedStore σ]

/-- The first entry on the way of a key is complete. -/
def AnswersFully (w : Watched σ) (cache : String) (key : CacheKey) : Prop :=
  OpensComplete (w.entry cache) key.lookupOrder

/-! ## One deposit -/

/-- After a complete deposit its key is answered fully. -/
theorem answersFully_of_deposit (w : Watched σ) (cache : String) (key : CacheKey)
    {result : CachedResult} (complete : result.isComplete = true) :
    (w.deposit cache key result).AnswersFully cache key := by
  have target : (w.deposit cache key result).entry cache key.withoutOrder = some result := by
    rw [w.entry_deposit_complete cache key complete, if_pos ⟨rfl, rfl⟩]
  obtain ⟨rest, way⟩ := key.withoutOrder.exists_lookupOrder_cons
  refine ⟨result, ?_, complete⟩
  by_cases order : key.orderBy = []
  · rw [key.withoutOrder_eq_self_iff.2 order] at target way
    rw [way, List.findSome?_cons, target]
  · have cleared : (w.deposit cache key result).entry cache key = none := by
      have distinct : key ≠ key.withoutOrder := by
        intro h
        exact order (key.withoutOrder_eq_self_iff.1 h.symm)
      rw [w.entry_deposit_complete cache key complete, if_neg (fun h => distinct h.2),
        if_pos ⟨rfl, rfl⟩]
    rw [CacheKey.lookupOrder_of_ordered order, way, List.findSome?_cons, cleared,
      List.findSome?_cons, target]

/-- A complete deposit keeps a key answered fully. -/
theorem answersFully_deposit_complete {w : Watched σ} {cache : String} {key : CacheKey}
    (h : w.AnswersFully cache key) (key' : CacheKey) {result : CachedResult}
    (complete : result.isComplete = true) :
    (w.deposit cache key' result).AnswersFully cache key := by
  by_cases same : key' = key
  · rw [same]
    exact w.answersFully_of_deposit cache key complete
  · apply h.mono
    intro j on_way
    by_cases target : j = key'.withoutOrder
    · refine .inr ⟨result, ?_, complete⟩
      rw [w.entry_deposit_complete cache key' complete, if_pos ⟨rfl, target⟩]
    · -- Only an ordered key is cleared, and the only one on the way is `key`.
      have kept : j ≠ key' := by
        intro cleared
        cases CacheKey.eq_or_orderBy_eq_nil on_way with
        | inl first => exact same (cleared.symm.trans first)
        | inr unordered =>
          rw [cleared] at unordered target
          exact target (key'.withoutOrder_eq_self_iff.2 unordered).symm
      refine .inl ?_
      rw [w.entry_deposit_complete cache key' complete, if_neg (fun h => target h.2),
        if_neg (fun h => kept h.2)]

/-- A bounded deposit keeps a key answered fully. -/
theorem answersFully_deposit_bounded {w : Watched σ} {cache : String} {key : CacheKey}
    (h : w.AnswersFully cache key) (key' : CacheKey) {result : CachedResult}
    (bounded : result.isComplete = false) :
    (w.deposit cache key' result).AnswersFully cache key := by
  have entries := w.entry_deposit_bounded cache key' bounded cache
  cases superior : key'.lookupOrder.any fun j => (w.entry cache j).any (·.isComplete) with
  | true =>
    apply h.mono
    intro j on_way
    refine .inl ?_
    rw [entries, superior, if_pos rfl]
  | false =>
    have unchanged {j : CacheKey} (other : j ≠ key') :
        (w.deposit cache key' result).entry cache j = w.entry cache j := by
      rw [entries, superior, if_neg Bool.false_ne_true, if_neg (fun h => other h.2)]
    by_cases on_way : key' ∈ key.lookupOrder
    · obtain ⟨front, way, fresh⟩ := CacheKey.exists_lookupOrder_append on_way
      unfold AnswersFully at h ⊢
      rw [way] at h ⊢
      refine ((h.of_append superior).mono ?_).append key'.lookupOrder
      intro j in_front
      exact .inl (unchanged (fun same => fresh (same ▸ in_front)))
    · apply h.mono
      intro j j_on_way
      exact .inl (unchanged (fun same => on_way (same ▸ j_on_way)))

/-- A deposit keeps a key answered fully. -/
theorem answersFully_deposit {w : Watched σ} {cache : String} {key : CacheKey}
    (h : w.AnswersFully cache key) (key' : CacheKey) (result : CachedResult) :
    (w.deposit cache key' result).AnswersFully cache key := by
  cases complete : result.isComplete with
  | true => exact answersFully_deposit_complete h key' complete
  | false => exact answersFully_deposit_bounded h key' complete

/-! ## Many deposits -/

/-- Deposits results one after the other, each under its key. -/
def depositAll (w : Watched σ) (cache : String) (deposits : List (CacheKey × CachedResult)) :
    Watched σ :=
  deposits.foldl (fun w d => w.deposit cache d.1 d.2) w

/-- Deposits keep a key answered fully. -/
theorem answersFully_depositAll {w : Watched σ} {cache : String} {key : CacheKey}
    (h : w.AnswersFully cache key) (deposits : List (CacheKey × CachedResult)) :
    (w.depositAll cache deposits).AnswersFully cache key := by
  induction deposits generalizing w with
  | nil => exact h
  | cons d rest ih => exact ih (answersFully_deposit h d.1 d.2)

end Watched

namespace Service

open Watched

variable {σ : Type u} [KeyedStore σ]

/-- The look-up of a query whose key is answered fully hits a complete result. -/
theorem lookup_of_answersFully {s : Service} {q : Query} {key : CacheKey}
    (caching : s.definition.resultCache?.isSome = true) (exact_key : CacheKey.ofQuery q = .ok key)
    {w : Watched σ} (h : w.AnswersFully s.cacheName key) :
    ∃ result, (s.lookup q w).2 = .ok (some ⟨.hit, some result⟩) ∧ result.isComplete = true := by
  obtain ⟨cache, is_cache⟩ := Option.isSome_iff_exists.1 caching
  obtain ⟨result, first, complete⟩ := h
  obtain ⟨w', key', walk, -⟩ := getFirst_of_findSome? first
  refine ⟨result, ?_, complete⟩
  unfold lookup
  simp only [is_cache, exact_key, walk, entryOf, LookupAnswer.ofEntry, CachedResult.answers,
    complete, Bool.true_or, if_true]

/-- A complete answer stays. If a key is answered fully, then it is after all further deposits; the
deposit of a complete result under the key brings this about; and from then on the queries of the
key are answered by a complete result. -/
theorem lookup_complete_permanent (s : Service) (q : Query) {key : CacheKey}
    (exact_key : CacheKey.ofQuery q = .ok key) (w : Watched σ)
    (deposits : List (CacheKey × CachedResult)) :
    (w.AnswersFully s.cacheName key →
      (w.depositAll s.cacheName deposits).AnswersFully s.cacheName key) ∧
    (∀ result, result.isComplete = true → ((w.deposit s.cacheName key result).depositAll
      s.cacheName deposits).AnswersFully s.cacheName key) ∧
    (w.AnswersFully s.cacheName key → s.definition.resultCache?.isSome = true →
      ∃ result, (s.lookup q (w.depositAll s.cacheName deposits)).2 =
        .ok (some ⟨.hit, some result⟩) ∧ result.isComplete = true) := by
  refine ⟨?_, ?_, ?_⟩
  · intro h
    exact answersFully_depositAll h deposits
  · intro result complete
    exact answersFully_depositAll (w.answersFully_of_deposit s.cacheName key complete) deposits
  · intro h caching
    exact lookup_of_answersFully caching exact_key (answersFully_depositAll h deposits)

/-- The complete result of a filtered and ordered query, which replaced a bounded one, stays its
answer, whatever bounded results follow under the same filter and any order. -/
theorem lookup_complete_after_bounded_deposits :
    let s : Service :=
      { definition :=
          { name := "flights", outputStep := "out"
            strategies := [.resultCache ⟨"cache", ⟨"in", "sort", "out"⟩⟩] }
        settings := {}, store := ⟨0⟩, board := ⟨1⟩ }
    let q : Query :=
      { fingerprint := some 7, filter := some (.isNull "delayed"), orderBy := ["day"] }
    let key : CacheKey :=
      { pipelineVersion := 7, whereClause := some "delayed IS NULL", orderBy := ["day"] }
    let bounded : CachedResult := .ofRanks [] (some 3) none
    let w : Watched KeyedMap := ({ store := {} } : Watched KeyedMap).deposit s.cacheName key bounded
    ∃ result, (s.lookup q ((w.deposit s.cacheName key (.complete [])).depositAll s.cacheName
        [(key, bounded), (key.withoutOrder, bounded),
          ({ key with orderBy := ["hour"] }, bounded)])).2 =
      .ok (some ⟨.hit, some result⟩) ∧ result.isComplete = true := by
  intro s q key bounded w
  have exact_key : CacheKey.ofQuery q = .ok key := rfl
  have full := (lookup_complete_permanent s q exact_key w []).2.1 (.complete []) rfl
  exact (lookup_complete_permanent s q exact_key _ _).2.2 full rfl

end Service

end DataService
