import DataService.Model.Service.Deposit

/-!
# Stores that are keyed maps

A store is a keyed map if no call on it fails, a kept result stays under its key until it is
replaced or dropped, and no look-up changes what is kept. On such a store the longer operations come
down to what they do to the entries: looking through keys changes none and finds the first one
(`getFirst_eq`, `findSuperior_eq`), and a deposit is one put and one drop at most
(`entry_deposit_complete`, `entry_deposit_bounded`).
-/

set_option autoImplicit false

namespace DataService

universe u

/-- The stores that are keyed maps. -/
class KeyedStore (σ : Type u) extends ResultStore σ where
  /-- The result that a cache has under a key. -/
  entry (store : σ) (cache : String) (key : CacheKey) : Option CachedResult
  get_ok (store : σ) (cache : String) (key : CacheKey) :
    (get store cache key).2 = .ok (entry store cache key)
  entry_get (store : σ) (cache : String) (key : CacheKey) :
    entry (get store cache key).1 = entry store
  put_ok (store : σ) (cache : String) (key : CacheKey) (result : CachedResult) :
    (put store cache key result).2 = .ok ()
  entry_put (store : σ) (cache : String) (key : CacheKey) (result : CachedResult)
    (cache' : String) (key' : CacheKey) :
    entry (put store cache key result).1 cache' key' =
      if cache' = cache ∧ key' = key then some result else entry store cache' key'
  evict_ok (store : σ) (cache : String) (key : CacheKey) : (evict store cache key).2 = .ok ()
  entry_evict (store : σ) (cache : String) (key : CacheKey) (cache' : String) (key' : CacheKey) :
    entry (evict store cache key).1 cache' key' =
      if cache' = cache ∧ key' = key then none else entry store cache' key'

/-- The plain keyed map. -/
structure KeyedMap where
  entry : String → CacheKey → Option CachedResult := fun _ _ => none

namespace KeyedMap

/-- Puts a result, or none, under a key. -/
def set (m : KeyedMap) (cache : String) (key : CacheKey) (entry : Option CachedResult) : KeyedMap :=
  ⟨fun cache' key' => if cache' = cache ∧ key' = key then entry else m.entry cache' key'⟩

instance : KeyedStore KeyedMap where
  get m cache key := (m, .ok (m.entry cache key))
  put m cache key result := (m.set cache key (some result), .ok ())
  evict m cache key := (m.set cache key none, .ok ())
  entry := entry
  get_ok _ _ _ := rfl
  entry_get _ _ _ := rfl
  put_ok _ _ _ _ := rfl
  entry_put _ _ _ _ _ _ := rfl
  evict_ok _ _ _ := rfl
  entry_evict _ _ _ _ _ := rfl

end KeyedMap

namespace Watched

variable {σ : Type u} [KeyedStore σ]

/-- The result that the store has under a key. -/
def entry (w : Watched σ) (cache : String) (key : CacheKey) : Option CachedResult :=
  KeyedStore.entry w.store cache key

/-! ## Single calls -/

/-- A look-up by key returns the entry, and changes no entry. -/
theorem get_eq (w : Watched σ) (cache : String) (key : CacheKey) :
    ∃ w' : Watched σ, w.get cache key = (w', .ok (w.entry cache key)) ∧ w'.entry = w.entry := by
  refine ⟨(w.get cache key).1, Prod.ext rfl ?_, ?_⟩
  · exact KeyedStore.get_ok w.store cache key
  · exact KeyedStore.entry_get w.store cache key

/-- A write sets the entry under its own key, and no other one. -/
theorem put_eq (w : Watched σ) (cache : String) (key : CacheKey) (result : CachedResult) :
    ∃ w' : Watched σ, w.put cache key result = (w', .ok ()) ∧
      ∀ cache' key', w'.entry cache' key' =
        if cache' = cache ∧ key' = key then some result else w.entry cache' key' := by
  refine ⟨(w.put cache key result).1, Prod.ext rfl ?_, ?_⟩
  · exact KeyedStore.put_ok w.store cache key result
  · exact KeyedStore.entry_put w.store cache key result

/-- An eviction clears the entry under its own key, and no other one. -/
theorem evict_eq (w : Watched σ) (cache : String) (key : CacheKey) :
    ∃ w' : Watched σ, w.evict cache key = (w', .ok ()) ∧
      ∀ cache' key', w'.entry cache' key' =
        if cache' = cache ∧ key' = key then none else w.entry cache' key' := by
  refine ⟨(w.evict cache key).1, Prod.ext rfl ?_, ?_⟩
  · exact KeyedStore.evict_ok w.store cache key
  · exact KeyedStore.entry_evict w.store cache key

/-! ## Looking through keys -/

/-- Looking through keys finds the first one that has an entry, and changes none. -/
theorem getFirst_eq (w : Watched σ) (cache : String) (keys : List CacheKey) :
    ∃ w' : Watched σ, w.getFirst cache keys =
        (w', .ok (keys.findSome? fun key => (w.entry cache key).map (key, ·))) ∧
      w'.entry = w.entry := by
  induction keys generalizing w with
  | nil => exact ⟨w, rfl, rfl⟩
  | cons key rest ih =>
    obtain ⟨after, look, same⟩ := w.get_eq cache key
    rw [getFirst, look, List.findSome?_cons]
    cases found : w.entry cache key with
    | none =>
      obtain ⟨w', walk, same'⟩ := ih after
      rw [same] at walk
      exact ⟨w', walk, same'.trans same⟩
    | some result => exact ⟨after, rfl, same⟩

/-- A look-up of several keys finds the first one that has an entry. -/
theorem getFirst_of_findSome? {w : Watched σ} {cache : String} {keys : List CacheKey}
    {result : CachedResult} (first : keys.findSome? (w.entry cache) = some result) :
    ∃ (w' : Watched σ) (key : CacheKey),
      w.getFirst cache keys = (w', .ok (some (key, result))) ∧ w'.entry = w.entry := by
  obtain ⟨w', walk, same⟩ := w.getFirst_eq cache keys
  have result_eq : (keys.findSome? fun key => (w.entry cache key).map (key, ·)).map Prod.snd =
      some result := by
    rw [List.map_findSome?, ← first]
    congr 1
    funext key
    show ((w.entry cache key).map (key, ·)).map Prod.snd = w.entry cache key
    cases w.entry cache key with
    | none => rfl
    | some e => rfl
  obtain ⟨⟨key, found⟩, found_eq, value_eq⟩ := Option.map_eq_some_iff.1 result_eq
  obtain rfl : found = result := value_eq
  rw [found_eq] at walk
  exact ⟨w', key, walk, same⟩

/-- Looking for a superior of a bounded result finds out whether some of the keys has a complete
entry, and changes none. -/
theorem findSuperior_eq (w : Watched σ) (cache : String) {result : CachedResult}
    (bounded : result.isComplete = false) (keys : List CacheKey) :
    ∃ w' : Watched σ, w.findSuperior cache result keys =
        (w', keys.any fun key => (w.entry cache key).any (·.isComplete)) ∧
      w'.entry = w.entry := by
  induction keys generalizing w with
  | nil => exact ⟨w, rfl, rfl⟩
  | cons key rest ih =>
    obtain ⟨after, look, same⟩ := w.get_eq cache key
    obtain ⟨w', walk, same'⟩ := ih after
    rw [same] at walk same'
    rw [findSuperior, look, List.any_cons]
    cases here : w.entry cache key with
    | none => exact ⟨w', walk, same'⟩
    | some e =>
      have supersedes_eq : result.supersedes e = !e.isComplete := by
        rw [CachedResult.supersedes, bounded, Bool.false_or]
      simp only [supersedes_eq, Option.any_some]
      cases e.isComplete with
      | true => exact ⟨after, rfl, same⟩
      | false => exact ⟨w', walk, same'⟩

/-! ## Deposits -/

/-- A complete result is put under the key without its order, and the key itself is cleared. -/
theorem entry_deposit_complete (w : Watched σ) (cache : String) (key : CacheKey)
    {result : CachedResult} (complete : result.isComplete = true) (cache' : String)
    (key' : CacheKey) :
    (w.deposit cache key result).entry cache' key' =
      if cache' = cache ∧ key' = key.withoutOrder then some result
      else if cache' = cache ∧ key' = key then none
      else w.entry cache' key' := by
  obtain ⟨w', kept, entries⟩ := w.put_eq cache key.withoutOrder result
  obtain ⟨w'', dropped, entries'⟩ := w'.evict_eq cache key
  rw [deposit, if_pos complete, depositComplete, kept]
  by_cases unordered : key = key.withoutOrder
  · simp only [← unordered, if_true, entries]
    split <;> rfl
  · simp only [unordered, if_false, dropped, entries', entries]
    by_cases target : cache' = cache ∧ key' = key.withoutOrder
    · have distinct : ¬(cache' = cache ∧ key' = key) := by
        intro h
        exact unordered (h.2.symm.trans target.2)
      rw [if_neg distinct, if_pos target, if_pos target]
    · rw [if_neg target, if_neg target]

/-- A bounded result is put under its key, unless the way of that key has a complete entry. -/
theorem entry_deposit_bounded (w : Watched σ) (cache : String) (key : CacheKey)
    {result : CachedResult} (bounded : result.isComplete = false) (cache' : String)
    (key' : CacheKey) :
    (w.deposit cache key result).entry cache' key' =
      if key.lookupOrder.any fun j => (w.entry cache j).any (·.isComplete) then w.entry cache' key'
      else if cache' = cache ∧ key' = key then some result
      else w.entry cache' key' := by
  obtain ⟨w', walk, same⟩ := w.findSuperior_eq cache bounded key.lookupOrder
  obtain ⟨w'', kept, entries⟩ := w'.put_eq cache key result
  rw [deposit, if_neg (by rw [bounded]; exact Bool.false_ne_true), depositBounded, walk]
  cases key.lookupOrder.any fun j => (w.entry cache j).any (·.isComplete) with
  | true => simp only [same, if_true]
  | false => simp only [kept, entries, same, Bool.false_eq_true, if_false]

end Watched

end DataService
