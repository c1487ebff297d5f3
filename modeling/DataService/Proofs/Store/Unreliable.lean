import DataService.Model.Store.Scripted
import DataService.Proofs.Store.Keyed

/-!
# Stores whose calls may fail

An unreliable store is a keyed map on which every single call may fail. A call that fails says so and
leaves the entries as they are. Which calls fail is up to the store: a keyed map fails in none, and a
scripted store in front of it in those that its script names, so that it can follow every pattern.

The deposit of a complete result makes two calls on such a store, and either may fail alone.
`Watched.held_deposit_cases` says what can come of it.
-/

set_option autoImplicit false

namespace DataService

universe u

/-- The keyed maps on which calls may fail. -/
class UnreliableStore (σ : Type u) extends ResultStore σ where
  /-- The result that a cache has under a key. -/
  entry (store : σ) (cache : String) (key : CacheKey) : Option CachedResult
  get_cases (store : σ) (cache : String) (key : CacheKey) :
    (get store cache key).2 = .ok (entry store cache key) ∨
      ∃ fault, (get store cache key).2 = .error fault
  entry_get (store : σ) (cache : String) (key : CacheKey) :
    entry (get store cache key).1 = entry store
  put_cases (store : σ) (cache : String) (key : CacheKey) (result : CachedResult) :
    ((put store cache key result).2 = .ok () ∧ ∀ cache' key',
      entry (put store cache key result).1 cache' key' =
        if cache' = cache ∧ key' = key then some result else entry store cache' key') ∨
    ∃ fault, (put store cache key result).2 = .error fault ∧
      entry (put store cache key result).1 = entry store
  evict_cases (store : σ) (cache : String) (key : CacheKey) :
    ((evict store cache key).2 = .ok () ∧ ∀ cache' key',
      entry (evict store cache key).1 cache' key' =
        if cache' = cache ∧ key' = key then none else entry store cache' key') ∨
    ∃ fault, (evict store cache key).2 = .error fault ∧
      entry (evict store cache key).1 = entry store

/-! ## Kinds of unreliable stores -/

instance {σ : Type u} [KeyedStore σ] : UnreliableStore σ where
  toResultStore := KeyedStore.toResultStore
  entry := KeyedStore.entry
  get_cases store cache key := .inl (KeyedStore.get_ok store cache key)
  entry_get := KeyedStore.entry_get
  put_cases store cache key result :=
    .inl ⟨KeyedStore.put_ok store cache key result, KeyedStore.entry_put store cache key result⟩
  evict_cases store cache key :=
    .inl ⟨KeyedStore.evict_ok store cache key, KeyedStore.entry_evict store cache key⟩

instance {σ : Type u} [UnreliableStore σ] : UnreliableStore (ScriptedStore σ) where
  entry s := UnreliableStore.entry s.inner
  get_cases s cache key := by
    show (ScriptedStore.through _ cache _ _).2 = _ ∨ ∃ fault, (ScriptedStore.through _ cache _ _).2 = _
    cases ScriptedStore.next s.gets with
    | none => exact UnreliableStore.get_cases s.inner cache key
    | some fault => exact .inr ⟨fault.on cache, rfl⟩
  entry_get s cache key := by
    show UnreliableStore.entry (ScriptedStore.through _ cache _ _).1.inner = _
    cases ScriptedStore.next s.gets with
    | none => exact UnreliableStore.entry_get s.inner cache key
    | some fault => rfl
  put_cases s cache key result := by
    show (ScriptedStore.through _ cache _ _).2 = _ ∧ (∀ cache' key',
        UnreliableStore.entry (ScriptedStore.through _ cache _ _).1.inner cache' key' = _) ∨
      ∃ fault, (ScriptedStore.through _ cache _ _).2 = _ ∧
        UnreliableStore.entry (ScriptedStore.through _ cache _ _).1.inner = _
    cases ScriptedStore.next s.puts with
    | none => exact UnreliableStore.put_cases s.inner cache key result
    | some fault => exact .inr ⟨fault.on cache, rfl, rfl⟩
  evict_cases s cache key := by
    show (ScriptedStore.through _ cache _ _).2 = _ ∧ (∀ cache' key',
        UnreliableStore.entry (ScriptedStore.through _ cache _ _).1.inner cache' key' = _) ∨
      ∃ fault, (ScriptedStore.through _ cache _ _).2 = _ ∧
        UnreliableStore.entry (ScriptedStore.through _ cache _ _).1.inner = _
    cases ScriptedStore.next s.evicts with
    | none => exact UnreliableStore.evict_cases s.inner cache key
    | some fault => exact .inr ⟨fault.on cache, rfl, rfl⟩

/-! ## Calls and deposits -/

namespace Watched

variable {σ : Type u} [UnreliableStore σ]

/-- The result that the store holds under a key, whether or not a look-up gets at it. -/
def held (w : Watched σ) (cache : String) (key : CacheKey) : Option CachedResult :=
  UnreliableStore.entry w.store cache key

/-- A write sets the entry under its own key, or fails and changes none. -/
theorem put_cases (w : Watched σ) (cache : String) (key : CacheKey) (result : CachedResult) :
    (∃ w' : Watched σ, w.put cache key result = (w', .ok ()) ∧ ∀ cache' key',
      w'.held cache' key' =
        if cache' = cache ∧ key' = key then some result else w.held cache' key') ∨
    ∃ (w' : Watched σ) (fault : StoreFault),
      w.put cache key result = (w', .error fault) ∧ w'.held = w.held := by
  rcases UnreliableStore.put_cases w.store cache key result with ⟨ok, kept⟩ | ⟨fault, failed, same⟩
  · exact .inl ⟨(w.put cache key result).1, Prod.ext rfl ok, kept⟩
  · exact .inr ⟨(w.put cache key result).1, fault, Prod.ext rfl failed, same⟩

/-- An eviction clears the entry under its own key, or fails and changes none. -/
theorem evict_cases (w : Watched σ) (cache : String) (key : CacheKey) :
    (∀ cache' key', (w.evict cache key).1.held cache' key' =
      if cache' = cache ∧ key' = key then none else w.held cache' key') ∨
    (w.evict cache key).1.held = w.held := by
  rcases UnreliableStore.evict_cases w.store cache key with ⟨-, dropped⟩ | ⟨-, -, same⟩
  · exact .inl dropped
  · exact .inr same

/-- What comes of the entries when a complete result is deposited. Either nothing changes, or the
result is held under the key without its order, and no other entry changes but that of the key
itself, which may be dropped. -/
theorem held_deposit_cases (w : Watched σ) (cache : String) (key : CacheKey)
    {result : CachedResult} (complete : result.isComplete = true) :
    let w' := w.deposit cache key result
    w'.held = w.held ∨
    w'.held cache key.withoutOrder = some result ∧
      ∀ cache' key', ¬(cache' = cache ∧ key' = key.withoutOrder) →
        w'.held cache' key' = w.held cache' key' ∨
        cache' = cache ∧ key' = key ∧ w'.held cache' key' = none := by
  intro w'
  have deposits : w' = w.depositComplete cache key result := if_pos complete
  unfold depositComplete at deposits
  rcases w.put_cases cache key.withoutOrder result with
    ⟨kept, put_eq, entries⟩ | ⟨unkept, fault, put_eq, same⟩
  · rw [put_eq] at deposits
    dsimp only at deposits
    have there : kept.held cache key.withoutOrder = some result := by
      rw [entries, if_pos ⟨rfl, rfl⟩]
    have elsewhere (cache' : String) (key' : CacheKey)
        (other : ¬(cache' = cache ∧ key' = key.withoutOrder)) :
        kept.held cache' key' = w.held cache' key' := by
      rw [entries, if_neg other]
    refine .inr ?_
    by_cases unordered : key = key.withoutOrder
    · rw [deposits, if_pos unordered]
      exact ⟨there, fun cache' key' other => .inl (elsewhere cache' key' other)⟩
    · rw [deposits, if_neg unordered]
      rcases kept.evict_cases cache key with dropped | same
      · refine ⟨?_, fun cache' key' other => ?_⟩
        · rw [dropped, if_neg fun own => unordered own.2.symm, there]
        · rw [dropped]
          by_cases own : cache' = cache ∧ key' = key
          · rw [if_pos own]
            exact .inr ⟨own.1, own.2, rfl⟩
          · rw [if_neg own]
            exact .inl (elsewhere cache' key' other)
      · rw [same]
        exact ⟨there, fun cache' key' other => .inl (elsewhere cache' key' other)⟩
  · rw [put_eq] at deposits
    exact .inl (deposits ▸ same)

end Watched

end DataService
