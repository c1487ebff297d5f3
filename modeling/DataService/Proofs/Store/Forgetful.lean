import DataService.Model.Store.Scripted
import DataService.Proofs.Store.FirstInFirstOut
import DataService.Proofs.Store.Keyed

/-!
# Stores that may forget

Little has to be asked of a store for its answers to be trusted: what it returns was put into it,
under the key for which it is returned. It may forget any of it at any time, and its calls may fail.
Such a store is described by what it may still return (`ForgetfulStore.Keeps`), to which no call adds
but a put, and a put only its own result. Keyed maps, bounded stores and stores that fail on cue are
all of this kind.

The calls of a service on such a store add no more than its deposits do: a look-up finds what is
kept under one of its keys (`keeps_of_getFirst`), and after a deposit nothing is kept but what was
kept before and the deposited result in its own place (`keeps_of_deposit`).
-/

set_option autoImplicit false

namespace DataService

universe u

/-- The stores that return nothing but what was put into them, and may forget it. -/
class ForgetfulStore (σ : Type u) extends ResultStore σ where
  /-- A look-up may still return the result. -/
  Keeps (store : σ) (cache : String) (key : CacheKey) (result : CachedResult) : Prop
  keeps_of_found {store : σ} {cache : String} {key : CacheKey} {result : CachedResult} :
    (get store cache key).2 = .ok (some result) → Keeps store cache key result
  keeps_of_get {store : σ} {cache cache' : String} {key key' : CacheKey} {result : CachedResult} :
    Keeps (get store cache key).1 cache' key' result → Keeps store cache' key' result
  keeps_of_put {store : σ} {cache cache' : String} {key key' : CacheKey}
    {put_in result : CachedResult} : Keeps (put store cache key put_in).1 cache' key' result →
      (cache' = cache ∧ key' = key ∧ result = put_in) ∨ Keeps store cache' key' result
  keeps_of_evict {store : σ} {cache cache' : String} {key key' : CacheKey}
    {result : CachedResult} :
    Keeps (evict store cache key).1 cache' key' result → Keeps store cache' key' result

/-! ## Kinds of forgetful stores -/

instance {σ : Type u} [KeyedStore σ] : ForgetfulStore σ where
  Keeps store cache key result := KeyedStore.entry store cache key = some result
  keeps_of_found {store cache key _} found := by
    rw [KeyedStore.get_ok store cache key] at found
    exact Except.ok.inj found
  keeps_of_get {store cache _ key _ _} kept := by
    rw [KeyedStore.entry_get store cache key] at kept
    exact kept
  keeps_of_put {store cache cache' key key' put_in _} kept := by
    rw [KeyedStore.entry_put store cache key put_in] at kept
    by_cases there : cache' = cache ∧ key' = key
    · rw [if_pos there] at kept
      exact .inl ⟨there.1, there.2, (Option.some.inj kept).symm⟩
    · rw [if_neg there] at kept
      exact .inr kept
  keeps_of_evict {store cache cache' key key' _} kept := by
    rw [KeyedStore.entry_evict store cache key] at kept
    by_cases there : cache' = cache ∧ key' = key
    · rw [if_pos there] at kept
      cases kept
    · rw [if_neg there] at kept
      exact kept

namespace BoundedCache

/-- Making room puts nothing into a cache. -/
theorem get?_of_makeRoomFrom {bound : Nat} {index : Std.HashMap CacheKey CachedResult}
    {ages : List CacheKey} {key : CacheKey} {result : CachedResult}
    (kept : (makeRoomFrom bound index ages).1.get? key = some result) :
    index[key]? = some result := by
  induction ages generalizing index with
  | nil => exact kept
  | cons oldest rest ih =>
    unfold makeRoomFrom at kept
    split at kept
    · have left := ih kept
      rw [Std.HashMap.getElem?_erase] at left
      split at left
      · cases left
      · exact left
    · exact kept

/-- A cache returns what was put into it last, or what it returned before. -/
theorem get?_of_put {bound : Nat} {c : BoundedCache} {key key' : CacheKey}
    {put_in result : CachedResult} (kept : (c.put bound key put_in).1.get? key' = some result) :
    (key' = key ∧ result = put_in) ∨ c.get? key' = some result := by
  unfold put at kept
  split at kept
  all_goals
    dsimp only at kept
    rw [get?_insert] at kept
    split at kept
  · exact .inl ⟨‹_›, (Option.some.inj kept).symm⟩
  · exact .inr kept
  · exact .inl ⟨‹_›, (Option.some.inj kept).symm⟩
  · exact .inr (get?_of_makeRoomFrom kept)

/-- An eviction puts nothing into a cache. -/
theorem get?_of_evict {c : BoundedCache} {key key' : CacheKey} {result : CachedResult}
    (kept : (c.evict key).get? key' = some result) : c.get? key' = some result := by
  unfold evict at kept
  split at kept
  · rw [get?_erase] at kept
    split at kept
    · cases kept
    · exact kept
  · exact kept

end BoundedCache

namespace BoundedStore

instance : ForgetfulStore BoundedStore where
  Keeps store cache key result := (store.cache cache).get? key = some result
  keeps_of_found {store cache key _} found := by
    rw [← (store.get_eq cache key).1]
    exact Except.ok.inj found
  keeps_of_get {store cache cache' key _ _} kept := by
    have same : (store.get cache key).1.cache cache' = store.cache cache' := by
      unfold BoundedStore.cache
      rw [(store.get_eq cache key).2.1]
    rw [← same]
    exact kept
  keeps_of_put {store cache cache' key _ put_in _} kept := by
    have kept : ((store.put cache key put_in).cache cache').get? _ = some _ := kept
    rw [cache_put] at kept
    split at kept
    · rename_i same
      rw [same]
      exact (BoundedCache.get?_of_put kept).imp_left fun here => ⟨rfl, here⟩
    · exact .inr kept
  keeps_of_evict {store cache cache' key _ _} kept := by
    have kept : ((store.evict cache key).cache cache').get? _ = some _ := kept
    rw [cache_evict] at kept
    split at kept
    · rename_i same
      rw [same]
      exact BoundedCache.get?_of_evict kept
    · exact kept

end BoundedStore

namespace ScriptedStore

variable {σ : Type u}

/-- A call comes to nothing, or to what it does to the store behind. -/
theorem through_cases {α : Type} (s : ScriptedStore σ) (cache : String)
    (fault : Option ScriptedFault) (call : σ → σ × Except StoreFault α) :
    ((∃ f, (s.through cache fault call).2 = .error f) ∧
      (s.through cache fault call).1.inner = s.inner) ∨
    ((s.through cache fault call).2 = (call s.inner).2 ∧
      (s.through cache fault call).1.inner = (call s.inner).1) := by
  cases fault with
  | none => exact .inr ⟨rfl, rfl⟩
  | some f => exact .inl ⟨⟨_, rfl⟩, rfl⟩

instance [ForgetfulStore σ] : ForgetfulStore (ScriptedStore σ) where
  Keeps store := ForgetfulStore.Keeps store.inner
  keeps_of_found {store cache key _} found := by
    rcases through_cases { store with gets := store.gets.tail } cache (next store.gets)
      (ResultStore.get · cache key) with ⟨⟨f, failed⟩, -⟩ | ⟨answer, -⟩
    · cases found.symm.trans failed
    · exact ForgetfulStore.keeps_of_found (answer.symm.trans found)
  keeps_of_get {store cache _ key _ _} kept := by
    rcases through_cases { store with gets := store.gets.tail } cache (next store.gets)
      (ResultStore.get · cache key) with ⟨-, same⟩ | ⟨-, same⟩
    · exact same ▸ kept
    · exact ForgetfulStore.keeps_of_get (same ▸ kept)
  keeps_of_put {store cache _ key _ put_in _} kept := by
    rcases through_cases { store with puts := store.puts.tail } cache (next store.puts)
      (ResultStore.put · cache key put_in) with ⟨-, same⟩ | ⟨-, same⟩
    · exact .inr (same ▸ kept)
    · exact ForgetfulStore.keeps_of_put (same ▸ kept)
  keeps_of_evict {store cache _ key _ _} kept := by
    rcases through_cases { store with evicts := store.evicts.tail } cache (next store.evicts)
      (ResultStore.evict · cache key) with ⟨-, same⟩ | ⟨-, same⟩
    · exact same ▸ kept
    · exact ForgetfulStore.keeps_of_evict (same ▸ kept)

end ScriptedStore

/-- The key under which a result goes that was captured for an exact key. -/
def CachedResult.place (r : CachedResult) (exact_key : CacheKey) : CacheKey :=
  if r.isComplete then exact_key.withoutOrder else exact_key

namespace Watched

variable {σ : Type u} [ForgetfulStore σ] {w : Watched σ} {cache cache' : String}
  {key key' : CacheKey} {result kept_result : CachedResult} {keys : List CacheKey}

/-- A look-up may still return the result. -/
def Keeps (w : Watched σ) : String → CacheKey → CachedResult → Prop := ForgetfulStore.Keeps w.store

/-- A look-up puts nothing into a store. -/
theorem keeps_of_get {after : Watched σ} (look : (w.get cache key).1 = after)
    (kept : after.Keeps cache' key' kept_result) : w.Keeps cache' key' kept_result := by
  subst look
  exact ForgetfulStore.keeps_of_get kept

/-- A store returns what was put into it, or what it returned before. -/
theorem keeps_of_put {after : Watched σ} (put_in : (w.put cache key result).1 = after)
    (kept : after.Keeps cache' key' kept_result) :
    (cache' = cache ∧ key' = key ∧ kept_result = result) ∨ w.Keeps cache' key' kept_result := by
  subst put_in
  exact ForgetfulStore.keeps_of_put kept

/-- An eviction puts nothing into a store. -/
theorem keeps_of_evict (kept : (w.evict cache key).1.Keeps cache' key' kept_result) :
    w.Keeps cache' key' kept_result := by
  have kept : ForgetfulStore.Keeps (ResultStore.evict w.store cache key).1 cache' key'
      kept_result := kept
  exact ForgetfulStore.keeps_of_evict kept

/-- What is found when keys are looked up is kept under one of them. -/
theorem keeps_of_getFirst (found : (w.getFirst cache keys).2 = .ok (some (key, result))) :
    key ∈ keys ∧ w.Keeps cache key result := by
  induction keys generalizing w with
  | nil => cases found
  | cons first rest ih =>
    unfold getFirst at found
    split at found
    · obtain ⟨later, kept⟩ := ih found
      exact ⟨List.mem_cons_of_mem _ later, keeps_of_get (congrArg Prod.fst ‹_›) kept⟩
    · rename_i look
      cases found
      exact ⟨List.mem_cons_self, ForgetfulStore.keeps_of_found (congrArg Prod.snd look)⟩
    · cases found

/-- If something is found under a later key, then there was nothing under the first one. -/
theorem get_of_getFirst {first : CacheKey}
    (found : (w.getFirst cache (first :: keys)).2 = .ok (some (key, result))) :
    key = first ∨ key ∈ keys ∧ (ResultStore.get w.store cache first).2 = .ok none := by
  unfold getFirst at found
  split at found
  · rename_i look
    exact .inr ⟨(keeps_of_getFirst found).1, congrArg Prod.snd look⟩
  · cases found
    exact .inl rfl
  · cases found

/-- Looking up keys adds nothing. -/
theorem keeps_of_after_getFirst
    (kept : (w.getFirst cache keys).1.Keeps cache' key' kept_result) :
    w.Keeps cache' key' kept_result := by
  induction keys generalizing w with
  | nil => exact kept
  | cons first rest ih =>
    unfold getFirst at kept
    split at kept
    · exact keeps_of_get (congrArg Prod.fst ‹_›) (ih kept)
    · exact keeps_of_get (congrArg Prod.fst ‹_›) kept
    · exact keeps_of_get (congrArg Prod.fst ‹_›) kept

/-- Looking for a superior of a result adds nothing. -/
theorem keeps_of_findSuperior {after : Watched σ}
    (look : (w.findSuperior cache result keys).1 = after)
    (kept : after.Keeps cache' key' kept_result) : w.Keeps cache' key' kept_result := by
  subst look
  induction keys generalizing w with
  | nil => exact kept
  | cons first rest ih =>
    unfold findSuperior at kept
    split at kept
    · split at kept
      · exact keeps_of_get (congrArg Prod.fst ‹_›) (ih kept)
      · exact keeps_of_get (congrArg Prod.fst ‹_›) kept
    · exact keeps_of_get (congrArg Prod.fst ‹_›) (ih kept)

/-- A deposit adds its result, under the key at which it belongs, and nothing else. -/
theorem keeps_of_deposit
    (kept : (w.deposit cache key result).Keeps cache' key' kept_result) :
    (cache' = cache ∧ key' = result.place key ∧ kept_result = result) ∨
      w.Keeps cache' key' kept_result := by
  unfold deposit at kept
  cases complete : result.isComplete with
  | true =>
    rw [complete, if_pos rfl, depositComplete] at kept
    rw [CachedResult.place, if_pos complete]
    split at kept
    · exact keeps_of_put (congrArg Prod.fst ‹_›) kept
    · split at kept
      · exact keeps_of_put (congrArg Prod.fst ‹_›) kept
      · exact keeps_of_put (congrArg Prod.fst ‹_›) (keeps_of_evict kept)
  | false =>
    have bounded : ¬result.isComplete = true := by rw [complete]; exact Bool.false_ne_true
    rw [if_neg bounded, depositBounded] at kept
    rw [CachedResult.place, if_neg bounded]
    split at kept
    · exact .inr (keeps_of_findSuperior (congrArg Prod.fst ‹_›) kept)
    · rcases keeps_of_put rfl kept with here | before
      · exact .inl here
      · exact .inr (keeps_of_findSuperior (congrArg Prod.fst ‹_›) before)

end Watched

end DataService
