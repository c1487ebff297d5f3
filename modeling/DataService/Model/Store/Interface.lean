import DataService.Model.Cache.Key
import DataService.Model.Cache.Result

/-!
# Result stores

A result store keeps results under keys, in caches that go by name. Every call may fail, and every
call may change the store, if only its books. `ResultStore` says what a type has to offer to be
used as a store, and `Watched` adds to any store the list of the calls made on it, so that what a
service did to its store is part of the outcome.
-/

set_option autoImplicit false

namespace DataService

universe u

/-- The types whose values can be used as result stores. -/
class ResultStore (σ : Type u) where
  /-- Looks up a result. -/
  get (store : σ) (cache : String) (key : CacheKey) : σ × Except StoreFault (Option CachedResult)
  /-- Keeps a result, in the place of an older one under the same key. -/
  put (store : σ) (cache : String) (key : CacheKey) (result : CachedResult) :
    σ × Except StoreFault Unit
  /-- Drops the result under a key. -/
  evict (store : σ) (cache : String) (key : CacheKey) : σ × Except StoreFault Unit

/-- The three calls on a store. -/
inductive StoreOperation where
  | get
  | put
  | evict
  deriving DecidableEq, Repr

/-- The name of a call. -/
def StoreOperation.name : StoreOperation → String
  | .get => "get"
  | .put => "put"
  | .evict => "evict"

/-- A call made on a store, and how it failed if it did. -/
structure StoreCall where
  operation : StoreOperation
  cache : String
  key : CacheKey
  fault : Option StoreFault
  deriving DecidableEq

/-- A store and the calls made on it, the first call first. -/
structure Watched (σ : Type u) where
  store : σ
  calls : List StoreCall := []

namespace Watched

variable {σ : Type u} [ResultStore σ]

/-- How a call failed. -/
def faultOf {α : Type} : Except StoreFault α → Option StoreFault
  | .error fault => some fault
  | .ok _ => none

omit [ResultStore σ] in
/-- The store after a call, with the call noted down. -/
def note {α : Type} (w : Watched σ) (operation : StoreOperation) (cache : String) (key : CacheKey)
    (after : σ × Except StoreFault α) : Watched σ × Except StoreFault α :=
  (⟨after.1, w.calls ++ [⟨operation, cache, key, faultOf after.2⟩]⟩, after.2)

/-- Looks up a result. -/
def get (w : Watched σ) (cache : String) (key : CacheKey) :
    Watched σ × Except StoreFault (Option CachedResult) :=
  w.note .get cache key (ResultStore.get w.store cache key)

/-- Keeps a result. -/
def put (w : Watched σ) (cache : String) (key : CacheKey) (result : CachedResult) :
    Watched σ × Except StoreFault Unit :=
  w.note .put cache key (ResultStore.put w.store cache key result)

/-- Drops a result. -/
def evict (w : Watched σ) (cache : String) (key : CacheKey) : Watched σ × Except StoreFault Unit :=
  w.note .evict cache key (ResultStore.evict w.store cache key)

/-- Looks the keys up in order, up to the first that has a result or whose look-up fails. -/
def getFirst (w : Watched σ) (cache : String) :
    List CacheKey → Watched σ × Except StoreFault (Option (CacheKey × CachedResult))
  | [] => (w, .ok none)
  | key :: rest =>
    match w.get cache key with
    | (w', .ok none) => w'.getFirst cache rest
    | (w', .ok (some result)) => (w', .ok (some (key, result)))
    | (w', .error fault) => (w', .error fault)

end Watched

end DataService
