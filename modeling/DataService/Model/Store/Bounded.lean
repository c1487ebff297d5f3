import DataService.Model.Store.Interface
import DataService.Model.Table
import Std.Data.HashMap

/-!
# The bounded store

A store in memory that keeps a limited number of results in each cache. Every cache has an index of
its results and a queue of their keys by age: a new key first drops the oldest ones until there is
room, a key that is already there keeps its age. The store keeps books on hits, misses and the
entries that fell to the bound.
-/

set_option autoImplicit false

namespace DataService

/-- The results of one cache. -/
structure BoundedCache where
  index : Std.HashMap CacheKey CachedResult := ∅
  /-- The keys of the index, oldest first. -/
  ages : List CacheKey := []
  deriving Inhabited

namespace BoundedCache

/-- The number of results. -/
def size (c : BoundedCache) : Nat := c.index.size

/-- The result under a key. -/
def get? (c : BoundedCache) (key : CacheKey) : Option CachedResult := c.index[key]?

/-- Drops the oldest results until there is room for one more under the bound; the second part is
the number of results dropped. The keys are given apart, oldest first. -/
def makeRoomFrom (bound : Nat) (index : Std.HashMap CacheKey CachedResult) :
    List CacheKey → BoundedCache × Nat
  | [] => (⟨index, []⟩, 0)
  | oldest :: rest =>
    if bound ≤ index.size then
      let (c, dropped) := makeRoomFrom bound (index.erase oldest) rest
      (c, dropped + 1)
    else (⟨index, oldest :: rest⟩, 0)

/-- Drops the oldest results until there is room for one more under the bound. -/
def makeRoom (bound : Nat) (c : BoundedCache) : BoundedCache × Nat :=
  makeRoomFrom bound c.index c.ages

/-- Keeps a result; the second part is the number of results that had to go for it. -/
def put (bound : Nat) (c : BoundedCache) (key : CacheKey) (result : CachedResult) :
    BoundedCache × Nat :=
  if c.index.contains key then (⟨c.index.insert key result, c.ages⟩, 0)
  else
    let (c', dropped) := c.makeRoom bound
    (⟨c'.index.insert key result, c'.ages ++ [key]⟩, dropped)

/-- Drops the result under a key. -/
def evict (c : BoundedCache) (key : CacheKey) : BoundedCache :=
  if c.index.contains key then ⟨c.index.erase key, c.ages.filter (· ≠ key)⟩ else c

end BoundedCache

/-- The books of a store. -/
structure StoreStats where
  hits : Nat
  misses : Nat
  /-- The results dropped to keep within the bound. -/
  evictions : Nat
  /-- The results in all caches. -/
  entryCount : Nat
  deriving DecidableEq, Repr

/-- The share of look-ups that found a result; zero before the first look-up. -/
def StoreStats.hitRate (s : StoreStats) : Float :=
  if s.hits + s.misses = 0 then 0.0 else s.hits.toFloat / (s.hits + s.misses).toFloat

/-- A store that bounds the number of results in each of its caches. -/
structure BoundedStore where
  /-- No cache holds more results than this. -/
  bound : Nat
  caches : Table String BoundedCache := .empty
  hits : Nat := 0
  misses : Nat := 0
  evictions : Nat := 0
  deriving Inhabited

namespace BoundedStore

/-- An empty store. There is room for one result at least. -/
def ofBound (bound : Nat) : BoundedStore := { bound := max 1 bound }

/-- The results of a cache; a cache that was never written to is empty. -/
def cache (s : BoundedStore) (name : String) : BoundedCache := (s.caches.get? name).getD {}

/-- The number of results in a cache. -/
def size (s : BoundedStore) (name : String) : Nat := (s.cache name).size

/-- Drops all results of a cache. -/
def clear (s : BoundedStore) (name : String) : BoundedStore :=
  { s with caches := s.caches.erase name }

/-- The books. -/
def stats (s : BoundedStore) : StoreStats :=
  { hits := s.hits
    misses := s.misses
    evictions := s.evictions
    entryCount := s.caches.total BoundedCache.size }

/-- Looks up a result, and books a hit or a miss. -/
def get (s : BoundedStore) (name : String) (key : CacheKey) :
    BoundedStore × Option CachedResult :=
  match (s.cache name).get? key with
  | some result => ({ s with hits := s.hits + 1 }, some result)
  | none => ({ s with misses := s.misses + 1 }, none)

/-- Keeps a result. -/
def put (s : BoundedStore) (name : String) (key : CacheKey) (result : CachedResult) :
    BoundedStore :=
  let (c, dropped) := (s.cache name).put s.bound key result
  { s with caches := s.caches.put name c, evictions := s.evictions + dropped }

/-- Drops the result under a key. -/
def evict (s : BoundedStore) (name : String) (key : CacheKey) : BoundedStore :=
  { s with caches := s.caches.modify name (·.evict key) }

instance : ResultStore BoundedStore where
  get s name key := ((s.get name key).1, .ok (s.get name key).2)
  put s name key result := (s.put name key result, .ok ())
  evict s name key := (s.evict name key, .ok ())

end BoundedStore

end DataService
