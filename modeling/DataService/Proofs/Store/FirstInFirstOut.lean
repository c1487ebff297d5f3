import DataService.Model.Service.Lookup
import DataService.Model.Store.Bounded

/-!
# The bounded store is first in, first out

A cache of a bounded store has an index and a queue that every request has to keep in step. What
the two come to is one list of results by age, and a request does to this list what it says: a
result under a key that is present takes the place of the older one, a new one drops the oldest
results until there is room and becomes the youngest (`AgedCache.keep`).

`BoundedCache.Holds` relates a cache to its list. `Holds.put` and `Holds.evict` say that writes
keep them related, `Refines.serve` says so of every request on a store with several caches, and
`refines_after` of any number of requests.
-/

set_option autoImplicit false

namespace DataService

/-! ## Lists of results by age -/

/-- The results of a cache under their keys, the oldest first. -/
abbrev AgedCache := Table CacheKey CachedResult

namespace AgedCache

/-- Drops the oldest results until there is room for one more under a bound. -/
def makeRoom (bound : Nat) (t : AgedCache) : AgedCache := ⟨t.entries.drop (t.size + 1 - bound)⟩

/-- Adds a result as the youngest. -/
def append (t : AgedCache) (key : CacheKey) (result : CachedResult) : AgedCache :=
  ⟨t.entries ++ [(key, result)]⟩

/-- Keeps a result within a bound. A key that is present keeps its age; for a new one there has to
be room. -/
def keep (bound : Nat) (t : AgedCache) (key : CacheKey) (result : CachedResult) : AgedCache :=
  if t.contains key then t.put key result else (makeRoom bound t).append key result

variable {t : AgedCache} {key : CacheKey}

/-- There are as many results as keys. -/
theorem size_eq_length_keys (t : AgedCache) : t.size = t.keys.length := by
  simp [Table.size, Table.keys]

/-- A result that takes the place of an older one leaves as many as before. -/
theorem size_put (present : t.contains key = true) (result : CachedResult) :
    (t.put key result).size = t.size := by
  have among := (t.contains_iff_mem_keys key).1 present
  rw [size_eq_length_keys, t.keys_put_of_mem result among, ← size_eq_length_keys]

/-- One result less is there when that of a key is taken out. -/
theorem size_erase (nodup : t.keys.Nodup) (present : t.contains key = true) :
    (t.erase key).size = t.size - 1 := by
  have among := (t.contains_iff_mem_keys key).1 present
  have keys_eq : (t.erase key).keys = t.keys.erase key := by
    rw [t.keys_erase, nodup.erase_eq_filter]
    exact List.filter_congr fun j _ => by simp [bne, Bool.beq_comm (a := key)]
  rw [size_eq_length_keys, keys_eq, List.length_erase_of_mem among, ← size_eq_length_keys]

/-- To take out a key adds no result, whether it is there or not. -/
theorem size_erase_le (t : AgedCache) (key : CacheKey) : (t.erase key).size ≤ t.size :=
  List.length_filter_le _ _

/-- Nothing is found under a key that is not there. -/
theorem get?_eq_none_of_notMem (absent : key ∉ t.keys) : t.get? key = none := by
  rw [← Option.not_isSome_iff_eq_none]
  exact mt (t.contains_iff_mem_keys key).1 absent

/-- The key of the youngest result comes last. -/
theorem keys_append (t : AgedCache) (key : CacheKey) (result : CachedResult) :
    (t.append key result).keys = t.keys ++ [key] := List.map_append

/-- Under a new key the youngest result is found, and under the others what was there. -/
theorem get?_append (absent : key ∉ t.keys) (result : CachedResult) (key' : CacheKey) :
    (t.append key result).get? key' = if key' = key then some result else t.get? key' := by
  have both : (t.append key result).get? key' =
      (t.get? key').or (if key' == key then some result else none) := by
    unfold Table.get? append
    rw [List.lookup_append, List.lookup_cons, List.lookup_nil]
    cases key' == key <;> rfl
  rw [both]
  by_cases same : key' = key
  · rw [if_pos same, if_pos (beq_iff_eq.2 same), same, get?_eq_none_of_notMem absent, Option.none_or]
  · rw [if_neg same, if_neg (mt beq_iff_eq.1 same), Option.or_none]

/-- The youngest result is one more. -/
theorem size_append (t : AgedCache) (key : CacheKey) (result : CachedResult) :
    (t.append key result).size = t.size + 1 := by
  simp [append, Table.size]

/-- To make room is to drop keys from the front, as many as there are too many. -/
theorem keys_makeRoom (bound : Nat) (t : AgedCache) :
    (makeRoom bound t).keys = t.keys.drop (t.size + 1 - bound) := List.map_drop

/-- The results never come to be more than the bound. -/
theorem size_keep_le {bound : Nat} (room : 0 < bound) (within : t.size ≤ bound) (key : CacheKey)
    (result : CachedResult) : (keep bound t key result).size ≤ bound := by
  unfold keep
  by_cases present : t.contains key = true
  · rw [if_pos present, size_put present]
    exact within
  · rw [if_neg present, size_append, size_eq_length_keys, keys_makeRoom, List.length_drop,
      ← size_eq_length_keys]
    omega

end AgedCache

/-! ## One cache -/

namespace BoundedCache

/-- An entry of the index is found under its key, whatever the queue holds. -/
theorem get?_insert (c : BoundedCache) (ages : List CacheKey) (key : CacheKey)
    (result : CachedResult) (key' : CacheKey) :
    (⟨c.index.insert key result, ages⟩ : BoundedCache).get? key' =
      if key' = key then some result else c.get? key' := by
  unfold get?
  simp only [Std.HashMap.getElem?_insert, beq_iff_eq, eq_comm (a := key)]

/-- An entry that is taken out of the index is gone, and no other one. -/
theorem get?_erase (c : BoundedCache) (ages : List CacheKey) (key key' : CacheKey) :
    (⟨c.index.erase key, ages⟩ : BoundedCache).get? key' =
      if key' = key then none else c.get? key' := by
  unfold get?
  simp only [Std.HashMap.getElem?_erase, beq_iff_eq, eq_comm (a := key)]

/-- The cache holds the results of a list by age: its queue has the keys in their order, each of
them once, and its index has the results. -/
structure Holds (c : BoundedCache) (t : AgedCache) : Prop where
  ages_eq : c.ages = t.keys
  nodup : t.keys.Nodup
  get?_eq : ∀ key, c.get? key = t.get? key
  size_eq : c.size = t.size

variable {c : BoundedCache} {t : AgedCache} {key : CacheKey}

/-- An empty cache holds no results. -/
theorem holds_empty : Holds {} .empty :=
  ⟨rfl, List.nodup_nil, fun _ => Std.HashMap.getElem?_empty, Std.HashMap.size_empty⟩

/-- The index knows just the keys of the list. -/
theorem Holds.contains_eq (h : c.Holds t) (key : CacheKey) :
    c.index.contains key = t.contains key := by
  rw [Std.HashMap.contains_eq_isSome_getElem?]
  exact congrArg Option.isSome (h.get?_eq key)

/-- A key is in the index if it is in the list. -/
theorem Holds.mem_index_iff (h : c.Holds t) (key : CacheKey) :
    key ∈ c.index ↔ t.contains key = true := by
  rw [← Std.HashMap.contains_iff_mem, h.contains_eq]

/-- The queue has exactly the keys of the index. -/
theorem Holds.mem_ages_iff (h : c.Holds t) (key : CacheKey) :
    key ∈ c.ages ↔ (c.get? key).isSome = true := by
  rw [h.ages_eq, h.get?_eq]
  exact (t.contains_iff_mem_keys key).symm

/-- A result that takes the place of an older one leaves the queue as it is, in the cache as in the
list. -/
theorem Holds.replace (h : c.Holds t) (present : t.contains key = true) (result : CachedResult) :
    Holds ⟨c.index.insert key result, c.ages⟩ (t.put key result) := by
  have keys_eq := t.keys_put_of_mem result ((t.contains_iff_mem_keys key).1 present)
  refine ⟨h.ages_eq.trans keys_eq.symm, ?_, ?_, ?_⟩
  · rw [keys_eq]
    exact h.nodup
  · intro key'
    rw [get?_insert, Table.get?_put, h.get?_eq]
    simp only [beq_iff_eq]
  · rw [AgedCache.size_put present, ← h.size_eq]
    unfold size
    rw [Std.HashMap.size_insert, if_pos ((h.mem_index_iff key).2 present)]

/-- A result under a new key goes to the end of the queue, in the cache as in the list. -/
theorem Holds.append (h : c.Holds t) (absent : key ∉ t.keys) (result : CachedResult) :
    Holds ⟨c.index.insert key result, c.ages ++ [key]⟩ (t.append key result) := by
  refine ⟨?_, ?_, ?_, ?_⟩
  · rw [t.keys_append, h.ages_eq]
  · rw [t.keys_append, List.nodup_append]
    refine ⟨h.nodup, List.pairwise_singleton _ key, ?_⟩
    rintro j among _ last rfl
    rw [List.mem_singleton.1 last] at among
    exact absent among
  · intro key'
    rw [get?_insert, AgedCache.get?_append absent, h.get?_eq]
  · rw [t.size_append, ← h.size_eq]
    have not_in_index : key ∉ c.index := by
      rw [h.mem_index_iff, t.contains_iff_mem_keys]
      exact absent
    unfold size
    rw [Std.HashMap.size_insert, if_neg not_in_index]

/-- A result that is dropped leaves the others as they were, in the index. -/
theorem Holds.erase (h : c.Holds t) (present : t.contains key = true) {ages : List CacheKey}
    (ages_eq : ages = (t.erase key).keys) :
    Holds ⟨c.index.erase key, ages⟩ (t.erase key) := by
  refine ⟨ages_eq, ?_, ?_, ?_⟩
  · rw [t.keys_erase]
    exact h.nodup.filter _
  · intro key'
    rw [get?_erase, Table.get?_erase, h.get?_eq]
    simp only [beq_iff_eq]
  · rw [AgedCache.size_erase h.nodup present, ← h.size_eq]
    unfold size
    rw [Std.HashMap.size_erase, if_pos ((h.mem_index_iff key).2 present)]

/-- A cache that makes room is left with the youngest results. -/
theorem Holds.makeRoom (h : c.Holds t) (bound : Nat) :
    (c.makeRoom bound).1.Holds (AgedCache.makeRoom bound t) := by
  unfold BoundedCache.makeRoom AgedCache.makeRoom
  obtain ⟨index, ages⟩ := c
  obtain ⟨entries⟩ := t
  obtain rfl : ages = entries.map (·.1) := h.ages_eq
  -- along the queue: as long as the cache is full its oldest result goes
  induction entries generalizing index with
  | nil =>
    rw [List.drop_nil]
    exact h
  | cons oldest rest ih =>
    have index_size : index.size = rest.length + 1 := h.size_eq
    have list_size : (⟨oldest :: rest⟩ : AgedCache).size = rest.length + 1 := rfl
    rw [List.map_cons, makeRoomFrom, index_size, list_size]
    by_cases full : bound ≤ rest.length + 1
    · have count : rest.length + 1 + 1 - bound = (rest.length + 1 - bound) + 1 := by omega
      rw [if_pos full, count, List.drop_succ_cons]
      have first : (⟨oldest :: rest⟩ : AgedCache).contains oldest.1 = true :=
        (Table.contains_iff_mem_keys _ _).2 List.mem_cons_self
      have others : (⟨oldest :: rest⟩ : AgedCache).erase oldest.1 = ⟨rest⟩ := by
        obtain ⟨fresh, -⟩ := List.nodup_cons.1 h.nodup
        have rest_kept := Table.erase_of_notMem (t := ⟨rest⟩) fresh
        rw [← rest_kept]
        unfold Table.erase
        rw [List.filter_cons_of_neg (by simp)]
      have gone := h.erase first rfl
      rw [others] at gone
      exact ih (index.erase oldest.1) gone
    · have count : rest.length + 1 + 1 - bound = 0 := by omega
      rw [if_neg full, count, List.drop_zero]
      exact h

/-- A result that is put takes its place in the list. -/
theorem Holds.put (h : c.Holds t) (bound : Nat) (key : CacheKey) (result : CachedResult) :
    (c.put bound key result).1.Holds (AgedCache.keep bound t key result) := by
  unfold BoundedCache.put AgedCache.keep
  rw [h.contains_eq]
  by_cases present : t.contains key = true
  · rw [if_pos present, if_pos present]
    exact h.replace present result
  · rw [if_neg present, if_neg present]
    refine (h.makeRoom bound).append ?_ result
    intro among
    rw [AgedCache.keys_makeRoom] at among
    exact present ((t.contains_iff_mem_keys key).2 (List.mem_of_mem_drop among))

/-- There is nothing to take out of an empty cache. -/
theorem evict_empty {key : CacheKey} : ({} : BoundedCache).evict key = {} := by
  unfold BoundedCache.evict
  rw [Std.HashMap.contains_empty, if_neg Bool.false_ne_true]

/-- A result that is dropped leaves the others as they were. -/
theorem Holds.evict (h : c.Holds t) (key : CacheKey) : (c.evict key).Holds (t.erase key) := by
  unfold BoundedCache.evict
  rw [h.contains_eq]
  by_cases present : t.contains key = true
  · rw [if_pos present]
    refine h.erase present ?_
    rw [t.keys_erase, h.ages_eq]
    refine List.filter_congr fun j _ => ?_
    by_cases same : j = key
    · simp [same]
    · simp [same, Ne.symm same]
  · rw [if_neg present, Table.erase_of_notMem (mt (t.contains_iff_mem_keys key).2 present)]
    exact h

end BoundedCache

/-! ## Requests on a store -/

/-- A request that a store answers. -/
inductive StoreRequest where
  | put (cache : String) (key : CacheKey) (result : CachedResult)
  | get (cache : String) (key : CacheKey)
  /-- Looks the keys up in order, up to the first that has a result. -/
  | getFirst (cache : String) (keys : List CacheKey)
  | evict (cache : String) (key : CacheKey)
  | clear (cache : String)

namespace StoreRequest

/-- The cache that a request is about. -/
def cache : StoreRequest → String
  | .put cache .. | .get cache _ | .getFirst cache _ | .evict cache _ | .clear cache => cache

/-- The request only reads. -/
def isRead : StoreRequest → Bool
  | .get .. | .getFirst .. => true
  | .put .. | .evict .. | .clear _ => false

end StoreRequest

/-- The lists of results by age of all caches, under their names. -/
abbrev AgedCaches := String → AgedCache

namespace AgedCaches

/-- Changes the list of one cache. -/
def set (m : AgedCaches) (name : String) (t : AgedCache) : AgedCaches :=
  fun name' => if name' = name then t else m name'

/-- What a request makes of the lists of a store with a bound, and the entry that it finds. -/
def serve (bound : Nat) (m : AgedCaches) :
    StoreRequest → AgedCaches × Option (CacheKey × CachedResult)
  | .put name key result => (m.set name (AgedCache.keep bound (m name) key result), none)
  | .get name key => (m, ((m name).get? key).map (key, ·))
  | .getFirst name keys => (m, keys.findSome? fun key => ((m name).get? key).map (key, ·))
  | .evict name key => (m.set name ((m name).erase key), none)
  | .clear name => (m.set name .empty, none)

/-- The lists of a store with a bound after requests, one after the other. -/
def after (bound : Nat) (requests : List StoreRequest) : AgedCaches :=
  requests.foldl (fun m request => (m.serve bound request).1) fun _ => .empty

end AgedCaches

namespace BoundedStore

/-- What a request makes of a store, and the entry that it finds. -/
def serve (s : BoundedStore) : StoreRequest → BoundedStore × Option (CacheKey × CachedResult)
  | .put name key result => (s.put name key result, none)
  | .get name key => ((s.get name key).1, (s.get name key).2.map (key, ·))
  | .getFirst name keys =>
    let (w, found) := (Watched.mk s []).getFirst name keys
    (w.store, entryOf found)
  | .evict name key => (s.evict name key, none)
  | .clear name => (s.clear name, none)

/-- The store after requests, one after the other. -/
def after (s : BoundedStore) (requests : List StoreRequest) : BoundedStore :=
  requests.foldl (fun s request => (s.serve request).1) s

/-! ### Caches after a call -/

/-- A put concerns the cache of its name and no other one. -/
theorem cache_put (s : BoundedStore) (name : String) (key : CacheKey) (result : CachedResult)
    (name' : String) :
    (s.put name key result).cache name' =
      if name' = name then ((s.cache name).put s.bound key result).1 else s.cache name' := by
  unfold cache put
  simp only [Table.get?_put, beq_iff_eq]
  split <;> rfl

/-- An eviction concerns the cache of its name and no other one. -/
theorem cache_evict (s : BoundedStore) (name : String) (key : CacheKey) (name' : String) :
    (s.evict name key).cache name' =
      if name' = name then (s.cache name).evict key else s.cache name' := by
  unfold cache evict
  simp only [Table.get?_modify, beq_iff_eq]
  split
  · rename_i same
    rw [same]
    cases s.caches.get? name with
    | none => exact BoundedCache.evict_empty.symm
    | some c => rfl
  · rfl

/-- To clear a cache concerns that cache and no other one. -/
theorem cache_clear (s : BoundedStore) (name name' : String) :
    (s.clear name).cache name' = if name' = name then {} else s.cache name' := by
  unfold cache clear
  simp only [Table.get?_erase, beq_iff_eq]
  split <;> rfl

/-- Looking up a result changes the books alone. -/
theorem get_eq (s : BoundedStore) (name : String) (key : CacheKey) :
    (s.get name key).2 = (s.cache name).get? key ∧ (s.get name key).1.caches = s.caches ∧
      (s.get name key).1.bound = s.bound := by
  unfold get
  cases (s.cache name).get? key with
  | none => exact ⟨rfl, rfl, rfl⟩
  | some result => exact ⟨rfl, rfl, rfl⟩

/-- Looking through keys finds the first one that has a result, and changes the books alone. -/
theorem getFirst_eq (w : Watched BoundedStore) (name : String) (keys : List CacheKey) :
    entryOf (w.getFirst name keys).2 =
        (keys.findSome? fun key => ((w.store.cache name).get? key).map (key, ·)) ∧
      (w.getFirst name keys).1.store.caches = w.store.caches ∧
      (w.getFirst name keys).1.store.bound = w.store.bound := by
  induction keys generalizing w with
  | nil => exact ⟨rfl, rfl, rfl⟩
  | cons key rest ih =>
    obtain ⟨found, same_caches, same_bound⟩ := w.store.get_eq name key
    have look : w.get name key = ((w.get name key).1, .ok ((w.store.cache name).get? key)) :=
      Prod.ext rfl (congrArg Except.ok found)
    have same_cache : (w.get name key).1.store.cache name = w.store.cache name := by
      unfold cache
      exact congrArg (fun caches => (caches.get? name).getD {}) same_caches
    rw [Watched.getFirst, look, List.findSome?_cons]
    cases here : (w.store.cache name).get? key with
    | some result => exact ⟨rfl, same_caches, same_bound⟩
    | none =>
      obtain ⟨found', same_caches', same_bound'⟩ := ih (w.get name key).1
      rw [same_cache] at found'
      exact ⟨found', same_caches'.trans same_caches, same_bound'.trans same_bound⟩

/-- A read leaves every cache as it is. -/
theorem cache_serve_of_isRead (s : BoundedStore) {request : StoreRequest}
    (reads : request.isRead = true) (name : String) :
    (s.serve request).1.cache name = s.cache name := by
  have of_caches {s' : BoundedStore} (same : s'.caches = s.caches) :
      s'.cache name = s.cache name := by
    unfold cache
    rw [same]
  cases request with
  | get name' key => exact of_caches (s.get_eq name' key).2.1
  | getFirst name' keys => exact of_caches (getFirst_eq ⟨s, []⟩ name' keys).2.1
  | put | evict | clear => cases reads

/-- A request leaves the caches as they are that it is not about. -/
theorem cache_serve_of_ne (s : BoundedStore) (request : StoreRequest) {name : String}
    (other : name ≠ request.cache) : (s.serve request).1.cache name = s.cache name := by
  cases request with
  | put name' key result => exact (s.cache_put name' key result name).trans (if_neg other)
  | get | getFirst => exact s.cache_serve_of_isRead rfl name
  | evict name' key => exact (s.cache_evict name' key name).trans (if_neg other)
  | clear name' => exact (s.cache_clear name' name).trans (if_neg other)

/-! ### Refinement -/

/-- The store has the bound, and its caches hold the results of lists that keep to it. -/
structure Refines (s : BoundedStore) (bound : Nat) (m : AgedCaches) : Prop where
  bound_eq : s.bound = bound
  holds : ∀ name, (s.cache name).Holds (m name)
  within : ∀ name, (m name).size ≤ bound

variable {s : BoundedStore} {bound : Nat} {m : AgedCaches}

/-- A new store holds no results; its bound is one at least. -/
theorem refines_empty (bound : Nat) :
    (ofBound bound).Refines (max 1 bound) fun _ => .empty :=
  ⟨rfl, fun _ => BoundedCache.holds_empty, fun _ => Nat.zero_le _⟩

/-- Counters and statistics are none of what a store has in common with its lists. -/
theorem Refines.of_caches_eq (h : s.Refines bound m) {s' : BoundedStore}
    (caches_eq : s'.caches = s.caches) (bound_eq : s'.bound = s.bound) : s'.Refines bound m := by
  refine ⟨bound_eq.trans h.bound_eq, ?_, h.within⟩
  intro name
  unfold cache
  rw [caches_eq]
  exact h.holds name

/-- It is enough to look at the cache that changed. -/
theorem Refines.set (h : s.Refines bound m) {s' : BoundedStore} {name : String}
    {c : BoundedCache} {t : AgedCache} (bound_eq : s'.bound = s.bound)
    (caches : ∀ name', s'.cache name' = if name' = name then c else s.cache name')
    (holds : c.Holds t) (within : t.size ≤ bound) : s'.Refines bound (m.set name t) := by
  refine ⟨bound_eq.trans h.bound_eq, ?_, ?_⟩
  · intro name'
    rw [caches]
    unfold AgedCaches.set
    split
    · exact holds
    · exact h.holds name'
  · intro name'
    unfold AgedCaches.set
    split
    · exact within
    · exact h.within name'

/-- A store answers a request as its lists do, and changes like them. -/
theorem Refines.serve (h : s.Refines bound m) (room : 0 < bound) (request : StoreRequest) :
    (s.serve request).1.Refines bound (m.serve bound request).1 ∧
      (s.serve request).2 = (m.serve bound request).2 := by
  cases request with
  | put name key result =>
    refine ⟨h.set rfl (s.cache_put name key result) ?_ ?_, rfl⟩
    · rw [h.bound_eq]
      exact (h.holds name).put bound key result
    · exact AgedCache.size_keep_le room (h.within name) key result
  | get name key =>
    obtain ⟨found, same_caches, same_bound⟩ := s.get_eq name key
    refine ⟨h.of_caches_eq same_caches same_bound, ?_⟩
    show (s.get name key).2.map _ = ((m name).get? key).map _
    rw [found, (h.holds name).get?_eq]
  | getFirst name keys =>
    obtain ⟨found, same_caches, same_bound⟩ := getFirst_eq ⟨s, []⟩ name keys
    refine ⟨h.of_caches_eq same_caches same_bound, found.trans ?_⟩
    show keys.findSome? _ = keys.findSome? _
    simp only [(h.holds name).get?_eq]
  | evict name key =>
    refine ⟨h.set rfl (s.cache_evict name key) ((h.holds name).evict key) ?_, rfl⟩
    exact Nat.le_trans (AgedCache.size_erase_le (m name) key) (h.within name)
  | clear name =>
    exact ⟨h.set rfl (s.cache_clear name) BoundedCache.holds_empty (Nat.zero_le _), rfl⟩

/-- A store that answers requests one after the other changes like its lists. -/
theorem refines_after (bound : Nat) (requests : List StoreRequest) :
    ((ofBound bound).after requests).Refines (max 1 bound)
      (AgedCaches.after (max 1 bound) requests) := by
  have room : 0 < max 1 bound := Nat.lt_of_lt_of_le Nat.one_pos (Nat.le_max_left 1 bound)
  have along (s : BoundedStore) (m : AgedCaches) (h : s.Refines (max 1 bound) m) :
      (s.after requests).Refines (max 1 bound)
        (requests.foldl (fun m request => (m.serve (max 1 bound) request).1) m) := by
    induction requests generalizing s m with
    | nil => exact h
    | cons request rest ih => exact ih _ _ (h.serve room request).1
  exact along _ _ (refines_empty bound)

/-- **The bounded store is first in, first out.** Whatever its bound and whatever was asked of it, the
queue of each cache lists the keys of its entries without repetition, there are no more of them than
the bound allows, and the entries and their ages are those of the list by age. The store answers
every further request as the lists do; a read changes no cache, and a request changes no other cache
than its own. -/
theorem answers_like_aged_caches (bound : Nat) (requests : List StoreRequest) :
    let s := (ofBound bound).after requests
    let m := AgedCaches.after (max 1 bound) requests
    (∀ name, (s.cache name).ages.Nodup ∧
      (∀ key, key ∈ (s.cache name).ages ↔ ((s.cache name).get? key).isSome = true) ∧
      s.size name ≤ max 1 bound ∧
      (s.cache name).ages = (m name).keys ∧
      ∀ key, (s.cache name).get? key = (m name).get? key) ∧
    ∀ request, (s.serve request).2 = (m.serve (max 1 bound) request).2 ∧
      (request.isRead = true → ∀ name, (s.serve request).1.cache name = s.cache name) ∧
      ∀ name, name ≠ request.cache → (s.serve request).1.cache name = s.cache name := by
  intro s m
  have refines := refines_after bound requests
  have room : 0 < max 1 bound := Nat.lt_of_lt_of_le Nat.one_pos (Nat.le_max_left 1 bound)
  refine ⟨?_, ?_⟩
  · intro name
    have holds := refines.holds name
    refine ⟨?_, holds.mem_ages_iff, ?_, holds.ages_eq, holds.get?_eq⟩
    · rw [holds.ages_eq]
      exact holds.nodup
    · exact Nat.le_trans (Nat.le_of_eq holds.size_eq) (refines.within name)
  · intro request
    exact ⟨(refines.serve room request).2, s.cache_serve_of_isRead,
      fun name => s.cache_serve_of_ne request⟩

/-- A key that is put again keeps its age: with room for two, the first of three keys is the one to
go, although its result is younger than that of the second. -/
theorem answers_like_aged_caches_put_again :
    let key (version : UInt64) : CacheKey := { pipelineVersion := version }
    let old : CachedResult := .complete []
    let new : CachedResult := .ofRanks [] (some 3) none
    let s := (ofBound 2).after
      [.put "a" (key 1) old, .put "a" (key 2) old, .put "b" (key 1) old, .put "a" (key 1) new,
        .put "a" (key 3) new]
    (s.cache "a").ages = [key 2, key 3] ∧
      (s.serve (.getFirst "a" [key 1, key 3])).2 = some (key 3, new) ∧
      (s.serve (.get "a" (key 2))).1.cache "a" = s.cache "a" ∧
      (s.serve (.put "a" (key 4) new)).1.cache "b" = s.cache "b" := by
  intro key old new s
  obtain ⟨caches, requests⟩ := answers_like_aged_caches 2
    [.put "a" (key 1) old, .put "a" (key 2) old, .put "b" (key 1) old, .put "a" (key 1) new,
      .put "a" (key 3) new]
  obtain ⟨-, -, -, ages_eq, -⟩ := caches "a"
  refine ⟨ages_eq.trans rfl, ?_, ?_, ?_⟩
  · exact (requests (.getFirst "a" [key 1, key 3])).1.trans rfl
  · exact (requests (.get "a" (key 2))).2.1 rfl "a"
  · exact (requests (.put "a" (key 4) new)).2.2 "b" (by decide)

end BoundedStore

end DataService
