import DataService.Proofs.Store.FirstInFirstOut
import DataService.Proofs.Tally
import Mathlib.Data.List.Nodup

/-!
# The books of the bounded store balance

What a request does to a store is seen from the entries before and after it: `BoundedCache.lost` is
the number of entries that are gone. From this the requests are counted that put a new key, the
entries that had to go for it, those taken out one by one or with their cache, the keys probed and
the results found, each for one request and then along many of them (`tally`).

The counters of the store are kept elsewhere, and the queue of a cache is kept apart from its index.
That both agree on what is there (`BoundedCache.Holds`) is what makes each key that is taken from the
queue an entry that is lost (`Holds.lost_put`). The section on requests says what one of them adds to
the books, and `books_balance` what any number of them comes to.
-/

set_option autoImplicit false

namespace DataService

/-! ## Entries lost by one cache -/

namespace BoundedCache

/-- The number of entries of a cache whose keys another one has not. -/
def lost (before after : BoundedCache) : Nat :=
  before.index.keys.countP fun key => (after.get? key).isNone

variable {c c' : BoundedCache} {t : AgedCache} {key : CacheKey}

/-- The keys of the index are those under which something is found. -/
theorem mem_keys_iff (c : BoundedCache) (key : CacheKey) :
    key ∈ c.index.keys ↔ (c.get? key).isSome = true := by
  rw [Std.HashMap.mem_keys, ← Std.HashMap.contains_iff_mem,
    Std.HashMap.contains_eq_isSome_getElem?]
  rfl

/-- The index has each of its keys once. -/
theorem nodup_keys (c : BoundedCache) : c.index.keys.Nodup := by
  have distinct := c.index.distinct_keys
  refine distinct.imp fun differ same => ?_
  simp [same] at differ

/-- Two caches have as many entries in common as the one has that it did not lose to the other. -/
theorem size_eq_lost_add (c c' : BoundedCache) :
    c.size = c.lost c' + (c.index.keys.filter fun key => (c'.get? key).isSome).length := by
  have split := List.length_eq_countP_add_countP (fun key => (c'.get? key).isNone)
    (l := c.index.keys)
  have kept (key : CacheKey) : (¬(c'.get? key).isNone = true) ↔ (c'.get? key).isSome = true := by
    cases c'.get? key <;> simp
  simp only [kept] at split
  rw [Std.HashMap.length_keys] at split
  rw [← List.countP_eq_length_filter]
  simpa [size, lost] using split

/-- Sizes differ by what either cache has and the other has not. -/
theorem lost_add_size (c c' : BoundedCache) : c.lost c' + c'.size = c'.lost c + c.size := by
  have common : (c.index.keys.filter fun key => (c'.get? key).isSome).Perm
      (c'.index.keys.filter fun key => (c.get? key).isSome) := by
    refine (List.perm_ext_iff_of_nodup (c.nodup_keys.filter _) (c'.nodup_keys.filter _)).2 ?_
    intro key
    rw [List.mem_filter, List.mem_filter, mem_keys_iff, mem_keys_iff, and_comm]
  have size := c.size_eq_lost_add c'
  have size' := c'.size_eq_lost_add c
  rw [common.length_eq] at size
  omega

/-- Nothing is lost where everything that was found is found still. -/
theorem lost_eq_zero (kept : ∀ key, (c.get? key).isSome = true → (c'.get? key).isSome = true) :
    c.lost c' = 0 := by
  refine List.countP_eq_zero.2 fun key among => ?_
  have there := kept key ((c.mem_keys_iff key).1 among)
  simp [Option.isSome_iff_ne_none.1 there]

/-- A cache that has all entries but one has lost that one. -/
theorem lost_eq_one (gone : (c.get? key).isSome = true) (absent : (c'.get? key).isNone = true)
    (kept : ∀ key', key' ≠ key → (c.get? key').isSome = true → (c'.get? key').isSome = true) :
    c.lost c' = 1 := by
  have only : c.lost c' = c.index.keys.count key := by
    refine List.countP_congr fun key' among => ?_
    by_cases same : key' = key
    · simp [same, absent]
    · have there := kept key' same ((c.mem_keys_iff key').1 among)
      simp [same, Option.isSome_iff_ne_none.1 there]
  rw [only, List.count_eq_one_of_mem c.nodup_keys ((c.mem_keys_iff key).2 gone)]

/-! ### Writes -/

/-- Every drop takes a key from the queue. -/
theorem dropped_makeRoomFrom (bound : Nat) (index : Std.HashMap CacheKey CachedResult)
    (ages : List CacheKey) :
    (makeRoomFrom bound index ages).2 + (makeRoomFrom bound index ages).1.ages.length =
      ages.length := by
  induction ages generalizing index with
  | nil => rfl
  | cons oldest rest ih =>
    rw [makeRoomFrom]
    split
    · show (makeRoomFrom bound (index.erase oldest) rest).2 + 1 + _ = _
      have later := ih (index.erase oldest)
      dsimp only
      rw [List.length_cons]
      omega
    · exact Nat.zero_add _

/-- The queue of a cache is as long as the cache is large. -/
theorem Holds.length_ages (h : c.Holds t) : c.ages.length = c.size := by
  rw [h.ages_eq, h.size_eq, AgedCache.size_eq_length_keys]

/-- A cache that makes room has as many entries less as it says it dropped. -/
theorem Holds.dropped_makeRoom (h : c.Holds t) (bound : Nat) :
    (c.makeRoom bound).2 + (c.makeRoom bound).1.size = c.size := by
  rw [← (h.makeRoom bound).length_ages, ← h.length_ages]
  exact dropped_makeRoomFrom bound c.index c.ages

/-- The result that was put is there. -/
theorem get?_put_self (bound : Nat) (c : BoundedCache) (key : CacheKey) (result : CachedResult) :
    (c.put bound key result).1.get? key = some result := by
  unfold BoundedCache.put
  split
  · rw [get?_insert, if_pos rfl]
  · rw [get?_insert, if_pos rfl]

/-- A key other than the one that is put was there before. -/
theorem Holds.get?_of_put (h : c.Holds t) {bound : Nat} {result : CachedResult} {key' : CacheKey}
    (other : key' ≠ key) (there : ((c.put bound key result).1.get? key').isSome = true) :
    (c.get? key').isSome = true := by
  have put := h.put bound key result
  rw [← put.mem_ages_iff, put.ages_eq] at there
  rw [← h.mem_ages_iff, h.ages_eq]
  unfold AgedCache.keep at there
  split at there
  · next present =>
    rwa [Table.keys_put_of_mem t result ((t.contains_iff_mem_keys key).1 present)] at there
  · rw [AgedCache.keys_append, List.mem_append, AgedCache.keys_makeRoom,
      List.mem_singleton] at there
    exact (there.resolve_right other) |> List.mem_of_mem_drop

/-- A put adds its key if that was absent, and nothing else. -/
theorem Holds.gained_put (h : c.Holds t) (bound : Nat) (key : CacheKey) (result : CachedResult) :
    (c.put bound key result).1.lost c = if (c.get? key).isNone then 1 else 0 := by
  have there : ((c.put bound key result).1.get? key).isSome = true := by
    rw [get?_put_self]
    rfl
  cases before : c.get? key with
  | none => exact lost_eq_one there (by rw [before]; rfl) fun key' other => h.get?_of_put other
  | some old =>
    refine lost_eq_zero fun key' there' => ?_
    by_cases same : key' = key
    · rw [same, before]
      rfl
    · exact h.get?_of_put same there'

/-- The index has a key exactly if something is found under it. -/
theorem contains_eq_not_isNone (c : BoundedCache) (key : CacheKey) :
    c.index.contains key = !(c.get? key).isNone := by
  rw [Std.HashMap.contains_eq_isSome_getElem?, Option.not_isNone]
  rfl

/-- A put leaves as many entries as there were, more by the one it adds and less by those it says it
dropped. -/
theorem Holds.size_put (h : c.Holds t) (bound : Nat) (key : CacheKey) (result : CachedResult) :
    (c.put bound key result).1.size + (c.put bound key result).2 =
      c.size + if (c.get? key).isNone then 1 else 0 := by
  have left := (h.put bound key result).size_eq
  unfold AgedCache.keep at left
  rw [left, ← h.contains_eq, BoundedCache.put, c.contains_eq_not_isNone]
  cases absent : (c.get? key).isNone with
  | true =>
    have dropped := h.dropped_makeRoom bound
    rw [(h.makeRoom bound).size_eq] at dropped
    simp only [Bool.not_true, Bool.false_eq_true, if_false, if_true, AgedCache.size_append]
    omega
  | false =>
    have present : t.contains key = true := by
      rw [← h.contains_eq, c.contains_eq_not_isNone, absent]
      rfl
    simp only [Bool.not_false, if_true, Bool.false_eq_true, if_false, AgedCache.size_put present,
      h.size_eq]

/-- The entries lost by a put are those that it says it dropped. -/
theorem Holds.lost_put (h : c.Holds t) (bound : Nat) (key : CacheKey) (result : CachedResult) :
    c.lost (c.put bound key result).1 = (c.put bound key result).2 := by
  have sizes := c.lost_add_size (c.put bound key result).1
  have grown := h.size_put bound key result
  rw [h.gained_put] at sizes
  omega

/-- Dropping the result under a key adds nothing, and loses that entry at most. -/
theorem Holds.lost_evict (h : c.Holds t) (key : CacheKey) :
    (c.evict key).lost c = 0 ∧ c.lost (c.evict key) ≤ 1 := by
  have less (key' : CacheKey) (there : ((c.evict key).get? key').isSome = true) :
      (c.get? key').isSome = true := by
    rw [(h.evict key).get?_eq, Table.get?_erase] at there
    rw [h.get?_eq]
    split at there
    · cases there
    · exact there
  have gained := lost_eq_zero less
  refine ⟨gained, ?_⟩
  have sizes := c.lost_add_size (c.evict key)
  have left := (h.evict key).size_eq
  have before := h.size_eq
  by_cases present : t.contains key = true
  · have erased := AgedCache.size_erase h.nodup present
    omega
  · rw [Table.erase_of_notMem (mt (t.contains_iff_mem_keys key).2 present)] at left
    omega

end BoundedCache

namespace BoundedStore

/-! ## What a request adds to the books -/

/-- The sum of a count over requests on a store, one after the other. Each is counted at the store
that it comes to. -/
def tally (count : BoundedStore → StoreRequest → Nat) : BoundedStore → List StoreRequest → Nat :=
  DataService.tally (fun s request => (s.serve request).1) count

/-- A tally counts the first request in the store as it is, and the others in what it leaves. -/
theorem tally_cons (count : BoundedStore → StoreRequest → Nat) (s : BoundedStore)
    (request : StoreRequest) (rest : List StoreRequest) :
    tally count s (request :: rest) = count s request + tally count (s.serve request).1 rest := rfl

/-- The number of entries that are gone after a request from the cache that it is about. -/
def lostTo (s : BoundedStore) (request : StoreRequest) : Nat :=
  (s.cache request.cache).lost ((s.serve request).1.cache request.cache)

/-- The number of entries that are new after a request in the cache that it is about. -/
def gainedBy (s : BoundedStore) (request : StoreRequest) : Nat :=
  ((s.serve request).1.cache request.cache).lost (s.cache request.cache)

/-- One for a put under a key that is absent. -/
def inserted (s : BoundedStore) : StoreRequest → Nat
  | .put name key _ => if ((s.cache name).get? key).isNone then 1 else 0
  | _ => 0

/-- The number of entries that are gone after a put, and so removed by the bound. -/
def displaced (s : BoundedStore) (request : StoreRequest) : Nat :=
  match request with
  | .put .. => s.lostTo request
  | _ => 0

/-- One for an eviction by request that removed an entry. -/
def evicted (s : BoundedStore) (request : StoreRequest) : Nat :=
  match request with
  | .evict .. => if 0 < s.lostTo request then 1 else 0
  | _ => 0

/-- The number of entries dropped with their cache. -/
def cleared (s : BoundedStore) (request : StoreRequest) : Nat :=
  match request with
  | .clear _ => s.lostTo request
  | _ => 0

/-- Whether a cache has an entry under a key. -/
def present (s : BoundedStore) (name : String) (key : CacheKey) : Bool :=
  ((s.cache name).get? key).isSome

/-- The keys that a request probes: those of a list up to and including the first that is present. -/
def probedKeys (s : BoundedStore) : StoreRequest → List CacheKey
  | .get _ key => [key]
  | .getFirst name keys => keys.take (keys.findIdx (s.present name) + 1)
  | _ => []

/-- The number of keys that a request probes. -/
def probes (s : BoundedStore) (request : StoreRequest) : Nat := (s.probedKeys request).length

/-- The number of probes that find an entry. -/
def found (s : BoundedStore) (request : StoreRequest) : Nat :=
  (s.probedKeys request).countP (s.present request.cache)

variable {s : BoundedStore} {bound : Nat} {m : AgedCaches}

/-! ### Entries -/

/-- The size of a cache is that of its index, and zero if there is none. -/
theorem size_eq (s : BoundedStore) (name : String) :
    s.size name = ((s.caches.get? name).map BoundedCache.size).getD 0 := by
  unfold size cache
  cases s.caches.get? name with
  | none => exact Std.HashMap.size_empty
  | some c => rfl

/-- The number of entries in the store changes by as many as that in the cache of the request. -/
theorem entryCount_serve (one_each : s.caches.keys.Nodup) (request : StoreRequest) :
    (s.serve request).1.stats.entryCount + s.size request.cache =
      s.stats.entryCount + (s.serve request).1.size request.cache := by
  have of_caches {s' : BoundedStore} (same : s'.caches = s.caches) (name : String) :
      s'.stats.entryCount + s.size name = s.stats.entryCount + s'.size name := by
    unfold stats size cache
    rw [same]
  cases request with
  | put name key result =>
    have total := s.caches.total_put BoundedCache.size name
      ((s.cache name).put s.bound key result).1
    rw [← size_eq] at total
    have after : (s.put name key result).size name =
        ((s.cache name).put s.bound key result).1.size := by
      rw [size, cache_put, if_pos rfl]
    show (s.put name key result).stats.entryCount + s.size name = _ + (s.put name key result).size name
    rw [after]
    exact total
  | get name key => exact of_caches (s.get_eq name key).2.1 name
  | getFirst name keys => exact of_caches (getFirst_eq ⟨s, []⟩ name keys).2.1 name
  | evict name key =>
    have total := Table.total_modify BoundedCache.size one_each name (·.evict key)
    rw [← size_eq] at total
    have after : (s.evict name key).size name =
        (((s.caches.get? name).map (·.evict key)).map BoundedCache.size).getD 0 := by
      rw [size_eq]
      unfold evict
      rw [Table.get?_modify, if_pos (beq_self_eq_true name)]
    show (s.evict name key).stats.entryCount + s.size name = _ + (s.evict name key).size name
    rw [after]
    exact total
  | clear name =>
    have total := Table.total_erase BoundedCache.size one_each name
    rw [← size_eq] at total
    have after : (s.clear name).size name = 0 := by
      rw [size_eq]
      unfold clear
      rw [Table.get?_erase_self]
      rfl
    show (s.clear name).stats.entryCount + s.size name = _ + (s.clear name).size name
    rw [after]
    exact total

/-- A request leaves the caches with one name each. -/
theorem nodup_serve (one_each : s.caches.keys.Nodup) (request : StoreRequest) :
    (s.serve request).1.caches.keys.Nodup := by
  cases request with
  | put name key result => exact Table.nodup_keys_put one_each name _
  | get name key => exact (s.get_eq name key).2.1.symm ▸ one_each
  | getFirst name keys => exact (getFirst_eq ⟨s, []⟩ name keys).2.1.symm ▸ one_each
  | evict name key =>
    show (s.caches.modify name _).keys.Nodup
    rw [Table.keys_modify]
    exact one_each
  | clear name =>
    show (s.caches.erase name).keys.Nodup
    rw [Table.keys_erase]
    exact one_each.filter _

/-- The number of entries in the store grows by those that are new and falls by those that are
gone. -/
theorem gainedBy_add_entryCount (one_each : s.caches.keys.Nodup) (request : StoreRequest) :
    s.gainedBy request + s.stats.entryCount =
      (s.serve request).1.stats.entryCount + s.lostTo request := by
  have moved := entryCount_serve one_each request
  have sizes := (s.cache request.cache).lost_add_size ((s.serve request).1.cache request.cache)
  unfold gainedBy lostTo
  unfold size at moved
  omega

/-- A request that reads neither adds a result nor takes one away. -/
theorem gainedBy_of_isRead {request : StoreRequest} (reads : request.isRead = true) :
    s.gainedBy request = 0 ∧ s.lostTo request = 0 := by
  unfold gainedBy lostTo
  rw [s.cache_serve_of_isRead reads]
  exact ⟨BoundedCache.lost_eq_zero fun _ there => there,
    BoundedCache.lost_eq_zero fun _ there => there⟩

/-- A put adds what is there after it and was not before. -/
theorem gainedBy_put (name : String) (key : CacheKey) (result : CachedResult) :
    s.gainedBy (.put name key result) =
      ((s.cache name).put s.bound key result).1.lost (s.cache name) := by
  show ((s.put name key result).cache name).lost (s.cache name) = _
  rw [cache_put, if_pos rfl]

/-- A put takes away what it drops to make room. -/
theorem lostTo_put (name : String) (key : CacheKey) (result : CachedResult) :
    s.lostTo (.put name key result) =
      (s.cache name).lost ((s.cache name).put s.bound key result).1 := by
  show (s.cache name).lost ((s.put name key result).cache name) = _
  rw [cache_put, if_pos rfl]

/-- An eviction adds what is there after it and was not before, which is nothing. -/
theorem gainedBy_evict (name : String) (key : CacheKey) :
    s.gainedBy (.evict name key) = ((s.cache name).evict key).lost (s.cache name) := by
  show ((s.evict name key).cache name).lost (s.cache name) = _
  rw [cache_evict, if_pos rfl]

/-- An eviction takes away the result of its key, if there is one. -/
theorem lostTo_evict (name : String) (key : CacheKey) :
    s.lostTo (.evict name key) = (s.cache name).lost ((s.cache name).evict key) := by
  show (s.cache name).lost ((s.evict name key).cache name) = _
  rw [cache_evict, if_pos rfl]

/-- To clear a cache adds nothing. -/
theorem gainedBy_clear (name : String) : s.gainedBy (.clear name) = 0 := by
  show ((s.clear name).cache name).lost (s.cache name) = 0
  rw [cache_clear, if_pos rfl]
  refine BoundedCache.lost_eq_zero fun key there => ?_
  rw [BoundedCache.holds_empty.get?_eq] at there
  cases there

/-- The entries that are new are those of puts under absent keys. -/
theorem Refines.gainedBy_eq (h : s.Refines bound m) (request : StoreRequest) :
    s.gainedBy request = s.inserted request := by
  cases request with
  | put name key result =>
    rw [gainedBy_put, (h.holds name).gained_put]
    rfl
  | get | getFirst => exact (gainedBy_of_isRead rfl).1
  | evict name key =>
    rw [gainedBy_evict, ((h.holds name).lost_evict key).1]
    rfl
  | clear name => exact gainedBy_clear name

/-- The entries that are gone fell to the bound, were evicted by request or dropped with their
cache. -/
theorem Refines.lostTo_eq (h : s.Refines bound m) (request : StoreRequest) :
    s.lostTo request = s.displaced request + s.evicted request + s.cleared request := by
  cases request with
  | put | clear => simp [displaced, evicted, cleared]
  | get | getFirst => exact (gainedBy_of_isRead rfl).2
  | evict name key =>
    have one_at_most := ((h.holds name).lost_evict key).2
    rw [← lostTo_evict] at one_at_most
    simp only [displaced, evicted, cleared]
    split <;> omega

/-! ### Counters -/

/-- What looking up one key adds to the counters. -/
theorem get_counts (s : BoundedStore) (name : String) (key : CacheKey) :
    (s.get name key).1.evictions = s.evictions ∧
    (s.get name key).1.hits = s.hits + [key].countP (s.present name) ∧
    (s.get name key).1.hits + (s.get name key).1.misses = s.hits + s.misses + 1 := by
  have count : [key].countP (s.present name) = if s.present name key then 1 else 0 := by
    rw [List.countP_cons, List.countP_nil, Nat.zero_add]
  rw [count]
  unfold present get
  cases (s.cache name).get? key with
  | none => exact ⟨rfl, rfl, rfl⟩
  | some result => exact ⟨rfl, rfl, Nat.add_right_comm _ _ _⟩

/-- A look-up along keys ends at the first one that is there. -/
theorem probedKeys_of_present {name : String} {key : CacheKey} (hit : s.present name key = true)
    (rest : List CacheKey) : s.probedKeys (.getFirst name (key :: rest)) = [key] := by
  rw [probedKeys, List.findIdx_cons, hit, cond_true, List.take_succ_cons, List.take_zero]

/-- A look-up along keys goes on behind a key that is not there. -/
theorem probedKeys_of_absent {name : String} {key : CacheKey} (miss : s.present name key = false)
    (rest : List CacheKey) :
    s.probedKeys (.getFirst name (key :: rest)) = key :: s.probedKeys (.getFirst name rest) := by
  rw [probedKeys, List.findIdx_cons, miss, cond_false, List.take_succ_cons]
  rfl

/-- Looking through keys calls the store for those up to and including the first that is present, and
adds as much to the counters. -/
theorem getFirst_counts (w : Watched BoundedStore) (name : String) (keys : List CacheKey) :
    let tried := w.store.probedKeys (.getFirst name keys)
    let after := (w.getFirst name keys).1
    after.calls = w.calls ++ tried.map (fun key => ⟨.get, name, key, none⟩) ∧
    after.store.evictions = w.store.evictions ∧
    after.store.hits = w.store.hits + tried.countP (w.store.present name) ∧
    after.store.hits + after.store.misses = w.store.hits + w.store.misses + tried.length := by
  induction keys generalizing w with
  | nil => exact ⟨(List.append_nil _).symm, rfl, rfl, rfl⟩
  | cons key rest ih =>
    intro tried after
    obtain ⟨entry, same_caches, -⟩ := w.store.get_eq name key
    obtain ⟨evictions, hits, both⟩ := w.store.get_counts name key
    let next : Watched BoundedStore := (w.get name key).1
    have look : w.get name key = (next, .ok ((w.store.cache name).get? key)) :=
      Prod.ext rfl (congrArg Except.ok entry)
    have noted : next.calls = w.calls ++ [⟨.get, name, key, none⟩] := rfl
    have step : after = (w.getFirst name (key :: rest)).1 := rfl
    rw [Watched.getFirst, look] at step
    cases here : (w.store.cache name).get? key with
    | some result =>
      have hit : w.store.present name key = true := by
        rw [present, here]
        rfl
      have only : tried = [key] := probedKeys_of_present hit rest
      rw [here] at step
      rw [step, only]
      exact ⟨noted, evictions, hits, both⟩
    | none =>
      have miss : w.store.present name key = false := by
        rw [present, here]
        rfl
      have same_present : next.store.present name = w.store.present name := by
        unfold present cache
        exact congrArg (fun caches : Table String BoundedCache => fun key =>
          (((caches.get? name).getD {}).get? key).isSome) same_caches
      have more : tried = key :: next.store.probedKeys (.getFirst name rest) := by
        rw [probedKeys, same_present]
        exact probedKeys_of_absent miss rest
      have missed : [key].countP (w.store.present name) = 0 := by simp [miss]
      obtain ⟨calls, evictions', hits', both'⟩ := ih next
      rw [same_present] at hits'
      rw [missed] at hits
      rw [here] at step
      rw [step, more]
      refine ⟨?_, evictions'.trans evictions, ?_, ?_⟩
      · rw [calls, noted, List.append_assoc, List.map_cons, List.singleton_append]
      · rw [hits', List.countP_cons_of_neg (by simp [miss])]
        exact congrArg (· + _) hits
      · rw [both', List.length_cons]
        change next.store.hits + next.store.misses = _ at both
        omega

/-- The evictions that a store counts are the entries that its bound removes. -/
theorem Refines.evictions_serve (h : s.Refines bound m) (request : StoreRequest) :
    (s.serve request).1.evictions = s.evictions + s.displaced request := by
  cases request with
  | put name key result =>
    have displaced : s.displaced (.put name key result) =
        ((s.cache name).put s.bound key result).2 := by
      rw [← (h.holds name).lost_put s.bound key result]
      exact lostTo_put name key result
    rw [displaced]
    rfl
  | get name key => exact (s.get_counts name key).1
  | getFirst name keys => exact (getFirst_counts ⟨s, []⟩ name keys).2.1
  | evict | clear => rfl

/-- The hits that a store counts are the probes that find an entry, and with the misses it counts all
of them. -/
theorem hits_serve (s : BoundedStore) (request : StoreRequest) :
    (s.serve request).1.hits = s.hits + s.found request ∧
    (s.serve request).1.hits + (s.serve request).1.misses =
      s.hits + s.misses + s.probes request := by
  cases request with
  | get name key => exact (s.get_counts name key).2
  | getFirst name keys => exact (getFirst_counts ⟨s, []⟩ name keys).2.2
  | put | evict | clear => exact ⟨rfl, rfl⟩

/-! ## Many requests -/

/-- What requests add to the books of a store is what each of them adds. -/
theorem Refines.books_after (h : s.Refines bound m) (room : 0 < bound)
    (one_each : s.caches.keys.Nodup) (requests : List StoreRequest) :
    let s' := s.after requests
    tally inserted s requests + s.stats.entryCount = s'.stats.entryCount +
      tally displaced s requests + tally evicted s requests + tally cleared s requests ∧
    s'.evictions = s.evictions + tally displaced s requests ∧
    s'.hits = s.hits + tally found s requests ∧
    s'.hits + s'.misses = s.hits + s.misses + tally probes s requests := by
  induction requests generalizing s m with
  | nil => exact ⟨Nat.zero_add _, rfl, rfl, rfl⟩
  | cons request rest ih =>
    intro s'
    have moved := gainedBy_add_entryCount one_each request
    rw [h.gainedBy_eq, h.lostTo_eq] at moved
    have dropped := h.evictions_serve request
    obtain ⟨hits, both⟩ := s.hits_serve request
    obtain ⟨moved', dropped', hits', both'⟩ :=
      ih (h.serve room request).1 (nodup_serve one_each request)
    have s'_eq : s' = (s.serve request).1.after rest := rfl
    rw [s'_eq]
    simp only [tally_cons]
    refine ⟨?_, ?_, ?_, ?_⟩ <;> omega

/-- **The books of the store balance.** Whatever its bound and whatever was asked of it: the keys that
were put while absent are the entries that the store has, those that it counts as evicted, those
evicted by request and those dropped with their cache; it counts as evicted what its bound removed; and
it counts every probe, as a hit exactly if it found an entry. Looking through keys calls the store for
the probes that are counted. -/
theorem books_balance (bound : Nat) (requests : List StoreRequest) :
    let s₀ := ofBound bound
    let s := s₀.after requests
    tally inserted s₀ requests = s.stats.entryCount + s.stats.evictions +
      tally evicted s₀ requests + tally cleared s₀ requests ∧
    s.stats.evictions = tally displaced s₀ requests ∧
    s.stats.hits = tally found s₀ requests ∧
    s.stats.hits + s.stats.misses = tally probes s₀ requests ∧
    ∀ name keys, ((Watched.mk s []).getFirst name keys).1.calls =
      (s.probedKeys (.getFirst name keys)).map fun key => ⟨.get, name, key, none⟩ := by
  intro s₀ s
  have room : 0 < max 1 bound := Nat.lt_of_lt_of_le Nat.one_pos (Nat.le_max_left 1 bound)
  obtain ⟨moved, dropped, hits, both⟩ :=
    (refines_empty bound).books_after room List.nodup_nil requests
  -- an empty store has nothing in its books
  change tally inserted s₀ requests + 0 = s.stats.entryCount + tally displaced s₀ requests +
    tally evicted s₀ requests + tally cleared s₀ requests at moved
  change s.stats.evictions = 0 + tally displaced s₀ requests at dropped
  change s.stats.hits = 0 + tally found s₀ requests at hits
  change s.stats.hits + s.stats.misses = 0 + 0 + tally probes s₀ requests at both
  refine ⟨?_, ?_, ?_, ?_, fun name keys => (getFirst_counts ⟨s, []⟩ name keys).1⟩
  · omega
  · omega
  · omega
  · omega

end BoundedStore

end DataService
