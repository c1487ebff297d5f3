import DataService.Model.Deployment.Caching
import DataService.Model.Store.Scripted
import DataService.Proofs.Store.Keyed
import Mathlib.Data.List.Basic

/-!
# Looking up in a store that may fail

Nothing is assumed of the store here: every single call may fail, and may change what the store
says to the next one. A probe is one look-up of a key together with what the store said
(`probes`), and it decides the look-up of a query if it found an entry or failed. The probes made
are those up to and including the first that decides (`made`), which is then the last one made
(`eq_getLast?_of_decides`).

`Watched.getFirst_eq_made` says this of the store alone. The keys are the distinct ones among the
generalizations of the exact key (`lookupOrder_eq_eraseDups`), and with these two
`Deployment.lookup_probes` says all that a look-up does: when no call is made, which calls are made
otherwise, and which result comes of them.
-/

set_option autoImplicit false

namespace DataService

/-- The keys of a look-up are the generalizations of its key, each at its first place. -/
theorem CacheKey.lookupOrder_eq_eraseDups (k : CacheKey) :
    k.lookupOrder = k.generalizations.eraseDups := by
  have collected (keys seen : List CacheKey) :
      keys.foldl (fun ks j => if j ∈ ks then ks else ks ++ [j]) seen =
        seen ++ (keys.filter fun j => !seen.contains j).eraseDups := by
    induction keys generalizing seen with
    | nil => simp
    | cons j rest ih =>
      rw [List.foldl_cons, ih]
      by_cases known : j ∈ seen
      · rw [if_pos known, List.filter_cons_of_neg (by simp [known])]
      · have later : (rest.filter fun i => !(seen ++ [j]).contains i) =
            (rest.filter fun i => !seen.contains i).filter fun i => !i == j := by
          rw [List.filter_filter]
          refine List.filter_congr fun i _ => ?_
          by_cases same : i = j <;> simp [same]
        rw [if_neg known, List.filter_cons_of_pos (by simp [known]), List.eraseDups_cons, later,
          List.append_assoc, List.singleton_append]
  have all := collected k.generalizations []
  simpa [CacheKey.lookupOrder] using all

/-! ## Probes -/

/-- A look-up of one key, and what the store said. -/
structure Probe where
  key : CacheKey
  answer : Except StoreFault (Option CachedResult)

namespace Probe

/-- Whether nothing is looked up after a probe: it found an entry, or it failed. -/
def decides (p : Probe) : Bool :=
  match p.answer with
  | .ok none => false
  | .ok (some _) => true
  | .error _ => true

/-- The call that a probe is to the store. -/
def call (cache : String) (p : Probe) : StoreCall :=
  ⟨.get, cache, p.key, Watched.faultOf p.answer⟩

/-- The probes that are made of those that there are: up to and including the first that decides. -/
def made (ps : List Probe) : List Probe := ps.take (ps.findIdx decides + 1)

/-- No probe is made after one that decides. -/
theorem made_cons_of_decides {p : Probe} (decisive : p.decides = true) (ps : List Probe) :
    made (p :: ps) = [p] := by
  rw [made, List.findIdx_cons, decisive, cond_true, List.take_succ_cons, List.take_zero]

/-- A probe that decides nothing is followed by the others. -/
theorem made_cons_of_not_decides {p : Probe} (indecisive : p.decides = false) (ps : List Probe) :
    made (p :: ps) = p :: made ps := by
  rw [made, List.findIdx_cons, indecisive, cond_false, List.take_succ_cons, made]

/-- Of the probes made, only the last one decides. -/
theorem eq_getLast?_of_decides {ps : List Probe} {p : Probe} (here : p ∈ made ps)
    (decisive : p.decides = true) : (made ps).getLast? = some p := by
  induction ps with
  | nil => cases here
  | cons first rest ih =>
    cases decides_first : first.decides with
    | true =>
      rw [made_cons_of_decides decides_first, List.mem_singleton] at here
      rw [made_cons_of_decides decides_first, here]
      rfl
    | false =>
      rw [made_cons_of_not_decides decides_first, List.mem_cons] at here
      rcases here with rfl | later
      · rw [decides_first] at decisive
        cases decisive
      · rw [made_cons_of_not_decides decides_first, List.getLast?_cons, ih later]
        rfl

/-- Two probes made that decide are one and the same. -/
theorem eq_of_decides {ps : List Probe} {p p' : Probe} (here : p ∈ made ps) (here' : p' ∈ made ps)
    (decisive : p.decides = true) (decisive' : p'.decides = true) : p = p' :=
  Option.some.inj
    ((eq_getLast?_of_decides here decisive).symm.trans (eq_getLast?_of_decides here' decisive'))

end Probe

section Walk

universe u

variable {σ : Type u} [ResultStore σ]

/-- The probes of keys one after the other, as far as the list goes. -/
def probes (store : σ) (cache : String) : List CacheKey → List Probe
  | [] => []
  | key :: rest =>
    ⟨key, (ResultStore.get store cache key).2⟩ ::
      probes (ResultStore.get store cache key).1 cache rest

/-- The store after probes of keys and nothing else. -/
def probed (store : σ) (cache : String) (keys : List CacheKey) : σ :=
  keys.foldl (fun store key => (ResultStore.get store cache key).1) store

/-- Looking through keys makes the probes up to the first that decides, and finds what that one
found. -/
theorem Watched.getFirst_eq_made (w : Watched σ) (cache : String) (keys : List CacheKey) :
    let tried := Probe.made (probes w.store cache keys)
    (w.getFirst cache keys).1.calls = w.calls ++ tried.map (·.call cache) ∧
    (w.getFirst cache keys).1.store = probed w.store cache (tried.map (·.key)) ∧
    ∀ result, (entryOf (w.getFirst cache keys).2).map (·.2) = some result ↔
      ∃ p ∈ tried, p.answer = .ok (some result) := by
  induction keys generalizing w with
  | nil => simp [probes, Probe.made, probed, getFirst, entryOf]
  | cons key rest ih =>
    intro tried
    let first : Probe := ⟨key, (ResultStore.get w.store cache key).2⟩
    let after : Watched σ := (w.get cache key).1
    have there : w.get cache key = (after, first.answer) := rfl
    have noted : after.calls = w.calls ++ [first.call cache] := rfl
    have all : probes w.store cache (key :: rest) = first :: probes after.store cache rest := rfl
    rw [getFirst, there]
    cases answered : first.answer with
    | error fault =>
      have only : tried = [first] :=
        Probe.made_cons_of_decides (p := first) (by rw [Probe.decides, answered]) _
      rw [only]
      refine ⟨noted, rfl, fun result => ?_⟩
      simp [entryOf, answered]
    | ok found =>
      cases found with
      | some entry =>
        have only : tried = [first] :=
          Probe.made_cons_of_decides (p := first) (by rw [Probe.decides, answered]) _
        rw [only]
        refine ⟨noted, rfl, fun result => ?_⟩
        simp [entryOf, answered]
      | none =>
        have more : tried = first :: Probe.made (probes after.store cache rest) :=
          Probe.made_cons_of_not_decides (p := first) (by rw [Probe.decides, answered]) _
        obtain ⟨calls, store, found⟩ := ih after
        rw [more]
        refine ⟨?_, store, fun result => ?_⟩
        · rw [calls, noted, List.append_assoc, List.map_cons, List.singleton_append]
        · rw [found result]
          simp [answered]

end Walk

/-! ## The look-up of a query -/

namespace Deployment

variable {σ : Type} [ResultStore σ]

/-- The look-up of a service that keeps results, for a query that has a key. -/
theorem lookup_of_key {d : Deployment σ} {s : Service} {store : σ} {q : Query} {key : CacheKey}
    (own : d.stores.get? s.store = some store) (keeps : s.definition.resultCache?.isSome = true)
    (keyed : CacheKey.ofQuery q = .ok key) :
    let walk := (⟨store, []⟩ : Watched σ).getFirst s.cacheName key.lookupOrder
    let answer := LookupAnswer.ofEntry q (entryOf walk.2)
    d.lookup s q =
      ({ d with
          stores := d.stores.put s.store walk.1.store
          events := d.events ++ walk.1.calls.map (.storeCalled s.store)
          metrics := d.metrics.add (.lookups s.name answer.outcome) 1 }, .ok answer.result) := by
  obtain ⟨cache, cached⟩ := Option.isSome_iff_exists.1 keeps
  unfold lookup withStore Service.lookup
  rw [own, cached, keyed]
  rfl

/-- A look-up without a result cache, or of a query without a key, leaves everything as it is. -/
theorem lookup_of_no_walk {d : Deployment σ} {s : Service} {store : σ} {q : Query}
    {answer : Except Failure (Option LookupAnswer)} (own : d.stores.get? s.store = some store)
    (idle : ∀ w : Watched σ, s.lookup q w = (w, answer)) (nothing : answer.toOption.join = none) :
    (d.lookup s q).1.events = d.events ∧
    (∀ id, (d.lookup s q).1.stores.get? id = d.stores.get? id) ∧
    (d.lookup s q).2 = answer.map fun _ => none := by
  have stores (id : StoreId) : (d.stores.put s.store store).get? id = d.stores.get? id := by
    rw [Table.get?_put]
    split
    · next same => rw [eq_of_beq same, own]
    · rfl
  unfold lookup withStore
  rw [own]
  dsimp only
  rw [idle]
  match answer, nothing with
  | .ok none, _ => exact ⟨List.append_nil _, stores, rfl⟩
  | .error failure, _ => exact ⟨List.append_nil _, stores, rfl⟩

/-- What is found is worth its result to a query that it answers, and nothing to another one. -/
theorem result_ofEntry_eq_some_iff {q : Query} {found : Option (CacheKey × CachedResult)}
    {result : CachedResult} : (LookupAnswer.ofEntry q found).result = some result ↔
      found.map (·.2) = some result ∧ result.answers q = true := by
  match found with
  | none => simp [LookupAnswer.ofEntry]
  | some (key, entry) =>
    cases answers : entry.answers q with
    | true =>
      simp only [LookupAnswer.ofEntry, answers, if_true, Option.map_some]
      exact ⟨fun same => ⟨same, Option.some.inj same ▸ answers⟩, And.left⟩
    | false =>
      simp only [LookupAnswer.ofEntry, answers, Bool.false_eq_true, if_false, Option.map_some,
        reduceCtorEq, false_iff, not_and, Option.some.injEq]
      rintro rfl
      simp [answers]

/-- A look-up makes no call without a result cache or a fingerprint. Otherwise it never fails: it
probes the distinct generalizations of the exact key up to the first that decides, writes nothing,
and gives the entry found if no probe failed and the entry answers the query. -/
theorem lookup_probes (d : Deployment σ) (s : Service) (q : Query) {store : σ}
    (own : d.stores.get? s.store = some store) :
    let d' := (d.lookup s q).1
    (s.definition.resultCache? = none → (d.lookup s q).2 = .ok none ∧
      d'.events = d.events ∧ ∀ id, d'.stores.get? id = d.stores.get? id) ∧
    (s.definition.resultCache?.isSome = true → q.fingerprint = none →
      (d.lookup s q).2 = .error (.configuration .noFingerprint) ∧
      d'.events = d.events ∧ ∀ id, d'.stores.get? id = d.stores.get? id) ∧
    (s.definition.resultCache?.isSome = true → q.fingerprint.isSome = true →
      ∃ key, CacheKey.ofQuery q = .ok key ∧
      let all := probes store s.cacheName key.generalizations.eraseDups
      let made := all.take (all.findIdx Probe.decides + 1)
      d'.events = d.events ++ made.map (fun p => .storeCalled s.store (p.call s.cacheName)) ∧
      d'.stores.get? s.store = some (probed store s.cacheName (made.map (·.key))) ∧
      (∀ id, id ≠ s.store → d'.stores.get? id = d.stores.get? id) ∧
      (∀ p ∈ made, p.decides = true → made.getLast? = some p) ∧
      ∃ found, (d.lookup s q).2 = .ok found ∧
        ∀ result, found = some result ↔
          (∀ p ∈ made, ∀ fault, p.answer ≠ .error fault) ∧
          (∃ p ∈ made, p.answer = .ok (some result)) ∧ result.answers q = true) := by
  intro d'
  refine ⟨fun uncached => ?_, fun cached unnamed => ?_, fun cached named => ?_⟩
  · have idle (w : Watched σ) : s.lookup q w = (w, .ok none) := by
      rw [Service.lookup, uncached]
    obtain ⟨events, stores, answer⟩ := lookup_of_no_walk own idle rfl
    exact ⟨answer, events, stores⟩
  · obtain ⟨cache, cached⟩ := Option.isSome_iff_exists.1 cached
    have keyless : CacheKey.ofQuery q = .error (.configuration .noFingerprint) := by
      rw [CacheKey.ofQuery, unnamed]
    have idle (w : Watched σ) :
        s.lookup q w = (w, .error (.configuration .noFingerprint)) := by
      rw [Service.lookup, cached, keyless]
    obtain ⟨events, stores, answer⟩ := lookup_of_no_walk own idle rfl
    exact ⟨answer, events, stores⟩
  · obtain ⟨version, named⟩ := Option.isSome_iff_exists.1 named
    obtain ⟨key, keyed⟩ : ∃ key, CacheKey.ofQuery q = .ok key := by
      rw [CacheKey.ofQuery, named]
      exact ⟨_, rfl⟩
    refine ⟨key, keyed, ?_⟩
    intro all made
    have walked := lookup_of_key own cached keyed
    rw [key.lookupOrder_eq_eraseDups] at walked
    obtain ⟨calls, after, entry⟩ :=
      (⟨store, []⟩ : Watched σ).getFirst_eq_made s.cacheName key.generalizations.eraseDups
    have d'_eq : d' = _ := congrArg Prod.fst walked
    refine ⟨?_, ?_, ?_, fun p => Probe.eq_getLast?_of_decides, _, congrArg Prod.snd walked, ?_⟩
    · rw [d'_eq]
      dsimp only
      rw [calls, List.nil_append, List.map_map]
      rfl
    · rw [d'_eq]
      dsimp only
      rw [after, Table.get?_put_self]
      rfl
    · intro id other
      rw [d'_eq]
      exact Table.get?_put_of_ne _ _ other
    · intro result
      rw [result_ofEntry_eq_some_iff, entry result]
      refine ⟨fun found => ⟨?_, found⟩, And.right⟩
      obtain ⟨⟨p, here, holds⟩, -⟩ := found
      intro p' here' fault failed
      -- a probe that failed decides as well, so it would be the one that found the entry
      have same : p' = p := Probe.eq_of_decides here' here
        (by rw [Probe.decides, failed]) (by rw [Probe.decides, holds])
      rw [same, holds] at failed
      cases failed

/-- The look-up of an ordered query stops at its first probe, which fails, though the store has a
complete result under the looser key. Without a fingerprint or without a result cache the store is
not called. -/
theorem lookup_probes_first_lost :
    let s : Service :=
      { definition :=
          { name := "numbers", outputStep := "out"
            strategies := [.resultCache ⟨"cache", ⟨"in", "sort", "out"⟩⟩] }
        settings := {}, store := ⟨0⟩, board := ⟨1⟩ }
    let plain : Service := { s with definition := { name := "plain", outputStep := "out" } }
    let ordered : Query := { fingerprint := some 7, orderBy := ["day"] }
    let exact : CacheKey := { pipelineVersion := 7, orderBy := ["day"] }
    let store : ScriptedStore KeyedMap :=
      { inner := ⟨fun _ key => if key = exact.withoutOrder then some (.complete []) else none⟩
        gets := [some (.backend "lost")] }
    let d : Deployment (ScriptedStore KeyedMap) := { stores := .ofList [(⟨0⟩, store)] }
    (d.lookup s ordered).2 = .ok none ∧
    (d.lookup s ordered).1.events =
      [.storeCalled ⟨0⟩ ⟨.get, "dataservice_cache_numbers", exact, some (.backend "lost")⟩] ∧
    (d.lookup s {}).2 = .error (.configuration .noFingerprint) ∧ (d.lookup s {}).1.events = [] ∧
    (d.lookup plain ordered).2 = .ok none ∧ (d.lookup plain ordered).1.events = [] := by
  intro s plain ordered exact store d
  have own : d.stores.get? ⟨0⟩ = some store := rfl
  obtain ⟨-, -, walks⟩ := d.lookup_probes s ordered own
  obtain ⟨-, keyless, -⟩ := d.lookup_probes s {} own
  obtain ⟨uncached, -⟩ := d.lookup_probes plain ordered own
  obtain ⟨key, keyed, events, -, -, -, found, answer, only_if⟩ := walks rfl rfl
  obtain rfl : exact = key := Except.ok.inj keyed
  obtain ⟨failure, silent, -⟩ := keyless rfl rfl
  obtain ⟨nothing, unused, -⟩ := uncached rfl
  refine ⟨?_, events, failure, silent, nothing, unused⟩
  rw [answer]
  congr 1
  refine Option.eq_none_iff_forall_ne_some.2 fun result is_found => ?_
  obtain ⟨unfailing, -⟩ := (only_if result).1 is_found
  exact unfailing ⟨exact, .error (.backend "lost")⟩ List.mem_cons_self _ rfl

end Deployment

end DataService
