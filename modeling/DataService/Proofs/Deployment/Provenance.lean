import DataService.Proofs.Cache.Completeness
import DataService.Proofs.Cache.LookupOrder
import DataService.Proofs.Deployment.Stores
import DataService.Proofs.Deployment.Undertakings
import DataService.Proofs.Store.Forgetful
import Mathlib.Data.List.Induction

/-!
# Where a hit comes from

A hit in the cache of a service was captured by a population that a service over this cache started,
for a query that goes with the one that is looked up. The proof follows a result from the look-up
back to its population. It was kept under a key on the way of the look-up; nothing comes into a
cache but by a deposit (`Keeps.of_apply`), the deposit was made on an errand that an undertaking
sent, and the result that the errand brought home is the outcome of its population
(`exists_capture_of_keeps`).

A store is trusted for nothing but that it returns what was put into it. It may forget results at
any time and its calls may fail; only that someone else puts results into the cache is excluded
(`Operation.OnlyForgets`).
-/

set_option autoImplicit false

namespace DataService

/-- The canonical text of the filter of a query. -/
def Query.conditionText (q : Query) : Option String := q.filter.bind Filter.canonicalText

/-- A result that was captured for one query goes with another one, as far as the pipeline, the
parameters, the filter and the order are concerned. -/
structure Query.GoesWith (captured q : Query) (r : CachedResult) : Prop where
  fingerprint_eq : captured.fingerprint = q.fingerprint
  parameters_eq : captured.parameters = q.parameters
  condition : captured.conditionText = q.conditionText ∨ captured.conditionText = none
  order : r.isComplete = false →
    captured.orderBy = q.orderBy ∧ captured.conditionText = q.conditionText ∨ captured.orderBy = []

/-- A result is the outcome of the population of an undertaking, and was meant for the cache of a
service. -/
structure Undertaking.Captured {σ : Type} (u : Undertaking) (d : Deployment σ) (s : Service)
    (r : CachedResult) : Prop where
  store_eq : u.service.store = s.store
  cache_eq : u.service.cacheName = s.cacheName
  outcome : ∃ p, d.population? u.population = some p ∧ p.query = u.query ∧
    p.outcome = some (.ok r)

/-- By the operation nothing comes into a cache but what services deposit. -/
def Operation.OnlyForgets {σ : Type} [ForgetfulStore σ] (cache : String) : Operation σ → Prop
  | .addStore store => ∀ key result, ¬ForgetfulStore.Keeps store cache key result
  | .alterStore _ change => ∀ store key result,
    ForgetfulStore.Keeps (change store) cache key result →
      ForgetfulStore.Keeps store cache key result
  | _ => True

/-! ## Exact keys -/

/-- A key is the exact one of a query if they agree on fingerprint, parameters, filter text and
order. -/
theorem CacheKey.ofQuery_eq_ok_iff {q : Query} {key : CacheKey} :
    CacheKey.ofQuery q = .ok key ↔ q.fingerprint = some key.pipelineVersion ∧
      q.parameters = key.parameters ∧ q.conditionText = key.whereClause ∧
      q.orderBy = key.orderBy := by
  obtain ⟨version, parameters, condition, order⟩ := key
  unfold CacheKey.ofQuery Query.conditionText
  cases q.fingerprint with
  | none => simp
  | some v => simp

/-- A query that was captured goes with one on whose way its result is found. -/
theorem Query.goesWith_of_place {captured q : Query} {r : CachedResult}
    {captured_key key : CacheKey} (captured_exact : CacheKey.ofQuery captured = .ok captured_key)
    (exact_key : CacheKey.ofQuery q = .ok key) (found : r.place captured_key ∈ key.lookupOrder) :
    captured.GoesWith q r := by
  obtain ⟨version, parameters, condition, order⟩ := CacheKey.ofQuery_eq_ok_iff.1 exact_key
  obtain ⟨version', parameters', condition', order'⟩ :=
    CacheKey.ofQuery_eq_ok_iff.1 captured_exact
  have on_way := CacheKey.generalizes_of_mem_lookupOrder found
  -- the key under which the result is kept differs from the exact key in the order at most
  have same_version : (r.place captured_key).pipelineVersion = captured_key.pipelineVersion := by
    unfold CachedResult.place
    split <;> rfl
  have same_parameters : (r.place captured_key).parameters = captured_key.parameters := by
    unfold CachedResult.place
    split <;> rfl
  have same_condition : (r.place captured_key).whereClause = captured_key.whereClause := by
    unfold CachedResult.place
    split <;> rfl
  refine ⟨?_, ?_, ?_, ?_⟩
  · rw [version', version, ← same_version, on_way.pipelineVersion_eq]
  · rw [parameters', parameters, ← same_parameters, on_way.parameters_eq]
  · rw [condition', condition, ← same_condition]
    exact on_way.condition
  · intro bounded
    have exact_place : r.place captured_key = captured_key :=
      if_neg (by rw [bounded]; exact Bool.false_ne_true)
    rw [exact_place] at on_way
    rw [order', order, condition', condition]
    exact on_way.order

namespace Deployment

variable {σ : Type} [ForgetfulStore σ] {d d' : Deployment σ} {store : StoreId} {cache : String}
  {key : CacheKey} {r : CachedResult}

/-! ## What stores keep -/

/-- A look-up in a cache of a store may still return the result. -/
def Keeps (d : Deployment σ) (store : StoreId) (cache : String) (key : CacheKey)
    (r : CachedResult) : Prop :=
  ∃ at_work, d.stores.get? store = some at_work ∧ ForgetfulStore.Keeps at_work cache key r

/-- What a cache keeps depends on the stores only. -/
theorem Keeps.of_stores_eq (kept : d'.Keeps store cache key r) (same : d'.stores = d.stores) :
    d.Keeps store cache key r := by
  unfold Keeps at kept ⊢
  rw [← same]
  exact kept

/-- What a store keeps after work on it, it kept before, or it comes from the work. -/
theorem Keeps.of_withStore {α : Type} {id : StoreId} {otherwise : α}
    {work : Watched σ → Watched σ × α}
    (kept : (d.withStore id otherwise work).1.Keeps store cache key r) :
    d.Keeps store cache key r ∨
      ∃ at_work, d.stores.get? id = some at_work ∧ store = id ∧
        (work ⟨at_work, []⟩).1.Keeps cache key r := by
  unfold withStore at kept
  cases here : d.stores.get? id with
  | none =>
    rw [here] at kept
    exact .inl kept
  | some at_work =>
    rw [here] at kept
    obtain ⟨after, there, keeps⟩ := kept
    have there : (d.stores.put id (work ⟨at_work, []⟩).1.store).get? store = some after := there
    rw [Table.get?_put] at there
    split at there
    · cases there
      exact .inr ⟨at_work, rfl, eq_of_beq ‹_›, keeps⟩
    · exact .inl ⟨after, there, keeps⟩

/-- A look-up puts nothing into a cache. -/
theorem Keeps.of_lookup {s : Service} {q : Query}
    (kept : (d.lookup s q).1.Keeps store cache key r) : d.Keeps store cache key r := by
  have looks {w : Watched σ} (kept : (s.lookup q w).1.Keeps cache key r) : w.Keeps cache key r := by
    unfold Service.lookup at kept
    split at kept
    · exact kept
    · split at kept
      · exact kept
      · exact Watched.keeps_of_after_getFirst kept
  have same : (d.lookup s q).1.stores = (d.withStore s.store (.ok none) (s.lookup q)).1.stores := by
    unfold lookup
    split <;> rename_i found <;> rw [found]
    rfl
  rcases (kept.of_stores_eq same).of_withStore with before | ⟨at_work, here, rfl, keeps⟩
  · exact before
  · exact ⟨at_work, here, looks keeps⟩

/-- A deposit adds a result that waited, in its place. -/
theorem Keeps.of_settleAt {position : Nat}
    (kept : (d.settleAt position).Keeps store cache key r) :
    d.Keeps store cache key r ∨
      ∃ errand, (errand, r) ∈ d.pending ∧ errand.store = store ∧ errand.cache = cache ∧
        key = r.place errand.key := by
  rcases d.settleAt_cases position with same | ⟨errand, result, waits, deposits⟩
  · rw [same] at kept
    exact .inl kept
  · rw [deposits] at kept
    let rest : Deployment σ := { d with pending := d.pending.eraseIdx position }
    have stored : (rest.withStore errand.store () fun w =>
        (w.deposit errand.cache errand.key result, ())).1.Keeps store cache key r :=
      kept.of_stores_eq rfl
    rcases stored.of_withStore with before | ⟨at_work, here, rfl, keeps⟩
    · exact .inl (before.of_stores_eq rfl)
    · rcases Watched.keeps_of_deposit keeps with ⟨rfl, rfl, rfl⟩ | before
      · exact .inr ⟨errand, waits, rfl, rfl, rfl⟩
      · exact .inl ⟨at_work, here, before⟩

/-- What is kept in a cache after an operation was kept before, or waited to be deposited. -/
theorem Keeps.of_apply {op : Operation σ} (only : op.OnlyForgets cache)
    (kept : (d.apply op).Keeps store cache key r) :
    d.Keeps store cache key r ∨
      ∃ errand, (errand, r) ∈ d.pending ∧ errand.store = store ∧ errand.cache = cache ∧
        key = r.place errand.key := by
  cases op with
  | addStore added =>
    obtain ⟨at_work, there, keeps⟩ := kept
    have there : (d.stores.put ⟨d.serial⟩ added).get? store = some at_work := there
    rw [Table.get?_put] at there
    split at there
    · cases there
      exact absurd keeps (only key r)
    · exact .inl ⟨at_work, there, keeps⟩
  | alterStore id change =>
    obtain ⟨at_work, there, keeps⟩ := kept
    have there : (d.stores.modify id change).get? store = some at_work := there
    rw [Table.get?_modify] at there
    split at there
    · obtain ⟨before, here, rfl⟩ := Option.map_eq_some_iff.1 there
      exact .inl ⟨before, here, only before key r keeps⟩
    · exact .inl ⟨at_work, there, keeps⟩
  | lookup s q => exact .inl (Keeps.of_lookup kept)
  | settleAt position => exact Keeps.of_settleAt kept
  | _ => exact .inl (kept.of_stores_eq (d.stores_apply rfl))

/-- What is kept in a cache after a course of operations was kept before, or was brought home on an
errand, as the outcome of its population. -/
theorem Keeps.of_after (well_kept : d.WellKept) {ops : List (Operation σ)}
    (only : ∀ op ∈ ops, op.OnlyForgets cache) (kept : (d.after ops).Keeps store cache key r) :
    d.Keeps store cache key r ∨
      ∃ errand, (d.UnderWay [] errand ∨ ∃ u ∈ undertakings d ops, u.Sent errand) ∧
        errand.store = store ∧ errand.cache = cache ∧ key = r.place errand.key ∧
        ∃ p, (d.after ops).population? errand.population = some p ∧ p.outcome = some (.ok r) := by
  -- from the last operation backwards, since it is the errands under way then that were sent before
  induction ops using List.reverseRecOn with
  | nil => exact .inl kept
  | append_singleton ops op ih =>
    rw [after_append] at kept ⊢
    have kept_so_far : (d.after ops).WellKept := wellKept_after well_kept ops
    have captured : d.Keeps store cache key r ∨
        ∃ errand, (d.UnderWay [] errand ∨ ∃ u ∈ undertakings d ops, u.Sent errand) ∧
          errand.store = store ∧ errand.cache = cache ∧ key = r.place errand.key ∧
          ∃ p, (d.after ops).population? errand.population = some p ∧ p.outcome = some (.ok r) := by
      rcases Keeps.of_apply (only op (List.mem_append_right _ (List.mem_singleton.2 rfl))) kept with
        earlier | ⟨errand, waits, about⟩
      · exact ih (fun op' among => only op' (List.mem_append_left _ among)) earlier
      · obtain ⟨p, here, outcome_eq⟩ := kept_so_far.obtained _ waits
        exact .inr ⟨errand, UnderWay.of_after well_kept (.pends waits), about.1, about.2.1, about.2.2,
          p, here, outcome_eq⟩
    rcases captured with before | ⟨errand, sent, store_eq, cache_eq, key_eq, p, here, outcome_eq⟩
    · exact .inl before
    · obtain ⟨p', there, grows⟩ := ((d.after ops).apply_changes op).exists_grows kept_so_far here
      obtain ⟨-, -, -, final⟩ := grows.final (by rw [outcome_eq]; exact Option.some_ne_none _)
      refine .inr ⟨errand, sent.imp_right ?_, store_eq, cache_eq, key_eq, p', there,
        final.trans outcome_eq⟩
      rintro ⟨u, undertaken, sent⟩
      rw [undertakings_append]
      exact ⟨u, List.mem_append_left _ undertaken, sent⟩

/-- What the cache of a service keeps was captured by an undertaking, and is kept in its place. -/
theorem exists_capture_of_keeps {s : Service} {ops : List (Operation σ)}
    (only : ∀ op ∈ ops, op.OnlyForgets s.cacheName)
    (kept : (({} : Deployment σ).after ops).Keeps s.store s.cacheName key r) :
    ∃ u ∈ undertakings ({} : Deployment σ) ops,
      u.Captured (({} : Deployment σ).after ops) s r ∧
        ∃ exact_key, CacheKey.ofQuery u.query = .ok exact_key ∧ key = r.place exact_key := by
  rcases kept.of_after wellKept_empty only with ⟨_, nothing, -⟩ | ⟨errand, sent, about⟩
  · cases nothing
  · rcases sent with under_way | ⟨u, undertaken, sent⟩
    · cases under_way with
      | carries member => cases member
      | waits here _ => cases here
      | pends member => cases member
    · obtain ⟨store_eq, cache_eq, key_eq, p, here, outcome_eq⟩ := about
      obtain ⟨p', here', query_eq, -⟩ := begun_after wellKept_empty undertaken
      rw [sent.population_eq] at here
      obtain rfl : p = p' := Option.some.inj (here.symm.trans here')
      exact ⟨u, undertaken,
        ⟨sent.store_eq.symm.trans store_eq, sent.cache_eq.symm.trans cache_eq, p, here, query_eq,
          outcome_eq⟩,
        errand.key, sent.exact_key, key_eq⟩

/-! ## Hits -/

/-- A hit is the first entry that the look-up finds, and answers the query. -/
theorem exists_getFirst_of_lookup {s : Service} {q : Query}
    (hit : (d.lookup s q).2 = .ok (some r)) :
    r.answers q = true ∧ ∃ exact_key at_work key, CacheKey.ofQuery q = .ok exact_key ∧
      d.stores.get? s.store = some at_work ∧
      ((⟨at_work, []⟩ : Watched σ).getFirst s.cacheName exact_key.lookupOrder).2 =
        .ok (some (key, r)) := by
  have answered (entry : Option (CacheKey × CachedResult))
      (is_hit : (LookupAnswer.ofEntry q entry).result = some r) :
      r.answers q = true ∧ ∃ key, entry = some (key, r) := by
    unfold LookupAnswer.ofEntry at is_hit
    split at is_hit
    · cases is_hit
    · split at is_hit
      · cases is_hit
        exact ⟨‹_›, _, rfl⟩
      · cases is_hit
  unfold lookup withStore at hit
  cases here : d.stores.get? s.store with
  | none =>
    rw [here] at hit
    cases hit
  | some at_work =>
    rw [here] at hit
    dsimp only [Service.lookup] at hit
    cases cached : s.definition.resultCache? with
    | none =>
      rw [cached] at hit
      cases hit
    | some cache =>
      cases exact : CacheKey.ofQuery q with
      | error failure =>
        rw [cached, exact] at hit
        cases hit
      | ok exact_key =>
        rw [cached, exact] at hit
        obtain ⟨answers, key, found⟩ := answered _ (Except.ok.inj hit)
        refine ⟨answers, exact_key, at_work, key, rfl, rfl, ?_⟩
        unfold entryOf at found
        split at found
        · rename_i entry first
          rw [first, found]
        · cases found

/-- **A hit comes from a capture that goes with the query.** Whatever happened before, as long as
services alone put results into the cache: a result that a look-up returns answers the query, and it
is the outcome of a population that a service over the same cache started, for a query of the same
pipeline and with the same parameters, with the same filter or none; and if it is not complete, then
also in the same order or none. -/
theorem hit_captured_by_undertaking {s : Service} {q : Query} {ops : List (Operation σ)}
    (only : ∀ op ∈ ops, op.OnlyForgets s.cacheName)
    (hit : ((({} : Deployment σ).after ops).lookup s q).2 = .ok (some r)) :
    r.answers q = true ∧ ∃ u ∈ undertakings ({} : Deployment σ) ops,
      u.Captured (({} : Deployment σ).after ops) s r ∧ u.query.GoesWith q r := by
  obtain ⟨answers, exact_key, at_work, key, exact, here, found⟩ := exists_getFirst_of_lookup hit
  obtain ⟨on_way, kept⟩ := Watched.keeps_of_getFirst found
  obtain ⟨u, undertaken, captured, captured_key, captured_exact, rfl⟩ :=
    exists_capture_of_keeps only ⟨at_work, here, kept⟩
  exact ⟨answers, u, undertaken, captured, Query.goesWith_of_place captured_exact exact on_way⟩

/-- A service captures a query on a run of two rows, which comes to its end or stops there, and the
result is deposited. -/
def twoRowsCaptured (q : Query) (stoppedEarly : Bool) : List (Operation KeyedMap) :=
  [.addRun "first" [("out", ["n"])] [] 0 [],
    .addRun "second" [("out", ["n"])] [] 0 [],
    .addStore {},
    .populate numbersService q ⟨"first", 0⟩ "capturing",
    .engine (.start "first"),
    .engine (.emit "first" "out" [.integer 1]),
    .engine (.emit "first" "out" [.integer 2]),
    .engine (.finish "first" "out" [] stoppedEarly),
    .settleAt 0]

/-- While the two rows are captured nothing comes into the cache but what the service deposits. -/
theorem twoRowsCaptured_onlyForgets (q : Query) (stoppedEarly : Bool) :
    ∀ op ∈ twoRowsCaptured q stoppedEarly, op.OnlyForgets numbersService.cacheName := by
  intro op among
  simp only [twoRowsCaptured, List.mem_cons, List.not_mem_nil, or_false] at among
  rcases among with rfl | rfl | rfl | rfl | rfl | rfl | rfl | rfl | rfl
  case inr.inr.inl =>
    intro key result kept
    cases kept
  all_goals trivial

/-- All rows of a pipeline answer a query that filters, sorts and limits them. -/
theorem hit_captured_by_undertaking_of_all_rows :
    let d := ({} : Deployment KeyedMap).after (twoRowsCaptured { fingerprint := some 7 } false)
    let q : Query :=
      { fingerprint := some 7, filter := some (.equals "n" (.integer 1)), orderBy := ["n"]
        limit := some 1 }
    ∃ (r : CachedResult) (u : Undertaking),
      (d.lookup numbersService q).2 = .ok (some r) ∧ r.isComplete = true ∧
      u.Captured d numbersService r ∧ u.query.GoesWith q r := by
  intro d q
  have hit : ∃ r, (d.lookup numbersService q).2 = .ok (some r) ∧ r.isComplete = true :=
    ⟨_, rfl, rfl⟩
  obtain ⟨r, hit, complete⟩ := hit
  obtain ⟨-, u, -, captured, goes_with⟩ :=
    hit_captured_by_undertaking (twoRowsCaptured_onlyForgets _ _) hit
  exact ⟨r, u, hit, complete, captured, goes_with⟩

/-! ## Hits that are not complete -/

/-- A result that is not complete answers no query that needs more than the captured one. -/
theorem within_of_answers_resultAtEnd {p : Population} {stoppedEarly : Bool} {q : Query}
    (bounded : (p.resultAtEnd stoppedEarly).isComplete = false)
    (answers : (p.resultAtEnd stoppedEarly).answers q = true) :
    q.requestsAggregation = false ∧ q.rank ≤ p.query.rank ∧ q.sourceRank ≤ p.query.sourceRank := by
  cases stoppedEarly with
  | false => cases bounded
  | true =>
    rcases (CachedResult.answers_partialFor_iff p.rows p.query q).1 answers with uncapped | within
    · have complete := (CachedResult.isComplete_partialFor_iff p.rows p.query).2 uncapped
      cases bounded.symm.trans complete
    · exact within

/-- **A bounded hit comes from a capture on the way of the query.** Under the same conditions: a
result that is not complete was captured for a query whose bounds are as wide as those of the query
that is looked up, under the exact key of that one, or else under a looser key on its way, when the
store had nothing under the exact key. So a query without filter and order is answered by captures
of its own key alone. -/
theorem bounded_hit_captured_on_way {s : Service} {q : Query} {ops : List (Operation σ)}
    (only : ∀ op ∈ ops, op.OnlyForgets s.cacheName)
    (hit : ((({} : Deployment σ).after ops).lookup s q).2 = .ok (some r))
    (bounded : r.isComplete = false) :
    let d := ({} : Deployment σ).after ops
    ∃ exact_key captured_key, CacheKey.ofQuery q = .ok exact_key ∧
      (∃ u ∈ undertakings ({} : Deployment σ) ops, u.Captured d s r ∧
        CacheKey.ofQuery u.query = .ok captured_key ∧ q.requestsAggregation = false ∧
        q.rank ≤ u.query.rank ∧ q.sourceRank ≤ u.query.sourceRank) ∧
      (captured_key = exact_key ∨
        captured_key ∈ exact_key.lookupOrder.tail ∧ ∃ at_work,
          d.stores.get? s.store = some at_work ∧
            (ResultStore.get at_work s.cacheName exact_key).2 = .ok none) ∧
      (q.orderBy = [] → q.conditionText = none → captured_key = exact_key) := by
  intro d
  obtain ⟨answers, exact_key, at_work, key, exact, here, found⟩ := exists_getFirst_of_lookup hit
  obtain ⟨on_way, kept⟩ := Watched.keeps_of_getFirst found
  obtain ⟨u, undertaken, captured, captured_key, captured_exact, key_eq⟩ :=
    exists_capture_of_keeps only ⟨at_work, here, kept⟩
  have in_place : r.place captured_key = captured_key :=
    if_neg (by rw [bounded]; exact Bool.false_ne_true)
  obtain rfl : key = captured_key := key_eq.trans in_place
  refine ⟨exact_key, key, exact, ⟨u, undertaken, captured, captured_exact, ?_⟩, ?_, ?_⟩
  · obtain ⟨p, there, query_eq, outcome_eq⟩ := captured.outcome
    have well_kept : d.WellKept := wellKept_after wellKept_empty ops
    obtain ⟨stoppedEarly, rfl⟩ := (well_kept.consistent _ p there).ends_with r outcome_eq
    rw [← query_eq]
    exact within_of_answers_resultAtEnd bounded answers
  · obtain ⟨rest, way⟩ := exact_key.exists_lookupOrder_cons
    rw [way] at found ⊢
    exact (Watched.get_of_getFirst found).imp_right fun ⟨later, missed⟩ =>
      ⟨later, at_work, here, missed⟩
  · intro order condition
    obtain ⟨-, -, condition_eq, order_eq⟩ := CacheKey.ofQuery_eq_ok_iff.1 exact
    rw [CacheKey.lookupOrder_of_bare (order_eq.symm.trans order) (condition_eq.symm.trans condition),
      List.mem_singleton] at on_way
    exact on_way

/-- The first two rows of a pipeline answer a query for the first one. -/
theorem bounded_hit_captured_on_way_of_prefix :
    let d := ({} : Deployment KeyedMap).after
      (twoRowsCaptured { fingerprint := some 7, limit := some 2 } true)
    let q : Query := { fingerprint := some 7, limit := some 1 }
    ∃ (r : CachedResult) (u : Undertaking),
      (d.lookup numbersService q).2 = .ok (some r) ∧ r.isComplete = false ∧
      u.Captured d numbersService r ∧ CacheKey.ofQuery u.query = CacheKey.ofQuery q := by
  intro d q
  have hit : ∃ r, (d.lookup numbersService q).2 = .ok (some r) ∧ r.isComplete = false :=
    ⟨_, rfl, rfl⟩
  obtain ⟨r, hit, bounded⟩ := hit
  obtain ⟨exact_key, captured_key, exact, ⟨u, -, captured, captured_exact, -⟩, -, same⟩ :=
    bounded_hit_captured_on_way (twoRowsCaptured_onlyForgets _ _) hit bounded
  refine ⟨r, u, hit, bounded, captured, ?_⟩
  rw [captured_exact, exact, same rfl rfl]

/-- They also answer a query for the first row that fits a filter, although none of them need fit
it, and no capture has the key of that query. -/
theorem bounded_hit_of_filtered_query :
    let ops := twoRowsCaptured { fingerprint := some 7, limit := some 2 } true
    let q : Query :=
      { fingerprint := some 7, filter := some (.equals "n" (.integer 3)), limit := some 1 }
    (∀ op ∈ ops, op.OnlyForgets numbersService.cacheName) ∧
    (∃ r, ((({} : Deployment KeyedMap).after ops).lookup numbersService q).2 = .ok (some r) ∧
      r.isComplete = false) ∧
    ¬∃ u ∈ undertakings ({} : Deployment KeyedMap) ops,
      CacheKey.ofQuery u.query = CacheKey.ofQuery q := by
  intro ops q
  refine ⟨twoRowsCaptured_onlyForgets _ _, ⟨_, rfl, rfl⟩, ?_⟩
  rintro ⟨u, undertaken, same⟩
  have only_one : undertakings ({} : Deployment KeyedMap) ops =
      [⟨⟨3⟩, numbersService, { fingerprint := some 7, limit := some 2 }⟩] := rfl
  rw [only_one, List.mem_singleton] at undertaken
  subst undertaken
  have conditions := congrArg CacheKey.whereClause (Except.ok.inj same)
  cases conditions

end Deployment

end DataService
