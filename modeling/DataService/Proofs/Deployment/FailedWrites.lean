import DataService.Proofs.Deployment.Errands
import DataService.Proofs.Service.FailedDeposits

/-!
# Writes that fail

A result is written when it is deposited, and any call that this takes may fail. What a failure can
cost is the new result: the population keeps its outcome, it is taken off the board all the same, and
nothing waits for it any more (`failed_write`); to settle all that waits is enough for that
(`landed_settle`). A complete result, written or not, costs no query the answer that it had, of
whichever service. This is what `Service.couldAnswer_deposit` says of one store, and no other store
is touched.
-/

set_option autoImplicit false

namespace DataService.Deployment

variable {σ : Type} {d : Deployment σ} {errand : Delivery} {result : CachedResult} {position : Nat}

/-- The deposit of a result is all that happens to the stores when it is written. -/
theorem get?_stores_settleAt [ResultStore σ] (found : d.pending[position]? = some (errand, result))
    (id : StoreId) :
    (d.settleAt position).stores.get? id =
      if id = errand.store then
        (d.stores.get? id).map fun store =>
          ((⟨store, []⟩ : Watched σ).deposit errand.cache errand.key result).store
      else d.stores.get? id := by
  unfold settleAt settleOne withStore
  rw [found]
  dsimp only
  cases here : d.stores.get? errand.store with
  | none =>
    show d.stores.get? id = _
    split
    · rename_i same
      rw [same, here]
      rfl
    · rfl
  | some store =>
    show (d.stores.put errand.store _).get? id = _
    rw [Table.get?_put]
    by_cases same : id = errand.store
    · rw [if_pos (beq_iff_eq.2 same), if_pos same, same, here]
      rfl
    · rw [if_neg (mt beq_iff_eq.1 same), if_neg same]

section Landing

variable [ResultStore σ] {id : PopulationId} {p : Population} {ops : List (Operation σ)}

/-- A population that has an outcome, and whose result does not wait to be written, has landed: it
is not in flight, and no board names it. -/
theorem landed_after (here : (({} : Deployment σ).after ops).population? id = some p)
    (resolved : p.outcome ≠ none)
    (none_waits : (({} : Deployment σ).after ops).waitingFor id = []) :
    ¬(({} : Deployment σ).after ops).InFlight id ∧
      ∀ board key, (({} : Deployment σ).after ops).flight? board key ≠ some id := by
  have landed : ¬(({} : Deployment σ).after ops).InFlight id :=
    not_inFlight (wellKept_after wellKept_empty ops) here resolved none_waits
  exact ⟨landed, fun board key named => landed (inFlight_of_flight? named)⟩

/-- A population that has an outcome has landed at the latest when all that waits is settled. -/
theorem landed_settle (here : (({} : Deployment σ).after ops).population? id = some p)
    (resolved : p.outcome ≠ none) :
    ¬(({} : Deployment σ).after ops).settle.InFlight id ∧
      ∀ board key, (({} : Deployment σ).after ops).settle.flight? board key ≠ some id := by
  have none_waits : (({} : Deployment σ).after ops).settle.waitingFor id = [] := by
    rw [waitingFor, pending_settle]
    rfl
  rw [settle_eq_after, ← after_append] at none_waits ⊢
  obtain ⟨p', there, grows⟩ := exists_grows_after (wellKept_after wellKept_empty ops) here _
  rw [← after_append] at there
  obtain ⟨-, -, -, final⟩ := grows.final resolved
  exact landed_after there (by rwa [final]) none_waits

end Landing

variable [UnreliableStore σ]

/-- A look-up of the query by the service would hit, if no call on its store failed. -/
def CouldAnswer (d : Deployment σ) (s : Service) (q : Query) : Prop :=
  ∃ store, d.stores.get? s.store = some store ∧ s.CouldAnswer store q

/-- A deposit of a complete result takes no answer from any query, even if its write fails. -/
theorem couldAnswer_settleAt {s : Service} {q : Query} (could : d.CouldAnswer s q)
    (found : d.pending[position]? = some (errand, result)) (complete : result.isComplete = true) :
    (d.settleAt position).CouldAnswer s q := by
  obtain ⟨store, here, answers⟩ := could
  unfold CouldAnswer
  rw [get?_stores_settleAt found]
  by_cases same : s.store = errand.store
  · rw [if_pos same, here, Option.map_some]
    exact ⟨_, rfl, Service.couldAnswer_deposit answers errand.cache errand.key complete⟩
  · rw [if_neg same]
    exact ⟨store, here, answers⟩

/-- **Store failures cost at most the new result.** On stores where every single call may fail, and
whatever operations came before: if a population that was started has a result, then either this was
written and the population is no longer in flight, or it waits at some position to be written. The
write leaves every population as it is. With it the population is no longer in flight, and no board
names it; so it is at the latest when all that waits is settled. If the result is complete, every
query that a service could answer before, if no look-up failed, it can still answer. -/
theorem failed_write (ops : List (Operation σ)) (u : Undertaking)
    (undertaken : u ∈ undertakings ({} : Deployment σ) ops) (p : Population)
    (here : (({} : Deployment σ).after ops).population? u.population = some p)
    (result : CachedResult) (ended : p.outcome = some (.ok result)) :
    let d := ({} : Deployment σ).after ops
    ((¬d.InFlight u.population ∧ ∀ board key, d.flight? board key ≠ some u.population) ∨
    ∃ position errand, d.pending[position]? = some (errand, result) ∧ u.Sent errand ∧
      let d' := d.settleAt position
      d'.populations = d.populations ∧
      ¬d'.InFlight u.population ∧
      (∀ board key, d'.flight? board key ≠ some u.population) ∧
      (result.isComplete = true → ∀ s q, d.CouldAnswer s q → d'.CouldAnswer s q)) ∧
    ¬d.settle.InFlight u.population ∧
      ∀ board key, d.settle.flight? board key ≠ some u.population := by
  intro d
  obtain ⟨begun, -, -, exact_key⟩ := begun_after wellKept_empty undertaken
  have resolved : p.outcome ≠ none := by
    rw [ended]
    exact Option.some_ne_none _
  refine ⟨?_, landed_settle here resolved⟩
  cases onErrand_after wellKept_empty undertaken exact_key with
  | waits there unresolved =>
    obtain rfl := Option.some.inj (there.symm.trans here)
    exact absurd unresolved resolved
  | done there resolved' none_waits => exact .inl (landed_after there resolved' none_waits)
  | @pends q result' there ended' once =>
    obtain rfl : p = q := Option.some.inj (here.symm.trans there)
    obtain rfl : result' = result := Except.ok.inj (Option.some.inj (ended'.symm.trans ended))
    have waits : (u.errand begun.key, result') ∈ d.pending := by
      refine (List.mem_filter.1 (?_ : _ ∈ d.waitingFor u.population)).1
      rw [show d.waitingFor u.population = _ from once]
      exact List.mem_singleton_self _
    obtain ⟨position, found⟩ := List.mem_iff_getElem?.1 waits
    refine .inr ⟨position, _, found, ⟨rfl, rfl, rfl, exact_key⟩, ?_⟩
    intro d'
    have as_course : d' = ({} : Deployment σ).after (ops ++ [.settleAt position]) := by
      rw [after_append]
      rfl
    have still : d'.population? u.population = some p := by
      unfold population?
      rw [populations_settleAt]
      exact here
    obtain ⟨-, none_waits⟩ := waitingFor_settleAt_of_once found once
    rw [as_course] at still
    obtain ⟨landed, unnamed⟩ := landed_after still resolved (by rwa [← as_course])
    rw [← as_course] at landed unnamed
    refine ⟨populations_settleAt d position, landed, unnamed, ?_⟩
    intro complete s q could
    exact couldAnswer_settleAt could found complete

/-- An evict fails when the complete result of an ordered query is written, under the key of which a
bounded result is held. -/
def failedEvict : List (Operation (ScriptedStore KeyedMap)) :=
  let byDay : Query := { fingerprint := some 7, orderBy := ["day"] }
  [.addRun "first" [("out", ["n"])] [] 0 [],
    .addRun "second" [("out", ["n"])] [] 0 [],
    .addStore { inner := {}, evicts := [some (.backend "down")] },
    .populate numbersService { byDay with rowLimit := some 2 } ⟨"first", 0⟩ "two rows",
    .engine (.start "first"),
    .engine (.emit "first" "out" [.integer 1]),
    .engine (.finish "first" "out" [] true),
    .settleAt 0,
    .populate numbersService byDay ⟨"second", 1⟩ "all rows",
    .engine (.start "second"),
    .engine (.emit "second" "out" [.integer 1]),
    .engine (.finish "second" "out" [] false)]

/-- The evict is the last call of the write. The query that the bounded result answered could be
answered before and still can. -/
theorem failed_write_evict :
    let d := ({} : Deployment (ScriptedStore KeyedMap)).after failedEvict
    let capped : Query := { fingerprint := some 7, orderBy := ["day"], rowLimit := some 2 }
    (∃ cache key, (d.settleAt 0).events.getLast? =
        some (.storeCalled ⟨2⟩ ⟨.evict, cache, key, some (.backend "down")⟩)) ∧
      d.CouldAnswer numbersService capped ∧
      ∃ position, (d.settleAt position).CouldAnswer numbersService capped ∧
        ¬(d.settleAt position).InFlight ⟨4⟩ := by
  have ended : ∃ p result, (({} : Deployment (ScriptedStore KeyedMap)).after
      failedEvict).population? ⟨4⟩ = some p ∧ p.outcome = some (.ok result) ∧
        result.isComplete = true := ⟨_, _, rfl, rfl, rfl⟩
  intro d capped
  have in_flight : d.InFlight ⟨4⟩ := .inr (List.cons_ne_nil _ _)
  have could : d.CouldAnswer numbersService capped := ⟨_, rfl, _, rfl⟩
  have undertaken : (⟨⟨4⟩, numbersService, { fingerprint := some 7, orderBy := ["day"] }⟩ :
      Undertaking) ∈ undertakings ({} : Deployment (ScriptedStore KeyedMap)) failedEvict :=
    List.mem_cons_of_mem _ List.mem_cons_self
  obtain ⟨p, result, here, outcome_eq, complete⟩ := ended
  obtain ⟨written, -⟩ := failed_write failedEvict _ undertaken p here result outcome_eq
  rcases written with ⟨landed, -⟩ | ⟨position, errand, -, -, -, landed, -, answers⟩
  · exact absurd in_flight landed
  · exact ⟨⟨_, _, rfl⟩, could, position, answers complete numbersService capped could, landed⟩

end DataService.Deployment
