import DataService.Proofs.Deployment.Joining

/-!
# What becomes of an errand

A service that starts a population sends one errand after its result. From then on the errand is at
one of three places (`OnErrand`): it waits with its population, which is unresolved; it waits with the
result, once and nowhere else; or it is done, and then the board does not name the population, and
never will again. `onErrand_after` follows it along a course of operations.

At the first two places a population that nothing bounds is named by the board. This is part of
`OnErrand`, because it is what keeps such a population from being displaced: as long as the board
names it, every query of its key is attached to it (`populate_of_named`), so that no other population
can be entered in its place.
-/

set_option autoImplicit false

namespace DataService

/-- The errand on which the service of an undertaking sends for the result under an exact key. -/
def Undertaking.errand (u : Undertaking) (key : CacheKey) : Delivery where
  service := u.service.name
  cache := u.service.cacheName
  key := key
  population := u.population
  store := u.service.store
  board := u.service.board

/-- A list falls apart at each of its positions, and without the item there the parts are left. -/
theorem exists_append_of_getElem? {α : Type} {l : List α} {i : Nat} {a : α}
    (found : l[i]? = some a) :
    ∃ before behind, l = before ++ a :: behind ∧ l.eraseIdx i = before ++ behind := by
  obtain ⟨within, rfl⟩ := List.getElem?_eq_some_iff.1 found
  refine ⟨l.take i, l.drop (i + 1), ?_, List.eraseIdx_eq_take_drop_succ l i⟩
  rw [← List.drop_eq_getElem_cons within, List.take_append_drop]

namespace Deployment

variable {σ : Type} {d d' : Deployment σ} {errand : Delivery} {id : PopulationId} {p : Population}

/-- The results of a population that wait to be deposited, each with its errand. -/
def waitingFor (d : Deployment σ) (id : PopulationId) : List (Delivery × CachedResult) :=
  d.pending.filter fun waiting => waiting.1.population = id

/-- The population is unresolved, or its result waits to be deposited. -/
def InFlight (d : Deployment σ) (id : PopulationId) : Prop :=
  d.isResolved id = false ∨ d.waitingFor id ≠ []

/-- A population that has resolved, and for which nothing waits, is not in flight. -/
theorem not_inFlight (kept : d.WellKept) (here : d.population? id = some p)
    (resolved : p.outcome ≠ none) (none_waits : d.waitingFor id = []) : ¬d.InFlight id := by
  rintro (unresolved | waits)
  · rw [isResolved_eq here (kept.consistent id p here).sound, Option.isSome_eq_false_iff,
      Option.isNone_iff_eq_none] at unresolved
    exact resolved unresolved
  · exact waits none_waits

/-- How far the errand after a population has come. -/
inductive OnErrand (d : Deployment σ) (errand : Delivery) : Prop
  /-- It waits with the population. -/
  | waits {p : Population} (here : d.population? errand.population = some p)
    (unresolved : p.outcome = none) (alone : errandsAll p.waiters = [errand])
    (none_waits : d.waitingFor errand.population = [])
    (named : p.query.Uncapped → d.flight? errand.board errand.key = some errand.population) :
    OnErrand d errand
  /-- It waits with the result to be deposited. -/
  | pends {p : Population} {result : CachedResult}
    (here : d.population? errand.population = some p) (ended : p.outcome = some (.ok result))
    (once : d.waitingFor errand.population = [(errand, result)])
    (named : p.query.Uncapped → d.flight? errand.board errand.key = some errand.population) :
    OnErrand d errand
  | done {p : Population} (here : d.population? errand.population = some p)
    (resolved : p.outcome ≠ none) (none_waits : d.waitingFor errand.population = [])
    (gone : d.flight? errand.board errand.key ≠ some errand.population) : OnErrand d errand

/-- The population is unchanged as far as its errand goes, and so are the results that wait for it
and its place on the board. -/
theorem OnErrand.congr (on : d.OnErrand errand)
    (population : ∀ p, d.population? errand.population = some p →
      ∃ p', d'.population? errand.population = some p' ∧ p'.outcome = p.outcome ∧
        errandsAll p'.waiters = errandsAll p.waiters ∧ p'.query = p.query)
    (waiting : d'.waitingFor errand.population = d.waitingFor errand.population)
    (before : d'.flight? errand.board errand.key = some errand.population →
      d.flight? errand.board errand.key = some errand.population)
    (stays : ∀ p, d.population? errand.population = some p → p.query.Uncapped →
      d.flight? errand.board errand.key = some errand.population →
      d'.flight? errand.board errand.key = some errand.population) : d'.OnErrand errand := by
  cases on with
  | @waits p here unresolved alone none_waits named =>
    obtain ⟨p', here', outcome_eq, errands_eq, query_eq⟩ := population p here
    refine .waits here' (outcome_eq.trans unresolved) (errands_eq.trans alone)
      (waiting.trans none_waits) fun uncapped => ?_
    rw [query_eq] at uncapped
    exact stays p here uncapped (named uncapped)
  | @pends p result here ended once named =>
    obtain ⟨p', here', outcome_eq, -, query_eq⟩ := population p here
    refine .pends here' (outcome_eq.trans ended) (waiting.trans once) fun uncapped => ?_
    rw [query_eq] at uncapped
    exact stays p here uncapped (named uncapped)
  | done here resolved none_waits gone =>
    obtain ⟨p', here', outcome_eq, -, -⟩ := population _ here
    exact .done here' (by rw [outcome_eq]; exact resolved) (waiting.trans none_waits)
      fun named => gone (before named)

/-- How far an errand has come depends on the populations, on the boards and on what is pending. -/
theorem OnErrand.of_eq (on : d.OnErrand errand) (populations : d'.populations = d.populations)
    (boards : d'.boards = d.boards) (pending : d'.pending = d.pending) : d'.OnErrand errand := by
  have flights : d'.flight? errand.board errand.key = d.flight? errand.board errand.key := by
    unfold flight? board
    rw [boards]
  refine on.congr ?_ ?_ (fun named => flights ▸ named) (fun _ _ _ named => flights.trans named)
  · intro p here
    refine ⟨p, ?_, rfl, rfl, rfl⟩
    unfold population?
    rw [populations]
    exact here
  · unfold waitingFor
    rw [pending]

/-! ## Informing waiters -/

/-- Waiters that are informed of a result take nothing off a board. -/
theorem boards_informAll_ok (result : CachedResult) (ws : List Waiter) (d : Deployment σ) :
    (informAll (.ok result) ws d).boards = d.boards := by
  rw [informAll_eq_foldl]
  induction callsAll ws generalizing d with
  | nil => rfl
  | cons call calls ih =>
    rw [List.foldl_cons, ih]
    cases call <;> rfl

/-- Waiters that are informed of a failure take off the boards what their errands concern. -/
theorem flight?_informAll_error_iff (failure : Failure) (ws : List Waiter) (d : Deployment σ)
    (board : BoardId) (key : CacheKey) (id : PopulationId) :
    (informAll (.error failure) ws d).flight? board key = some id ↔
      d.flight? board key = some id ∧
        ∀ errand ∈ errandsAll ws, errand.concerns board key id = false := by
  rw [informAll_eq_foldl]
  unfold errandsAll
  induction callsAll ws generalizing d with
  | nil => simp
  | cons call calls ih =>
    rw [List.foldl_cons, ih]
    cases call with
    | announce tag => rfl
    | deliver errand =>
      have served := flight?_clearFlight_iff
        (d.measure (·.addPopulation errand.service .failed 0)) errand board key id
      have next : (Call.deliver errand :: calls).filterMap Call.errand? =
          errand :: calls.filterMap Call.errand? := rfl
      rw [next, List.forall_mem_cons, ← and_assoc]
      exact and_congr_left' served

/-- Waiters without errands after a population do nothing to its errand. -/
theorem OnErrand.informed (on : d.OnErrand errand) {ws : List Waiter}
    (others : ∀ e ∈ errandsAll ws, e.population ≠ errand.population) (outcome : Outcome) :
    (informAll outcome ws d).OnErrand errand := by
  have population (p : Population) (here : d.population? errand.population = some p) :
      ∃ p', (informAll outcome ws d).population? errand.population = some p' ∧
        p'.outcome = p.outcome ∧ errandsAll p'.waiters = errandsAll p.waiters ∧
        p'.query = p.query :=
    ⟨p, (population?_informAll outcome ws d _).trans here, rfl, rfl, rfl⟩
  cases outcome with
  | ok result =>
    have flights : (informAll (.ok result) ws d).flight? errand.board errand.key =
        d.flight? errand.board errand.key := by
      unfold flight? board
      rw [boards_informAll_ok]
    refine on.congr population ?_ (fun named => flights ▸ named)
      (fun _ _ _ named => flights.trans named)
    unfold waitingFor
    rw [pending_informAll_ok, List.filter_append, List.append_right_eq_self,
      List.filter_eq_nil_iff]
    intro waiting waits
    obtain ⟨e, on_errand, rfl⟩ := List.mem_map.1 waits
    simpa using others e on_errand
  | error failure =>
    have flights := flight?_informAll_error_iff failure ws d errand.board errand.key
      errand.population
    refine on.congr population ?_ (fun named => (flights.1 named).1) fun _ _ _ named =>
      flights.2 ⟨named, fun e on_errand => ?_⟩
    · unfold waitingFor
      rw [pending_informAll_error]
    · refine Bool.eq_false_iff.2 fun concerns => ?_
      exact others e on_errand (Delivery.population_eq_of_concerns concerns)

/-- The errand of a population that ends is done if it failed, and waits with the result if there
is one. -/
theorem onErrand_informAll (here : d.population? errand.population = some p) {outcome : Outcome}
    (ended : p.outcome = some outcome) {ws : List Waiter} (alone : errandsAll ws = [errand])
    (none_waits : d.waitingFor errand.population = [])
    (named : p.query.Uncapped → d.flight? errand.board errand.key = some errand.population) :
    (informAll outcome ws d).OnErrand errand := by
  have here' := (population?_informAll outcome ws d errand.population).trans here
  cases outcome with
  | ok result =>
    refine .pends here' ended ?_ fun uncapped => ?_
    · unfold waitingFor at none_waits ⊢
      rw [pending_informAll_ok, alone, List.filter_append, none_waits, List.nil_append]
      simp
    · unfold flight? board
      rw [boards_informAll_ok]
      exact named uncapped
  | error failure =>
    refine .done here' (by rw [ended]; exact Option.some_ne_none _) ?_ fun still => ?_
    · unfold waitingFor at none_waits ⊢
      rw [pending_informAll_error]
      exact none_waits
    · have concerns : errand.concerns errand.board errand.key errand.population = true :=
        decide_eq_true ⟨rfl, rfl, rfl⟩
      obtain ⟨-, spared⟩ := (flight?_informAll_error_iff _ _ _ _ _ _).1 still
      have spared := spared errand (by rw [alone]; exact List.mem_singleton_self errand)
      rw [concerns] at spared
      cases spared

/-! ## Moves -/

/-- A population changes, but not what its errand depends on. -/
theorem OnErrand.modifyPopulation (on : d.OnErrand errand) {f : Population → Population}
    (keeps : ∀ p, d.population? id = some p → id = errand.population →
      (f p).outcome = p.outcome ∧ errandsAll (f p).waiters = errandsAll p.waiters ∧
        (f p).query = p.query) : (d.modifyPopulation id f).OnErrand errand := by
  refine on.congr ?_ rfl (fun named => named) (fun _ _ _ named => named)
  intro p here
  by_cases same : errand.population = id
  · rw [same] at here ⊢
    exact ⟨f p, population?_modifyPopulation_self here f, keeps p here same.symm⟩
  · exact ⟨p, (d.population?_modifyPopulation_of_ne same f).trans here, rfl, rfl, rfl⟩

/-- Whatever runs and populations do, no errand is lost. -/
theorem Moves.onErrand {reach : PopulationId → Prop} (h : Moves reach d d') (kept : d.WellKept)
    (on : d.OnErrand errand) : d'.OnErrand errand := by
  induction h with
  | alike same => exact on.of_eq same.populations_eq same.boards_eq same.pending_eq
  | goesOn _ goes_on =>
    refine on.modifyPopulation fun p here _ => ?_
    have grows := (goes_on p here).grows (kept.consistent _ p here)
    exact ⟨(goes_on p here).outcome_eq, by rw [(goes_on p here).waiters_eq], grows.query_eq⟩
  | @ends d id p outcome _ here unresolved _ =>
    have own := kept.own id p here
    by_cases same : id = errand.population
    · -- the population of the errand ends, so the errand waits with it
      subst same
      cases on with
      | @waits q there _ alone none_waits named =>
        obtain rfl : p = q := Option.some.inj (here.symm.trans there)
        exact onErrand_informAll
          (population?_modifyPopulation_self here fun _ => p.ended outcome) rfl alone none_waits
          named
      | pends there ended =>
        obtain rfl := Option.some.inj (here.symm.trans there)
        rw [unresolved] at ended
        cases ended
      | done there resolved =>
        obtain rfl := Option.some.inj (here.symm.trans there)
        exact absurd unresolved resolved
    · refine OnErrand.informed (on.modifyPopulation fun _ _ about => absurd about same) ?_ outcome
      intro e on_errand
      rw [own e on_errand]
      exact same
  | trans first _ ih ih' => exact ih' (first.wellKept kept) (ih kept on)

/-! ## Registrations -/

/-- A waiter that is registered brings no errand after the population of another one. -/
theorem OnErrand.registers (on : d.OnErrand errand) {waiter : Waiter}
    (here : d.population? id = some p)
    (others : ∀ e ∈ errandsAll [waiter], e.population = id ∧ e.population ≠ errand.population) :
    (d.onResolved id waiter).OnErrand errand := by
  cases settled : p.outcome with
  | none =>
    rw [onResolved_of_unresolved here settled]
    refine on.modifyPopulation fun q there about => ?_
    obtain rfl : p = q := Option.some.inj (here.symm.trans there)
    have nothing : errandsAll [waiter] = [] := by
      refine List.eq_nil_iff_forall_not_mem.2 fun e on_errand => ?_
      exact (others e on_errand).2 ((others e on_errand).1.trans about)
    exact ⟨rfl, by rw [errandsAll_append, nothing, List.append_nil], rfl⟩
  | some outcome =>
    rw [onResolved_of_resolved here settled]
    refine OnErrand.informed (on.modifyPopulation fun q there _ => ?_)
      (fun e on_errand => (others e on_errand).2) outcome
    obtain rfl : p = q := Option.some.inj (here.symm.trans there)
    exact ⟨rfl, rfl, rfl⟩

/-- The service that registers with a population that no one waits for sends its errand. -/
theorem onErrand_onResolved (here : d.population? errand.population = some p)
    (alone : p.waiters = []) (none_waits : d.waitingFor errand.population = [])
    (named : d.flight? errand.board errand.key = some errand.population) :
    (d.onResolved errand.population (.deliver errand)).OnErrand errand := by
  cases settled : p.outcome with
  | none =>
    rw [onResolved_of_unresolved here settled]
    refine .waits (population?_modifyPopulation_self here _) settled ?_ none_waits fun _ => named
    rw [errandsAll_append, alone]
    rfl
  | some outcome =>
    rw [onResolved_of_resolved here settled]
    exact onErrand_informAll (population?_modifyPopulation_self here fun _ => p) settled rfl
      none_waits fun _ => named

/-! ## Populating -/

/-- The population that an errand is about is there, however far the errand has come. -/
theorem OnErrand.exists_population? (on : d.OnErrand errand) :
    ∃ p, d.population? errand.population = some p := by
  cases on with
  | waits here => exact ⟨_, here⟩
  | pends here => exact ⟨_, here⟩
  | done here => exact ⟨_, here⟩

/-- A population that nothing bounds can answer every query. -/
theorem canAnswer_of_uncapped (here : d.population? id = some p) (uncapped : p.query.Uncapped)
    (q : Query) : d.canAnswer id q = true := by
  unfold canAnswer
  rw [here, Option.any_some, Population.canAnswer, CachedResult.answers,
    (CachedResult.isComplete_partialFor_iff [] p.query).2 uncapped, Bool.true_or]

section

variable (s : Service) (q : Query) (run : RunId) (label : String)

/-- A query is attached to the population that the board names for its key, if that can answer it. -/
theorem populate_of_named {key : CacheKey} (cached : s.definition.resultCache?.isSome = true)
    (exact_key : CacheKey.ofQuery q = .ok key) (named : d.flight? s.board key = some id)
    (can : d.canAnswer id q = true) :
    d.populate s q run label =
      (d.measure (·.add (.attachments s.name) 1), .ok (.attached id)) := by
  obtain ⟨cache, is_cached⟩ := Option.isSome_iff_exists.1 cached
  have at_key : (d.board s.board).get? key = some id := named
  unfold populate
  rw [is_cached, exact_key]
  dsimp only
  rw [at_key]
  exact if_pos can

/-- A service that populates its cache changes the metrics at most, or it starts a population for a
key where the board names none that can answer the query. -/
theorem populate_cases_of_spared (d : Deployment σ) :
    (∃ d' answer, d.populate s q run label = (d', answer) ∧ d.Alike d' ∧
      ∀ id, answer ≠ .ok (.started id)) ∨
    ∃ key, CacheKey.ofQuery q = .ok key ∧
      (∀ id, d.flight? s.board key = some id → d.canAnswer id q = false) ∧
      d.populate s q run label = d.startPopulation s q key run label (d.flight? s.board key) := by
  rcases d.populate_cases s q run label with alike | ⟨key, exact_key, start⟩
  · exact .inl alike
  · by_cases can : ∃ id, d.flight? s.board key = some id ∧ d.canAnswer id q = true
    · obtain ⟨id, named, can⟩ := can
      cases cached : s.definition.resultCache? with
      | none =>
        have failed : d.populate s q run label =
            (d, .error (.configuration (.noResultCache s.name))) := by
          unfold populate
          rw [cached]
        exact .inl ⟨_, _, failed, .refl d, by simp⟩
      | some cache =>
        have attached := populate_of_named s q run label (by rw [cached]; rfl) exact_key named can
        exact .inl ⟨_, _, attached, d.measure_alike _, by simp⟩
    · refine .inr ⟨key, exact_key, fun id named => Bool.eq_false_iff.2 fun able => ?_, start⟩
      exact can ⟨id, named, able⟩

variable {key : CacheKey}

/-- The place where a population is entered is not that of one that nothing bounds. -/
theorem apart_of_spared (spared : ∀ id, d.flight? s.board key = some id → d.canAnswer id q = false)
    (here : d.population? errand.population = some p) (uncapped : p.query.Uncapped)
    (named : d.flight? errand.board errand.key = some errand.population) :
    ¬(errand.board = s.board ∧ errand.key = key) := by
  rintro ⟨same_board, same_key⟩
  rw [same_board, same_key] at named
  have cannot := spared _ named
  rw [canAnswer_of_uncapped here uncapped] at cannot
  cases cannot

/-- An errand stays where it is when another population is made and noted, if that displaces none
that could answer for it. -/
theorem OnErrand.entered (on : d.OnErrand errand) (kept : d.WellKept)
    (spared : ∀ id, d.flight? s.board key = some id → d.canAnswer id q = false) :
    (d.entered s q key label).OnErrand errand := by
  have flights := d.flight?_entered s q key label errand.board errand.key
  refine on.congr ?_ rfl ?_ ?_
  · intro p here
    exact ⟨p, (population?_entered_of_some s q key label kept here).2, rfl, rfl, rfl⟩
  · intro named
    rw [flights] at named
    split at named
    · obtain ⟨p, here⟩ := on.exists_population?
      exact absurd (Option.some.inj named).symm (kept.ne_serial here)
    · exact named
  · intro p here uncapped named
    rw [flights, if_neg (apart_of_spared s q spared here uncapped named)]
    exact named

/-- A population that is refused does nothing to the errand after another one. -/
theorem OnErrand.refused (on : d.OnErrand errand) (kept : d.WellKept)
    (spared : ∀ id, d.flight? s.board key = some id → d.canAnswer id q = false) :
    (((d.entered s q key label).install ⟨d.serial⟩ run).withdraw s.board key ⟨d.serial⟩
      (d.flight? s.board key)).OnErrand errand := by
  have flights := flight?_refused s q key run label d (d.flight? s.board key) errand.board
    errand.key
  refine on.congr ?_ ?_ ?_ ?_
  · intro p here
    exact ⟨p, population?_installed_of_some s q key run label kept here, rfl, rfl, rfl⟩
  · exact congrArg (List.filter _) (installed_quiet s q key run label d).2.1
  · intro named
    rw [flights] at named
    split at named
    · rename_i place
      rw [place.1, place.2]
      exact (Option.filter_eq_some_iff.1 named).1
    · exact named
  · intro p here uncapped named
    rw [flights, if_neg (apart_of_spared s q spared here uncapped named)]
    exact named

/-- A service that starts a population sends an errand after it and leaves the others alone. -/
theorem startPopulation_onErrand (kept : d.WellKept) :
    let started := d.startPopulation s q key run label (d.flight? s.board key)
    (∀ id, started.2 = .ok (.started id) →
      started.1.OnErrand ((Undertaking.mk id s q).errand key)) ∧
    ((∀ id, d.flight? s.board key = some id → d.canAnswer id q = false) →
      ∀ errand, d.OnErrand errand → started.1.OnErrand errand) := by
  intro started
  let installed := (d.entered s q key label).install ⟨d.serial⟩ run
  obtain ⟨-, pending_eq, alone⟩ := installed_quiet s q key run label d
  rcases d.startPopulation_cases s q key run label (d.flight? s.board key) with
    ⟨failure, refused⟩ | begun
  · rw [show started = _ from refused]
    refine ⟨nofun, fun spared errand on => ?_⟩
    exact (on.refused s q run label kept spared).of_eq rfl rfl rfl
  · rw [show started = _ from begun]
    have entered_kept := kept.entered s q key label
    have moves := (d.entered s q key label).install_moves ⟨d.serial⟩ run
    obtain ⟨p, at_id, -⟩ := moves.exists_grows entered_kept
      ((population?_entered s q key label d ⟨d.serial⟩).trans (if_pos rfl))
    refine ⟨?_, ?_⟩
    · rintro _ ⟨⟩
      let errand := (Undertaking.mk ⟨d.serial⟩ s q).errand key
      have at_errand : (installed.reportFlights s).population? errand.population = some p := at_id
      refine onErrand_onResolved at_errand (alone p at_id) ?_ ?_
      · -- what waits is about populations made earlier
        show installed.pending.filter _ = []
        rw [pending_eq, List.filter_eq_nil_iff]
        intro waiting waits
        obtain ⟨earlier, there, -⟩ := kept.obtained waiting waits
        exact fun same => kept.ne_serial there (of_decide_eq_true same)
      · exact (flight?_installed s q key run label d s.board key).trans (if_pos ⟨rfl, rfl⟩)
    · intro spared errand on
      have installed_on := moves.onErrand entered_kept (on.entered s q label kept spared)
      have reported_on : (installed.reportFlights s).OnErrand errand :=
        installed_on.of_eq rfl rfl rfl
      refine reported_on.registers at_id fun e on_errand => ?_
      rw [errandsAll_deliver, List.mem_singleton] at on_errand
      rw [on_errand]
      obtain ⟨q, there⟩ := on.exists_population?
      exact ⟨rfl, (kept.ne_serial there).symm⟩

end

/-! ## Deposits -/

section

variable [ResultStore σ]

/-- A deposit works on a store and takes the population of its errand off the board. -/
theorem exists_settleAt_eq {position : Nat} {result : CachedResult}
    (found : d.pending[position]? = some (errand, result)) :
    ∃ stored : Deployment σ,
      ({ d with pending := d.pending.eraseIdx position } : Deployment σ).Alike stored ∧
        stored.metrics = d.metrics ∧ d.settleAt position = stored.clearFlight errand := by
  let taken : Deployment σ := { d with pending := d.pending.eraseIdx position }
  let work (w : Watched σ) : Watched σ × Unit :=
    (w.deposit errand.cache errand.key result, ())
  refine ⟨_, taken.withStore_alike errand.store () work,
    taken.metrics_withStore errand.store () work, ?_⟩
  unfold settleAt
  rw [found]
  rfl

/-- Where nothing waits to be deposited there is nothing to settle. -/
theorem settleAt_of_none {position : Nat} (nothing : d.pending[position]? = none) :
    d.settleAt position = d := by
  unfold settleAt
  rw [nothing]

/-- A deposit leaves the populations alone, whether the write fails or not. -/
theorem populations_settleAt (d : Deployment σ) (position : Nat) :
    (d.settleAt position).populations = d.populations := by
  cases found : d.pending[position]? with
  | none => rw [settleAt_of_none found]
  | some waiting =>
    obtain ⟨stored, alike, -, settles⟩ := exists_settleAt_eq found
    rw [settles]
    exact alike.populations_eq

/-- A deposit takes its own population off its own board, and no other one off any. -/
theorem flight?_settleAt_iff {position : Nat} {result : CachedResult}
    (found : d.pending[position]? = some (errand, result)) (board : BoardId) (key : CacheKey)
    (id : PopulationId) :
    (d.settleAt position).flight? board key = some id ↔
      d.flight? board key = some id ∧ errand.concerns board key id = false := by
  obtain ⟨stored, alike, -, settles⟩ := exists_settleAt_eq found
  have same : stored.flight? board key = d.flight? board key := by
    unfold flight? Deployment.board
    rw [alike.boards_eq]
  rw [settles, flight?_clearFlight_iff, same]

/-- What waits for a population before a deposit and after it. -/
theorem exists_waitingFor_eq {position : Nat} {result : CachedResult}
    (found : d.pending[position]? = some (errand, result)) (id : PopulationId) :
    ∃ before behind,
      d.waitingFor id =
        before ++ (if errand.population = id then [(errand, result)] else []) ++ behind ∧
      (d.settleAt position).waitingFor id = before ++ behind := by
  obtain ⟨stored, alike, -, settles⟩ := exists_settleAt_eq found
  obtain ⟨before, behind, pending_eq, left_eq⟩ := exists_append_of_getElem? found
  refine ⟨before.filter fun waiting => waiting.1.population = id,
    behind.filter fun waiting => waiting.1.population = id, ?_, ?_⟩
  · unfold waitingFor
    rw [pending_eq, List.filter_append, List.filter_cons, List.append_assoc]
    simp only [decide_eq_true_eq]
    split <;> rfl
  · have pending : (d.settleAt position).pending = before ++ behind := by
      rw [settles]
      exact alike.pending_eq.trans left_eq
    unfold waitingFor
    rw [pending, List.filter_append]

/-- What waits alone for a population is gone after its deposit. -/
theorem waitingFor_settleAt_of_once {position : Nat} {result : CachedResult}
    {once : Delivery × CachedResult} (found : d.pending[position]? = some (errand, result))
    (alone : d.waitingFor errand.population = [once]) :
    once = (errand, result) ∧ (d.settleAt position).waitingFor errand.population = [] := by
  obtain ⟨before, behind, waits, left⟩ := exists_waitingFor_eq found errand.population
  rw [if_pos rfl, alone, List.append_assoc, eq_comm, List.append_eq_singleton_iff] at waits
  obtain ⟨none_before, same, none_behind⟩ :
      before = [] ∧ (errand, result) = once ∧ behind = [] := by simpa using waits
  exact ⟨same.symm, by rw [left, none_before, none_behind, List.append_nil]⟩

/-- A deposit ends the errand that it carries out, and no other one. -/
theorem OnErrand.settleAt (on : d.OnErrand errand) (position : Nat) :
    (d.settleAt position).OnErrand errand := by
  have populations (id : PopulationId) :
      (d.settleAt position).population? id = d.population? id := by
    unfold population?
    rw [populations_settleAt]
  cases found : d.pending[position]? with
  | none =>
    rw [settleAt_of_none found]
    exact on
  | some waiting =>
    obtain ⟨carried, result⟩ := waiting
    have flights := flight?_settleAt_iff found errand.board errand.key errand.population
    obtain ⟨before, behind, waits, left⟩ := exists_waitingFor_eq found errand.population
    by_cases about : carried.population = errand.population
    · rw [if_pos about] at waits
      -- only the errand itself can wait for its population, so this is the one
      cases on with
      | waits _ _ _ none_waits => simp [waits] at none_waits
      | done _ _ none_waits => simp [waits] at none_waits
      | pends here ended once =>
        rw [← about] at once
        obtain ⟨same, nothing⟩ := waitingFor_settleAt_of_once found once
        obtain rfl : errand = carried := congrArg Prod.fst same
        refine .done ((populations _).trans here) (by rw [ended]; exact Option.some_ne_none _)
          nothing fun still => ?_
        have spared := (flights.1 still).2
        rw [Delivery.concerns, decide_eq_false_iff_not] at spared
        exact spared ⟨rfl, rfl, rfl⟩
    · rw [if_neg about, List.append_nil] at waits
      refine on.congr ?_ (left.trans waits.symm) (fun named => (flights.1 named).1)
        fun _ _ _ named => flights.2 ⟨named, ?_⟩
      · intro p here
        exact ⟨p, (populations _).trans here, rfl, rfl, rfl⟩
      · refine Bool.eq_false_iff.2 fun concerns => ?_
        exact about (Delivery.population_eq_of_concerns concerns)

/-! ## Courses of operations -/

/-- No operation loses an errand on its way. -/
theorem OnErrand.apply (on : d.OnErrand errand) (kept : d.WellKept) (op : Operation σ) :
    (d.apply op).OnErrand errand := by
  cases op with
  | addPopulation label key query outputStep =>
    refine on.congr (fun p here => ⟨p, ?_, rfl, rfl, rfl⟩) rfl (fun named => named)
      (fun _ _ _ named => named)
    exact kept.population?_addPopulation here _
  | onResolved id waiter outside =>
    show (d.onResolved id waiter).OnErrand errand
    cases here : d.population? id with
    | none =>
      rw [onResolved_of_missing here]
      exact on
    | some p =>
      refine on.registers here fun e on_errand => ?_
      rw [outside] at on_errand
      cases on_errand
  | populate s q run label =>
    show (d.populate s q run label).1.OnErrand errand
    rcases populate_cases_of_spared s q run label d with
      ⟨d', answer, same, alike, -⟩ | ⟨key, -, spared, start⟩
    · rw [same]
      exact on.of_eq alike.populations_eq alike.boards_eq alike.pending_eq
    · rw [start]
      exact (startPopulation_onErrand s q run label kept).2 spared errand on
  | settleAt position => exact on.settleAt position
  | _ => exact (d.apply_moves rfl).onErrand kept on

/-- An operation by which a service undertakes something sends an errand. -/
theorem onErrand_of_undertaken (kept : d.WellKept) {op : Operation σ} {u : Undertaking}
    (undertaken : op.undertaken d = some u) {key : CacheKey}
    (exact_key : CacheKey.ofQuery u.query = .ok key) : (d.apply op).OnErrand (u.errand key) := by
  cases op with
  | populate s q run label =>
    obtain ⟨id, s', q'⟩ := u
    obtain ⟨answered, rfl, rfl⟩ := undertaken_populate_iff.1 undertaken
    show (d.populate s' q' run label).1.OnErrand _
    rcases d.populate_cases s' q' run label with
      ⟨now, answer, same, -, other⟩ | ⟨key', exact_key', start⟩
    · rw [same] at answered
      exact absurd answered (other id)
    · obtain rfl : key' = key := Except.ok.inj (exact_key'.symm.trans exact_key)
      rw [start] at answered ⊢
      exact (startPopulation_onErrand s' q' run label kept).1 id answered
  | _ => cases undertaken

/-- The errand of an undertaking is at one of its places in every course of operations. -/
theorem onErrand_after (kept : d.WellKept) {ops : List (Operation σ)} {u : Undertaking}
    (undertaken : u ∈ undertakings d ops) {key : CacheKey}
    (exact_key : CacheKey.ofQuery u.query = .ok key) : (d.after ops).OnErrand (u.errand key) := by
  induction ops generalizing d with
  | nil => cases undertaken
  | cons op ops ih =>
    have kept' := (d.apply_changes op).wellKept kept
    rw [undertakings, List.mem_append, Option.mem_toList] at undertaken
    rcases undertaken with now | later
    · have sent := onErrand_of_undertaken kept now exact_key
      exact (after_induction (P := fun d => d.WellKept ∧ d.OnErrand (u.errand key))
        (fun d op both => ⟨(d.apply_changes op).wellKept both.1, both.2.apply both.1 op⟩)
        ⟨kept', sent⟩ ops).2
    · exact ih kept' later

/-- A board names none but populations in flight. -/
theorem inFlight_of_flight? {ops : List (Operation σ)} {board : BoardId} {key : CacheKey}
    (named : (({} : Deployment σ).after ops).flight? board key = some id) :
    (({} : Deployment σ).after ops).InFlight id := by
  have kept : (({} : Deployment σ).after ops).WellKept := wellKept_after wellKept_empty ops
  have names := (namesLatest_empty board key).after wellKept_empty ops
  obtain ⟨errand, concerns, under_way⟩ := names.due id named
  obtain rfl := Delivery.population_eq_of_concerns concerns
  cases under_way with
  | carries member => cases member
  | @waits p here member =>
    refine .inl ?_
    rw [isResolved_eq here (kept.consistent _ p here).sound, Option.isSome_eq_false_iff,
      Option.isNone_iff_eq_none]
    -- resolved populations have no waiters
    refine Classical.byContradiction fun resolved => ?_
    rw [(kept.consistent _ p here).served resolved] at member
    cases member
  | pends member =>
    exact .inr (List.ne_nil_of_mem (List.mem_filter.2 ⟨member, decide_eq_true rfl⟩))

end

end Deployment

end DataService
