import DataService.Proofs.Deployment.Errands

/-!
# Single flight

A capture that nothing bounds is worth joining for every query of its key, and as long as it is in
flight no second one is started: the board names it until its result is deposited, and every query
of its key is attached to it (`single_flight`). The proof reads this off the place of its errand
(`OnErrand`), which is where all that may come in between was dealt with: populations that were
displaced and end late, refusals, failures, and deposits in whichever order.
-/

set_option autoImplicit false

namespace DataService.Deployment

variable {σ : Type} {d : Deployment σ} {errand : Delivery} {p : Population}

/-- The board names a population in flight that nothing bounds. -/
theorem OnErrand.flight?_eq (on : d.OnErrand errand) (kept : d.WellKept)
    (here : d.population? errand.population = some p) (uncapped : p.query.Uncapped)
    (in_flight : d.InFlight errand.population) :
    d.flight? errand.board errand.key = some errand.population := by
  cases on with
  | waits there _ _ _ named =>
    obtain rfl := Option.some.inj (there.symm.trans here)
    exact named uncapped
  | pends there _ _ named =>
    obtain rfl := Option.some.inj (there.symm.trans here)
    exact named uncapped
  | done there resolved none_waits _ =>
    exact absurd in_flight (not_inFlight kept there resolved none_waits)

variable [ResultStore σ]

/-- An undertaking for a query that nothing bounds, as long as its population is in flight. -/
theorem flight?_of_undertaken {ops : List (Operation σ)} {u : Undertaking}
    (undertaken : u ∈ undertakings ({} : Deployment σ) ops) (uncapped : u.query.Uncapped)
    (in_flight : (({} : Deployment σ).after ops).InFlight u.population) {key : CacheKey}
    (exact_key : CacheKey.ofQuery u.query = .ok key) :
    let d := ({} : Deployment σ).after ops
    d.flight? u.service.board key = some u.population ∧
      ∀ q, d.canAnswer u.population q = true := by
  intro d
  have kept : d.WellKept := wellKept_after wellKept_empty ops
  obtain ⟨p, here, query_eq, -⟩ := begun_after wellKept_empty undertaken
  have bounds : p.query.Uncapped := by
    rw [query_eq]
    exact uncapped
  have on : d.OnErrand (u.errand key) := onErrand_after wellKept_empty undertaken exact_key
  exact ⟨on.flight?_eq kept here bounds in_flight, canAnswer_of_uncapped here bounds⟩

/-- **A capture without bounds is the only one of its key.** Whatever operations came before, with any
number of services on the board: as long as the population of an uncapped query is unresolved, or its
result waits to be deposited, the board names it for its exact key. Every service with a result cache
attaches every query of that key to it, and no other population in flight on the board was started for
an uncapped query of the key. -/
theorem single_flight (ops : List (Operation σ)) (u : Undertaking)
    (undertaken : u ∈ undertakings ({} : Deployment σ) ops) (uncapped : u.query.Uncapped)
    (in_flight : (({} : Deployment σ).after ops).InFlight u.population) :
    let d := ({} : Deployment σ).after ops
    ∃ key, CacheKey.ofQuery u.query = .ok key ∧
      d.flight? u.service.board key = some u.population ∧
      (∀ (s : Service) (q : Query) (run : RunId) (label : String), s.board = u.service.board →
        s.definition.resultCache?.isSome = true → CacheKey.ofQuery q = .ok key →
        d.populate s q run label =
          (d.measure (·.add (.attachments s.name) 1), .ok (.attached u.population))) ∧
      ∀ u' ∈ undertakings ({} : Deployment σ) ops, u'.service.board = u.service.board →
        CacheKey.ofQuery u'.query = .ok key → u'.query.Uncapped → d.InFlight u'.population →
        u'.population = u.population := by
  intro d
  obtain ⟨p, -, -, exact_key⟩ := begun_after wellKept_empty undertaken
  obtain ⟨named, can⟩ := flight?_of_undertaken undertaken uncapped in_flight exact_key
  refine ⟨p.key, exact_key, named, ?_, ?_⟩
  · intro s q run label same_board cached same_key
    rw [← same_board] at named
    exact populate_of_named s q run label cached same_key named (can q)
  · intro u' undertaken' same_board same_key uncapped' in_flight'
    obtain ⟨named', -⟩ := flight?_of_undertaken undertaken' uncapped' in_flight' same_key
    rw [same_board] at named'
    exact Option.some.inj (named'.symm.trans named)

/-- A service that shares board and store with the one for numbers. -/
def sumsService : Service :=
  { numbersService with definition := { numbersService.definition with name := "sums" } }

/-- A capture of five rows is displaced by one without bounds, ends and is deposited late. Then the
other one ends too, and its result waits. -/
def overtaken : List (Operation KeyedMap) :=
  [.addRun "first" [("out", ["n"])] [] 0 [],
    .addRun "second" [("out", ["n"])] [] 0 [],
    .addStore {},
    .populate numbersService { fingerprint := some 7, rowLimit := some 5 } ⟨"first", 0⟩ "five rows",
    .populate numbersService { fingerprint := some 7 } ⟨"second", 1⟩ "all rows",
    .engine (.start "first"),
    .engine (.finish "first" "out" [] true),
    .settleAt 0,
    .engine (.start "second"),
    .engine (.emit "second" "out" [.integer 1]),
    .engine (.finish "second" "out" [] false)]

/-- The other service has its sum over the first rows from the second capture. -/
theorem single_flight_overtaken :
    let d := ({} : Deployment KeyedMap).after overtaken
    d.isResolved ⟨3⟩ = true ∧ d.isResolved ⟨4⟩ = true ∧ d.InFlight ⟨4⟩ ∧
      (d.populate sumsService { fingerprint := some 7, aggregate := true, sourceRowLimit := some 2 }
        ⟨"third", 9⟩ "sum").2 = .ok (.attached ⟨4⟩) := by
  intro d
  have in_flight : d.InFlight ⟨4⟩ := .inr (List.cons_ne_nil _ _)
  have undertaken : (⟨⟨4⟩, numbersService, { fingerprint := some 7 }⟩ : Undertaking) ∈
      undertakings ({} : Deployment KeyedMap) overtaken := List.mem_cons_of_mem _ List.mem_cons_self
  obtain ⟨key, exact_key, -, attaches, -⟩ :=
    single_flight overtaken _ undertaken ⟨rfl, rfl⟩ in_flight
  obtain rfl := Except.ok.inj exact_key
  exact ⟨rfl, rfl, in_flight, congrArg Prod.snd (attaches sumsService _ _ _ rfl rfl rfl)⟩

end DataService.Deployment
