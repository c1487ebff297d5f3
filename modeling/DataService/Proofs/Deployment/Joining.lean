import DataService.Proofs.Cache.Completeness
import DataService.Proofs.Deployment.Undertakings

/-!
# Joining a population

A query that is attached to a population in flight waits for what that population will have captured,
and by then its own run is gone. So the decision has to hold for every way in which the population
may end. It is taken from the bounds of the capturing query, and `answers_resultAtEnd` says that the
result at the end, with whatever rows and stopped early or not, is judged no differently.
`attached_answers` says it of all that may happen before and after.
-/

set_option autoImplicit false

namespace DataService

/-- Whether a capture for one query answers another one does not depend on its rows. -/
theorem CachedResult.answers_partialFor (rows rows' : List Row) (capturing q : Query) :
    (partialFor rows capturing).answers q = (partialFor rows' capturing).answers q := rfl

/-- What a population can answer by its bounds it answers by its result, however the run ends. -/
theorem Population.answers_resultAtEnd {p : Population} {q : Query} (can : p.canAnswer q = true)
    (stoppedEarly : Bool) : (p.resultAtEnd stoppedEarly).answers q = true := by
  cases stoppedEarly with
  | true =>
    show (CachedResult.partialFor p.rows p.query).answers q = true
    rw [CachedResult.answers_partialFor p.rows []]
    exact can
  | false =>
    show (CachedResult.complete p.rows).answers q = true
    rw [CachedResult.answers, CachedResult.isComplete_complete, Bool.true_or]

namespace Deployment

variable {σ : Type} {d : Deployment σ} {s : Service} {q : Query} {run : RunId} {label : String}
  {id : PopulationId}

/-- A query is attached to the population that the board names for its exact key, if that can answer
it, and nothing happens but that it is counted. -/
theorem populate_of_attached (attached : (d.populate s q run label).2 = .ok (.attached id)) :
    ∃ key, CacheKey.ofQuery q = .ok key ∧ d.flight? s.board key = some id ∧
      d.canAnswer id q = true ∧
      (d.populate s q run label).1 = d.measure (·.add (.attachments s.name) 1) := by
  rcases d.populate_answers s q run label with
    ⟨failure, -, failed⟩ | ⟨key, exact_key, ⟨current, named, can, joined⟩ | start⟩
  · rw [failed] at attached
    cases attached
  · rw [joined] at attached ⊢
    cases attached
    exact ⟨key, exact_key, named, can, rfl⟩
  · rw [start] at attached
    rcases d.startPopulation_cases s q key run label (d.flight? s.board key) with
      ⟨failure, refused⟩ | begun
    · rw [refused] at attached
      cases attached
    · rw [begun] at attached
      cases attached

variable [ResultStore σ]

/-- **Whoever joins a population is served by it.** Whatever happened before, a query that is attached
to a population changes nothing but the metrics. Whatever happens afterwards, the population has the
exact key of the query, and if its outcome is a result then this answers the query. -/
theorem attached_answers (ops : List (Operation σ)) (s : Service) (q : Query) (run : RunId)
    (label : String) (id : PopulationId)
    (attached : ((({} : Deployment σ).after ops).populate s q run label).2 = .ok (.attached id)) :
    let d := ({} : Deployment σ).after ops
    let joined := (d.populate s q run label).1
    joined = d.measure (·.add (.attachments s.name) 1) ∧
    ∀ later : List (Operation σ), ∃ p, (joined.after later).population? id = some p ∧
      CacheKey.ofQuery q = .ok p.key ∧
      ∀ result, p.outcome = some (.ok result) → result.answers q = true := by
  intro d joined
  obtain ⟨key, exact_key, named, can, same⟩ := populate_of_attached attached
  refine ⟨same, ?_⟩
  intro later
  have kept : d.WellKept := wellKept_after wellKept_empty ops
  obtain ⟨u, undertaken, about, undertaken_key⟩ := exists_undertaking_of_flight? named
  obtain ⟨p, here, -, begun_key⟩ := begun_after wellKept_empty undertaken
  rw [about] at here
  have key_eq : p.key = key := Except.ok.inj (begun_key.symm.trans undertaken_key)
  have can_answer : p.canAnswer q = true := by
    have can : (d.population? id).any (·.canAnswer q) = true := can
    rw [show d.population? id = some p from here] at can
    exact can
  have here' : joined.population? id = some p := by
    rw [show joined = _ from same]
    exact here
  have kept' : joined.WellKept := by
    rw [show joined = _ from same]
    exact kept.congr rfl (Nat.le_refl _) fun _ waits => waits
  obtain ⟨p', there, grows⟩ := exists_grows_after kept' here' later
  refine ⟨p', there, ?_, ?_⟩
  · rw [grows.key_eq, key_eq]
    exact exact_key
  · intro result ok
    obtain ⟨stoppedEarly, same⟩ :=
      ((wellKept_after kept' later).consistent id p' there).ends_with result ok
    rw [same]
    refine Population.answers_resultAtEnd ?_ stoppedEarly
    rw [Population.canAnswer, grows.query_eq]
    exact can_answer

/-- A service captures five rows of a pipeline at most. -/
def fiveRowsWanted : List (Operation KeyedMap) :=
  [.addRun "first" [("out", ["n"])] [] 0 [],
    .addRun "second" [("out", ["n"])] [] 0 [],
    .addStore {},
    .populate numbersService { fingerprint := some 7, limit := some 5 } ⟨"first", 0⟩ "capturing"]

/-- The run of the capture stops after three rows. -/
def stoppedAfterThreeRows : List (Operation KeyedMap) :=
  [.engine (.start "first"),
    .engine (.emit "first" "out" [.integer 1]),
    .engine (.emit "first" "out" [.integer 2]),
    .engine (.emit "first" "out" [.integer 3]),
    .engine (.finish "first" "out" [] true)]

/-- A query for the row after the first two. -/
def rowAfterTwo : Query := { fingerprint := some 7, limit := some 1, offset := some 2 }

/-- The query joins the capture of five rows, and is answered by it although only three came. -/
theorem attached_answers_stopped_early :
    let d := ({} : Deployment KeyedMap).after fiveRowsWanted
    let joining := d.populate numbersService rowAfterTwo ⟨"second", 1⟩ "joining"
    joining.2 = .ok (.attached ⟨3⟩) ∧ joining.1.runs = d.runs ∧
      ∃ p, (joining.1.after stoppedAfterThreeRows).population? ⟨3⟩ = some p ∧
        p.phase = .bounded ∧
        ∃ result, p.outcome = some (.ok result) ∧ result.answers rowAfterTwo = true := by
  have stopped : ∃ result, ((((({} : Deployment KeyedMap).after fiveRowsWanted).populate
      numbersService rowAfterTwo ⟨"second", 1⟩ "joining").1.after stoppedAfterThreeRows).population?
        ⟨3⟩).map (fun p => (p.phase, p.outcome)) = some (.bounded, some (.ok result)) := ⟨_, rfl⟩
  intro d joining
  have attached : joining.2 = .ok (.attached ⟨3⟩) := rfl
  obtain ⟨same, serves⟩ :=
    attached_answers fiveRowsWanted numbersService rowAfterTwo ⟨"second", 1⟩ "joining" ⟨3⟩ attached
  obtain ⟨p, there, -, answers⟩ := serves stoppedAfterThreeRows
  obtain ⟨result, parts⟩ := stopped
  rw [there, Option.map_some, Option.some.injEq, Prod.mk.injEq] at parts
  refine ⟨attached, ?_, p, there, parts.1, result, parts.2, answers result parts.2⟩
  rw [show joining.1 = _ from same]
  rfl

end Deployment

end DataService
