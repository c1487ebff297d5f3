import DataService.Proofs.Deployment.Changes
import DataService.Proofs.Store.Keyed

/-!
# When a capture is complete

A population that was started on a run is completed by one thing alone: the end of a step that it
listens to, reported without errors while it is unresolved, and not stopped early unless the query
of the population is uncapped (`phase_completed_iff`). A run that is stopped early under an uncapped
query leaves a result without bounds, although rows are missing from it
(`completed_of_stopped_early`).
-/

set_option autoImplicit false

namespace DataService.Deployment

variable {σ : Type}

/-! ## A started population -/

/-- Installing an unresolved population on a run does not complete it. -/
theorem install_advances (d : Deployment σ) {id : PopulationId} {p : Population}
    (here : d.population? id = some p) (unresolved : p.outcome = none) (sound : p.Sound)
    (runId : RunId) :
    ∃ p', (d.install id runId).population? id = some p' ∧ p.Advances p' False := by
  have phase : p.phase.isResolved = false := by
    rw [sound.isResolved_eq, unresolved]
    rfl
  unfold install
  rw [here]
  cases d.run? runId with
  | none => exact ⟨p, here, .refl sound⟩
  | some run =>
    dsimp only
    cases run.hooks.claim (.population id p.label) with
    | error holder =>
      let failure := Failure.alreadyTracked holder.text
      have refused : (d.modifyPopulation id (·.refuse failure)).population? id =
          some (p.refuse failure) := by
        rw [population?_modifyPopulation, if_pos rfl, here]
        rfl
      have advances : p.Advances (p.refuse failure) False :=
        .of_unresolved unresolved unresolved phase rfl
      obtain ⟨p', here', advances'⟩ :=
        resolve_error_carries _ id failure _ refused advances.sound
      exact ⟨p', here', advances.trans_false advances'⟩
    | ok claimed =>
      dsimp only
      have noted (hooks : Hooks Owner PopulationId) :
          ((d.modifyRun runId fun r => { r with hooks }).modifyPopulation id
            fun p => { p with run := some runId }).population? id =
            some { p with run := some runId } := by
        rw [population?_modifyPopulation, if_pos rfl]
        show (d.population? id).map _ = _
        rw [here]
        rfl
      have advances : p.Advances { p with run := some runId } False :=
        .of_unresolved unresolved unresolved phase rfl
      cases ready : claimed.ready with
      | false =>
        simp only [Hooks.onReady, ready, Bool.false_eq_true, if_false]
        exact ⟨_, noted _, advances⟩
      | true =>
        simp only [Hooks.onReady, ready, if_true]
        obtain ⟨p', here', advances'⟩ := collect_carries _ id runId _ (noted _) advances.sound
        exact ⟨p', here', advances.trans_false advances'⟩

/-- A population that is started for a query has no outcome yet when it is made, and is not
completed by its installation. -/
theorem startPopulation_advances {d d₁ : Deployment σ} {s : Service} {q : Query} {key : CacheKey}
    {run : RunId} {label : String} {displaced : Option PopulationId} {id : PopulationId}
    (started : d.startPopulation s q key run label displaced = (d₁, .ok (.started id))) :
    ∃ fresh p : Population, fresh.outcome = none ∧ fresh.query = q ∧
      d₁.population? id = some p ∧ fresh.Advances p False := by
  let fresh : Population := { label, key, query := q, outputStep := s.definition.outputStep }
  let noted := (d.addPopulation fresh).1.modifyBoard s.board (·.put key ⟨d.serial⟩)
  have added : noted.population? ⟨d.serial⟩ = some fresh := Table.get?_put_self _ _ _
  have sound : fresh.Sound := .of_none rfl rfl
  obtain ⟨p, here, advances⟩ := noted.install_advances added rfl sound run
  unfold startPopulation at started
  dsimp only at started
  split at started
  case h_1 => cases started
  case h_2 =>
    obtain ⟨rfl, same⟩ := Prod.mk.inj started
    cases same
    have reported : ((noted.install ⟨d.serial⟩ run).reportFlights s).population? ⟨d.serial⟩ =
        some p := here
    obtain ⟨p', here', advances'⟩ := onResolved_carries _ _ _ p reported advances.sound
    exact ⟨fresh, p', rfl, rfl, here', advances.trans_false advances'⟩

/-- A started population holds its query, and is not completed by the start. -/
theorem exists_population?_populate {d d₁ : Deployment σ} {s : Service} {q : Query} {run : RunId}
    {label : String} {id : PopulationId}
    (started : d.populate s q run label = (d₁, .ok (.started id))) :
    ∃ fresh p : Population, fresh.outcome = none ∧ fresh.query = q ∧
      d₁.population? id = some p ∧ fresh.Advances p False := by
  rcases d.populate_cases s q run label with ⟨d', answer, same, -, other⟩ | ⟨key, -, start⟩
  · rw [same] at started
    exact absurd (congrArg Prod.snd started) (other id)
  · rw [start] at started
    exact startPopulation_advances started

/-! ## A whole script -/

/-- A population that has an outcome stays as it is, whatever the engine does. -/
theorem performScript_final {d : Deployment σ} {id : PopulationId} {p : Population}
    (here : d.population? id = some p) (sound : p.Sound) (resolved : p.outcome ≠ none)
    (script : List (Option EngineStep)) : (d.performScript script).population? id = some p := by
  induction script generalizing d with
  | nil => exact here
  | cons line rest ih =>
    obtain ⟨p', here', advances⟩ := d.line_carries line id p here sound
    rw [advances.final resolved] at here'
    exact ih here'

/-- Somewhere in the script the engine completes the capture of a population for a query, while the
population is unresolved. -/
def CompletedDuring (d : Deployment σ) (id : PopulationId) (script : List (Option EngineStep))
    (q : Query) : Prop :=
  ∃ before step after, script = before ++ some step :: after ∧
    (d.performScript before).isResolved id = false ∧
    (d.performScript before).CompletedBy id step q

/-- A capture is completed by the first line of a script or during the rest of it. -/
theorem completedDuring_cons (d : Deployment σ) (id : PopulationId) (line : Option EngineStep)
    (rest : List (Option EngineStep)) (q : Query) :
    d.CompletedDuring id (line :: rest) q ↔
      d.isResolved id = false ∧ (∃ step, line = some step ∧ d.CompletedBy id step q) ∨
        (d.performScript [line]).CompletedDuring id rest q := by
  constructor
  · rintro ⟨before, step, after, split_eq, unresolved, now⟩
    cases before with
    | nil =>
      obtain ⟨same, -⟩ := List.cons.inj split_eq
      exact .inl ⟨unresolved, step, same, now⟩
    | cons first before =>
      obtain ⟨rfl, rest_eq⟩ := List.cons.inj split_eq
      exact .inr ⟨before, step, after, rest_eq, unresolved, now⟩
  · rintro (⟨unresolved, step, rfl, now⟩ | ⟨before, step, after, rfl, unresolved, now⟩)
    · exact ⟨[], step, rest, rfl, unresolved, now⟩
    · exact ⟨line :: before, step, after, rfl, unresolved, now⟩

/-- A population that has an outcome is not completed later. -/
theorem CompletedDuring.outcome_eq_none {d : Deployment σ} {id : PopulationId} {p : Population}
    {script : List (Option EngineStep)} {q : Query} (h : d.CompletedDuring id script q)
    (here : d.population? id = some p) (sound : p.Sound) : p.outcome = none := by
  obtain ⟨before, -, -, -, unresolved, -⟩ := h
  apply Classical.byContradiction
  intro resolved
  rw [isResolved_eq (performScript_final here sound resolved before) sound] at unresolved
  exact resolved (Option.isNone_iff_eq_none.1 (Option.isSome_eq_false_iff.1 unresolved))

/-- A script of the engine completes a sound population exactly if one of its steps does. -/
theorem script_carries (d : Deployment σ) (script : List (Option EngineStep)) (id : PopulationId) :
    d.Carries (d.performScript script) id (d.CompletedDuring id script) := by
  induction script generalizing d with
  | nil =>
    intro p here sound
    refine ⟨p, here, (Population.Advances.refl sound).congr fun _ => iff_of_false not_false ?_⟩
    rintro ⟨before, step, after, split_eq, -⟩
    exact List.append_ne_nil_of_right_ne_nil before (List.cons_ne_nil _ _) split_eq.symm
  | cons line rest ih =>
    intro p here sound
    obtain ⟨p', here', advances⟩ := d.line_carries line id p here sound
    obtain ⟨p'', here'', advances'⟩ := ih (d.performScript [line]) p' here' advances.sound
    refine ⟨p'', here'', (advances.trans advances').congr fun unresolved => ?_⟩
    rw [advances.query_eq, completedDuring_cons, isResolved_eq here sound, unresolved]
    constructor
    · rintro (now | ⟨-, later⟩)
      · exact .inl ⟨rfl, now⟩
      · exact .inr later
    · rintro (⟨-, now⟩ | later)
      · exact .inl now
      · exact .inr ⟨later.outcome_eq_none here' advances.sound, later⟩

/-- When a population that was started on a run is completed. -/
theorem phase_completed_iff {d d₁ : Deployment σ} {s : Service} {q : Query} {run : RunId}
    {label : String} {id : PopulationId}
    (started : d.populate s q run label = (d₁, .ok (.started id)))
    (script : List (Option EngineStep)) :
    ∃ p, (d₁.performScript script).population? id = some p ∧
      (p.phase = .completed ↔
        ∃ result, p.outcome = some (.ok result) ∧ result.isComplete = true) ∧
      (p.phase = .completed ↔
        ∃ before name step stoppedEarly after,
          script = before ++ some (.finish name step [] stoppedEarly) :: after ∧
          (d₁.performScript before).isResolved id = false ∧
          (d₁.performScript before).Listens id name step ∧
          (stoppedEarly = false ∨ q.rank = unbounded ∧ q.sourceRank = unbounded)) := by
  obtain ⟨fresh, p, unresolved, query_eq, here, begun⟩ := exists_population?_populate started
  obtain ⟨p', here', advances⟩ := d₁.script_carries script id p here begun.sound
  refine ⟨p', here', advances.sound.phase_eq_completed_iff, ?_⟩
  have completed_iff : p'.phase = .completed ↔ d₁.CompletedDuring id script q := by
    rw [(begun.trans advances).completed_iff unresolved, begun.query_eq, query_eq, false_or]
    exact and_iff_right_of_imp fun h => h.outcome_eq_none here begun.sound
  rw [completed_iff]
  constructor
  · rintro ⟨before, _, after, split_eq, open_still, name, step, stoppedEarly, rfl, listens, early⟩
    exact ⟨before, name, step, stoppedEarly, after, split_eq, open_still, listens, early⟩
  · rintro ⟨before, name, step, stoppedEarly, after, split_eq, open_still, listens, early⟩
    exact ⟨before, _, after, split_eq, open_still, name, step, stoppedEarly, rfl, listens, early⟩

/-! ## Runs that are stopped early -/

/-- A service that keeps its results, over an empty store, and a run of its output step. -/
def serviceWithRun : Deployment KeyedMap × Service × RunId :=
  let outputs : Table String StepOutput := .ofList [("out", { fields := ["n"] })]
  let (d, run) := ({} : Deployment KeyedMap).addRun "run" outputs [] 0 []
  let (d, store) := d.addStore {}
  let (d, board) := d.addBoard
  let definition : Definition :=
    { name := "numbers", outputStep := "out"
      strategies := [.resultCache ⟨"cache", ⟨"in", "sort", "out"⟩⟩] }
  (d, { definition, settings := {}, store, board }, run)

/-- The run starts, a row leaves its output step, and the run is stopped. -/
def stoppedAfterOneRow : List (Option EngineStep) :=
  [some (.start "run"), some (.emit "run" "out" [.integer 1]), some (.finish "run" "out" [] true)]

/-- A run that is stopped early does not complete the capture of a query with a cap. -/
theorem phase_ne_completed_of_capped :
    let d := serviceWithRun.1
    let s := serviceWithRun.2.1
    let run := serviceWithRun.2.2
    let d₁ := (d.populate s { fingerprint := some 1, rowLimit := some 5 } run "population").1
    ∃ p, (d₁.performScript stoppedAfterOneRow).population? ⟨3⟩ = some p ∧
      p.phase ≠ .completed := by
  intro d s run d₁
  have started : d.populate s { fingerprint := some 1, rowLimit := some 5 } run "population" =
      (d₁, .ok (.started ⟨3⟩)) := rfl
  obtain ⟨p, here, -, completed_iff⟩ := phase_completed_iff started stoppedAfterOneRow
  refine ⟨p, here, mt completed_iff.1 ?_⟩
  rintro ⟨before, name, step, stoppedEarly, after, split_eq, -, -, early⟩
  have member : some (.finish name step [] stoppedEarly) ∈ stoppedAfterOneRow := by
    rw [split_eq]
    simp
  have stopped : stoppedEarly = true := by
    simp [stoppedAfterOneRow] at member
    exact member.2.2
  cases early with
  | inl came_to_end =>
    rw [stopped] at came_to_end
    cases came_to_end
  | inr uncapped => exact absurd uncapped.1 (by decide)

/-- A run that is stopped early completes the capture of a query without caps: no run came to its
end, and yet the population is completed and later queries are answered by its rows. -/
theorem completed_of_stopped_early :
    let d := serviceWithRun.1
    let s := serviceWithRun.2.1
    let run := serviceWithRun.2.2
    let q : Query := { fingerprint := some 1 }
    let (d₁, admission) := d.populate s q run "population"
    let d₂ := d₁.performScript stoppedAfterOneRow
    admission = .ok (.started ⟨3⟩) ∧
      (∀ name step errors, some (.finish name step errors false) ∉ stoppedAfterOneRow) ∧
      (d₂.population? ⟨3⟩).map (·.phase) = some .completed ∧
      ∃ result, (d₂.settle.lookup s q).2 = .ok (some result) ∧ result.isComplete = true := by
  refine ⟨?_, ?_, ?_, ?_⟩
  · rfl
  · simp [stoppedAfterOneRow]
  · rfl
  · exact ⟨_, rfl, rfl⟩

end DataService.Deployment
