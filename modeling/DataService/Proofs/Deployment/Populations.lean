import DataService.Model.Deployment.Caching
import DataService.Model.Deployment.Replay
import DataService.Proofs.Population.Outcome

/-!
# The populations of a deployment

What the operations of a deployment do to its populations. Informing waiters touches none of them
(`populations_informAll`), so a population that takes a step changes alone (`population?_advance`).
`Carries` says how an operation takes one population further, also when it is done for several
populations in turn (`Carries.foldl`). Every engine step carries every sound population, and completes
those who listen if it is the end of a run (`perform_carries`).
-/

set_option autoImplicit false

namespace DataService.Deployment

variable {σ : Type}

/-! ## Informing waiters -/

/-- To hand an outcome to a service changes no population. -/
theorem populations_receive (d : Deployment σ) (errand : Delivery) (outcome : Outcome) :
    (d.receive errand outcome).populations = d.populations := by
  cases outcome with
  | ok result => rfl
  | error failure => rfl

mutual

/-- To inform a waiter changes no population. -/
theorem populations_inform (outcome : Outcome) (w : Waiter) (d : Deployment σ) :
    (inform outcome w d).populations = d.populations :=
  match w with
  | .announce tag further => by
    rw [inform, populations_informAll outcome further]
    rfl
  | .deliver errand => by rw [inform, populations_receive]

/-- To inform waiters changes no population, those included who wait for one another. -/
theorem populations_informAll (outcome : Outcome) (ws : List Waiter) (d : Deployment σ) :
    (informAll outcome ws d).populations = d.populations :=
  match ws with
  | [] => by rw [informAll]
  | w :: rest => by
    rw [informAll, populations_informAll outcome rest, populations_inform outcome w]

end

/-! ## One population -/

/-- A change of one population leaves the others alone. -/
theorem population?_modifyPopulation (d : Deployment σ) (id : PopulationId)
    (f : Population → Population) (j : PopulationId) :
    (d.modifyPopulation id f).population? j =
      if j = id then (d.population? j).map f else d.population? j := by
  unfold population? modifyPopulation
  simp only [Table.get?_modify, beq_iff_eq]

/-- A population that is changed is there as it was changed. -/
theorem population?_modifyPopulation_self {d : Deployment σ} {id : PopulationId} {p : Population}
    (here : d.population? id = some p) (f : Population → Population) :
    (d.modifyPopulation id f).population? id = some (f p) := by
  rw [population?_modifyPopulation, if_pos rfl, here]
  rfl

/-- A population is as it was when another one is changed. -/
theorem population?_modifyPopulation_of_ne (d : Deployment σ) {id j : PopulationId} (h : j ≠ id)
    (f : Population → Population) : (d.modifyPopulation id f).population? j = d.population? j := by
  rw [population?_modifyPopulation, if_neg h]

/-- A population that is replaced by itself stays. -/
theorem population?_modifyPopulation_const {d : Deployment σ} {id : PopulationId} {p : Population}
    (here : d.population? id = some p) (j : PopulationId) :
    (d.modifyPopulation id fun _ => p).population? j = d.population? j := by
  by_cases same : j = id
  · rw [same, population?_modifyPopulation_self here, here]
  · exact d.population?_modifyPopulation_of_ne same _

/-- A sound population has resolved exactly if it has an outcome. -/
theorem isResolved_eq {d : Deployment σ} {id : PopulationId} {p : Population}
    (here : d.population? id = some p) (sound : p.Sound) : d.isResolved id = p.outcome.isSome := by
  unfold isResolved
  rw [here, Option.any_some, sound.isResolved_eq]

/-- A population that takes a step changes alone. -/
theorem population?_advance (d : Deployment σ) (id : PopulationId)
    (take : Population → Population × List Waiter) (j : PopulationId) :
    (d.advance id take).population? j =
      if j = id then (d.population? j).map fun p => (take p).1 else d.population? j := by
  unfold advance
  cases here : d.population? id with
  | none =>
    by_cases same : j = id
    · rw [if_pos same, same, here]
      rfl
    · rw [if_neg same]
  | some p =>
    have modified : (d.modifyPopulation id fun _ => (take p).1).population? j =
        if j = id then (d.population? j).map fun p => (take p).1 else d.population? j := by
      rw [population?_modifyPopulation]
      by_cases same : j = id
      · rw [if_pos same, if_pos same, same, here]
        rfl
      · rw [if_neg same, if_neg same]
    dsimp only
    cases (take p).1.outcome with
    | none => exact modified
    | some outcome =>
      dsimp only
      unfold population? at modified ⊢
      rw [populations_informAll]
      exact modified

/-! ## Carrying a population further -/

/-- An operation takes a population further, and completes it exactly under a condition on its
query. -/
def Carries (d d' : Deployment σ) (id : PopulationId) (completes : Query → Prop) : Prop :=
  ∀ p, d.population? id = some p → p.Sound →
    ∃ p', d'.population? id = some p' ∧ p.Advances p' (completes p.query)

variable {d d' d'' : Deployment σ} {id : PopulationId}

/-- An operation that leaves a population as it was carries it nowhere. -/
theorem Carries.of_same (h : d'.population? id = d.population? id) :
    d.Carries d' id fun _ => False := by
  intro p here sound
  exact ⟨p, h.trans here, .refl sound⟩

/-- A step that takes every sound population further carries the one that takes it. -/
theorem Carries.of_advance {take : Population → Population × List Waiter}
    {completes : Query → Prop}
    (advances : ∀ p : Population, p.Sound → p.Advances (take p).1 (completes p.query)) :
    d.Carries (d.advance id take) id completes := by
  intro p here sound
  refine ⟨(take p).1, ?_, advances p sound⟩
  rw [population?_advance, if_pos rfl, here]
  rfl

/-- What completes a population may be said in other words. -/
theorem Carries.congr {c c' : Query → Prop} (h : d.Carries d' id c) (same : ∀ q, c q ↔ c' q) :
    d.Carries d' id c' := by
  intro p here sound
  obtain ⟨p', here', advances⟩ := h p here sound
  exact ⟨p', here', advances.congr fun _ => same p.query⟩

/-- An operation that carries a population at its own turn and leaves it as it is at others carries
it when done for several populations. -/
theorem Carries.foldl {c : Query → Prop} (f : Deployment σ → PopulationId → Deployment σ)
    (own : ∀ d : Deployment σ, d.Carries (f d id) id c)
    (other : ∀ (d : Deployment σ) (j : PopulationId), j ≠ id →
      (f d j).population? id = d.population? id)
    (ids : List PopulationId) (d : Deployment σ) :
    d.Carries (ids.foldl f d) id fun q => id ∈ ids ∧ c q := by
  induction ids generalizing d with
  | nil =>
    intro p here sound
    exact ⟨p, here, (Population.Advances.refl sound).congr fun _ => by simp⟩
  | cons j rest ih =>
    intro p here sound
    rw [List.foldl_cons]
    by_cases turn : j = id
    · rw [turn]
      obtain ⟨p', here', advances⟩ := own d p here sound
      obtain ⟨p'', here'', advances'⟩ := ih (f d id) p' here' advances.sound
      refine ⟨p'', here'', (advances.trans advances').congr fun _ => ?_⟩
      rw [advances.query_eq]
      constructor
      · rintro (now | ⟨-, -, later⟩)
        · exact ⟨List.mem_cons_self, now⟩
        · exact ⟨List.mem_cons_self, later⟩
      · rintro ⟨-, now⟩
        exact .inl now
    · have same : (f d j).population? id = some p := (other d j turn).trans here
      obtain ⟨p', here', advances⟩ := ih (f d j) p same sound
      refine ⟨p', here', advances.congr fun _ => ?_⟩
      have differs : id ≠ j := fun h => turn h.symm
      simp only [List.mem_cons, differs, false_or]

/-! ## Engine steps -/

/-- An event carries the population that handles it. It completes the capture if it is the end of the
run, unless that was stopped early under a cap. -/
theorem handle_carries (d : Deployment σ) (id : PopulationId) (event : PopulationEvent) :
    d.Carries (d.handle id event) id event.Completes :=
  .of_advance fun _ sound => Population.advances_handle sound event

/-- An event changes none but the population that handles it. -/
theorem population?_handle_of_ne (d : Deployment σ) {id j : PopulationId} (h : j ≠ id)
    (event : PopulationEvent) : (d.handle j event).population? id = d.population? id := by
  unfold handle
  rw [population?_advance, if_neg (Ne.symm h)]

/-- An event that comes to several populations completes those among them that it can complete. -/
theorem foldl_handle_carries (ids : List PopulationId) (event : PopulationEvent)
    (d : Deployment σ) (id : PopulationId) :
    d.Carries (ids.foldl (·.handle · event) d) id fun q => id ∈ ids ∧ event.Completes q :=
  .foldl (·.handle · event) (fun d => d.handle_carries id event)
    (fun d _ h => d.population?_handle_of_ne h event) ids d

/-- A failure carries a population without completing it. -/
theorem resolve_error_carries (d : Deployment σ) (id : PopulationId) (failure : Failure) :
    d.Carries (d.resolve id (.error failure)) id fun _ => False := by
  refine .of_advance fun p sound => (Population.advances_resolve sound _).congr fun _ => ?_
  simp only [Outcome.phase_error, reduceCtorEq]

/-- A waiter that is registered carries a population without completing it. -/
theorem onResolved_carries (d : Deployment σ) (id : PopulationId) (waiter : Waiter) :
    d.Carries (d.onResolved id waiter) id fun _ => False :=
  .of_advance fun _ sound => Population.advances_onResolved sound waiter

/-- A population that is to listen to its run is not completed by that. -/
theorem collect_carries (d : Deployment σ) (id : PopulationId) (runId : RunId) :
    d.Carries (d.collect id runId) id fun _ => False := by
  intro p here sound
  unfold collect
  rw [here]
  cases d.run? runId with
  | none => exact ⟨p, here, .refl sound⟩
  | some run =>
    dsimp only
    by_cases output : run.outputs.contains p.outputStep = true
    · rw [if_pos output]
      by_cases created : p.phase = .created
      · rw [if_pos created]
        refine ⟨{ p with phase := .collecting }, ?_, ?_⟩
        · show (d.modifyPopulation id _).population? id = _
          rw [population?_modifyPopulation, if_pos rfl, here]
          rfl
        · have unresolved : p.outcome = none := sound.outcome_eq_none (by rw [created]; rfl)
          exact .of_unresolved unresolved unresolved rfl rfl
      · rw [if_neg created]
        exact ⟨p, here, .refl sound⟩
    · rw [if_neg output]
      exact d.resolve_error_carries id _ p here sound

/-- A callback changes none but the population that is called back. -/
theorem population?_collect_of_ne (d : Deployment σ) {id j : PopulationId} (h : j ≠ id)
    (runId : RunId) : (d.collect j runId).population? id = d.population? id := by
  unfold collect
  cases d.population? j with
  | none => rfl
  | some p =>
    cases d.run? runId with
    | none => rfl
    | some run =>
      dsimp only
      split
      · split
        · show (d.modifyPopulation j _).population? id = _
          rw [population?_modifyPopulation, if_neg (Ne.symm h)]
        · rfl
      · unfold resolve
        rw [population?_advance, if_neg (Ne.symm h)]

/-- A run that becomes ready carries every population and completes none. -/
theorem ready_carries (d : Deployment σ) (run : Run) (id : PopulationId) :
    d.Carries (d.ready run) id fun _ => False := by
  have collected := Carries.foldl (·.collect · run.id)
    (fun d : Deployment σ => d.collect_carries id run.id)
    (fun d _ h => d.population?_collect_of_ne h run.id) run.hooks.fire.2
    (d.modifyRun run.id fun r => { r with hooks := run.hooks.fire.1 })
  intro p here sound
  obtain ⟨p', here', advances⟩ := collected p here sound
  exact ⟨p', here', advances.congr fun _ => by rw [and_false]⟩

/-- A row comes to a population as an event, which is not the end of its run. -/
theorem exists_handRow_eq (layout : Layout) (cells : List Document) :
    ∃ event : PopulationEvent, (∀ q, ¬event.Completes q) ∧
      handRow layout cells = fun (d : Deployment σ) id => d.handle id event := by
  unfold handRow
  cases Row.capture layout cells with
  | ok row => exact ⟨.row row, fun _ => id, rfl⟩
  | error fault => exact ⟨.failed (.rowConversion layout.step fault), fun _ => id, rfl⟩

/-- A row completes no capture. -/
theorem foldl_handRow_carries (ids : List PopulationId) (layout : Layout) (cells : List Document)
    (d : Deployment σ) (id : PopulationId) :
    d.Carries (ids.foldl (handRow layout cells) d) id fun _ => False := by
  obtain ⟨event, incomplete, row_eq⟩ := exists_handRow_eq (σ := σ) layout cells
  rw [row_eq]
  refine (d.foldl_handle_carries ids event id).congr ?_
  intro q
  exact iff_of_false (fun h => incomplete q h.2) not_false

/-- The end of a run completes a capture if there were no errors and nothing can be missing. -/
theorem endEvent_completes_iff (errors : List String) (stoppedEarly : Bool) (q : Query) :
    (endEvent errors stoppedEarly).Completes q ↔
      errors = [] ∧ (stoppedEarly = false ∨ q.Uncapped) := by
  cases errors with
  | nil => exact ⟨fun h => ⟨rfl, h⟩, And.right⟩
  | cons e rest => exact iff_of_false id nofun

/-- The population listens to a step of the run that has a name. -/
def Listens (d : Deployment σ) (id : PopulationId) (run step : String) : Prop :=
  ∃ r output, d.outputOf run step = .ok (r, output) ∧ id ∈ output.listeners

/-- What the engine does completes the capture of a population for a query: it is the end of a run
that the population listens to, without errors, and if the run was stopped early the query is
uncapped. -/
def CompletedBy (d : Deployment σ) (id : PopulationId) (step : EngineStep) (q : Query) : Prop :=
  ∃ run name stoppedEarly, step = .finish run name [] stoppedEarly ∧
    d.Listens id run name ∧ (stoppedEarly = false ∨ q.Uncapped)

/-- The end of a run completes those who listen to the step that ends, if it completes anyone. -/
theorem completedBy_finish_iff {d : Deployment σ} {run step : String} {r : Run}
    {output : StepOutput} (found : d.outputOf run step = .ok (r, output)) (id : PopulationId)
    (errors : List String) (stoppedEarly : Bool) (q : Query) :
    d.CompletedBy id (.finish run step errors stoppedEarly) q ↔
      id ∈ output.listeners ∧ (endEvent errors stoppedEarly).Completes q := by
  rw [endEvent_completes_iff]
  constructor
  · rintro ⟨_, _, _, same, ⟨r', output', found', listens⟩, early⟩
    cases same
    rw [found] at found'
    cases found'
    exact ⟨listens, rfl, early⟩
  · rintro ⟨listens, no_errors, early⟩
    rw [no_errors]
    exact ⟨run, step, stoppedEarly, rfl, ⟨r, output, found, listens⟩, early⟩

/-- What the engine does carries every population. -/
theorem perform_carries {d d' : Deployment σ} {step : EngineStep} (h : d.perform step = .ok d')
    (id : PopulationId) : d.Carries d' id (d.CompletedBy id step) := by
  have of_other (other : ∀ run name stoppedEarly, step ≠ .finish run name [] stoppedEarly)
      (carries : d.Carries d' id fun _ => False) : d.Carries d' id (d.CompletedBy id step) := by
    refine carries.congr fun q => iff_of_false not_false ?_
    rintro ⟨run, name, stoppedEarly, same, -⟩
    exact other run name stoppedEarly same
  cases step with
  | start run =>
    apply of_other
    · simp
    cases found : d.runs.get? run with
    | none => simp [perform, found] at h
    | some r =>
      simp only [perform, found, Except.ok.injEq] at h
      rw [← h]
      exact d.ready_carries r id
  | stop run =>
    apply of_other
    · simp
    cases found : d.runs.get? run with
    | none => simp [perform, found] at h
    | some r =>
      simp only [perform, found, Except.ok.injEq] at h
      rw [← h]
      exact .of_same rfl
  | emit run name cells =>
    apply of_other
    · simp
    cases found : d.outputOf run name with
    | error fault => simp [perform, found, bind, Except.bind] at h
    | ok at_step =>
      simp only [perform, found, bind, Except.bind, pure, Except.pure, Except.ok.injEq] at h
      rw [← h]
      exact d.foldl_handRow_carries at_step.2.listeners _ cells id
  | finish run name errors stoppedEarly =>
    cases found : d.outputOf run name with
    | error fault => simp [perform, found, bind, Except.bind] at h
    | ok at_step =>
      simp only [perform, found, bind, Except.bind, pure, Except.pure, Except.ok.injEq] at h
      rw [← h]
      refine (d.foldl_handle_carries at_step.2.listeners _ id).congr fun q => ?_
      exact (completedBy_finish_iff found id errors stoppedEarly q).symm

/-- What the engine cannot do completes nothing. -/
theorem not_completedBy_of_error {d : Deployment σ} {step : EngineStep} {fault : StepFault}
    (h : d.perform step = .error fault) (id : PopulationId) (q : Query) :
    ¬d.CompletedBy id step q := by
  rintro ⟨run, name, stoppedEarly, rfl, ⟨r, output, found, -⟩, -⟩
  simp [perform, found, bind, Except.bind, pure, Except.pure] at h

/-- One line of a script carries every population. -/
theorem line_carries (d : Deployment σ) (line : Option EngineStep) (id : PopulationId) :
    d.Carries (d.performScript [line]) id fun q => ∃ step, line = some step ∧
      d.CompletedBy id step q := by
  cases line with
  | none =>
    have same : (d.performScript [none]).population? id = d.population? id := rfl
    exact (Carries.of_same same).congr fun q => by simp
  | some step =>
    simp only [Option.some.injEq, exists_eq_left']
    cases outcome : d.perform step with
    | error fault =>
      have nothing : d.performScript [some step] = d.log .stepImpossible := by
        simp [performScript, outcome]
      rw [nothing]
      exact (Carries.of_same rfl).congr fun q =>
        iff_of_false not_false (not_completedBy_of_error outcome id q)
    | ok d' =>
      have done : d.performScript [some step] = d' := by
        simp [performScript, outcome]
      rw [done]
      exact perform_carries outcome id

end DataService.Deployment
