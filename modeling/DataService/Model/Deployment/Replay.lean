import DataService.Model.Deployment.Reading

/-!
# Replaying rows

A replay feeds captured rows into a run in the place of the steps that would produce them. It takes
the producer out of the run, takes the default consumer off the bypassed output, offers the rows in
their order, each one until it is accepted, and tells the run when no more follow. A run that is
no longer running ends the replay early, and that is no failure; a population that fails while its
rows are replayed is one, after the run has been told that no more rows follow.

A replay is a machine that makes one small step after the other, so that it can be followed
through whatever an engine does between two steps; `replay` lets it go to its end. It comes to one
because every offer of a row, and every wait for one, uses up a poll of a run.
-/

set_option autoImplicit false

namespace DataService

/-- Where the rows of a replay come from. -/
inductive ReplaySource where
  /-- A result that was kept. -/
  | kept (result : CachedResult)
  /-- A population, which may still be in flight. -/
  | live (population : PopulationId)

/-- A replay. -/
structure Replay where
  source : ReplaySource
  wiring : Wiring
  /-- How long a row is offered, in milliseconds. -/
  putTimeout : UInt64
  /-- How long the start of a population is waited for, in milliseconds. -/
  startupTimeout : UInt64
  /-- The run into which the rows are fed. -/
  target : RunId

/-- How far a replay has come. -/
inductive Stage where
  /-- A population has to start before anything else happens. -/
  | opening
  /-- The run has to be wired. -/
  | wiring
  /-- So many rows were accepted, and the next one is looked for. -/
  | reading (delivered : Nat)
  /-- There is a next row, and the run has to be running. -/
  | asking (delivered : Nat) (row : Row)
  /-- The next row is to be offered. -/
  | offering (delivered : Nat) (row : Row)
  /-- There are no more rows, or the run has stopped. -/
  | closing (delivered : Nat) (stopped : Bool)
  /-- The run has to be told that no more rows follow. -/
  | finishing (delivered : Nat) (failure : Option Failure)
  /-- The replay is over. -/
  | done (answer : Except Failure Nat)

/-- How many stages can follow without a poll. -/
def Stage.rank : Stage → Nat
  | .opening => 7
  | .wiring => 6
  | .offering _ _ => 5
  | .reading _ => 4
  | .asking _ _ => 3
  | .closing _ _ => 2
  | .finishing _ _ => 1
  | .done _ => 0

/-- The answer of a replay that is over. -/
def Stage.answer? : Stage → Option (Except Failure Nat)
  | .done answer => some answer
  | _ => none

namespace Deployment

variable {σ : Type}

/-- Lets the engine do what a script says. -/
def performScript (d : Deployment σ) (script : List (Option EngineStep)) : Deployment σ :=
  script.foldl (fun d step =>
    match step.map d.perform with
    | some (.ok d') => d'
    | some (.error _) | none => d.log .stepImpossible) d

/-- Offers a row to a run. The next offer of the run's script says whether it is accepted and what
the engine does meanwhile; beyond the script every row is accepted. -/
def offer (d : Deployment σ) (id : RunId) (milliseconds : UInt64) (row : Row) :
    Deployment σ × Bool :=
  match (d.run? id).map (·.offers) with
  | none | some [] => (d.log (.rowOffered id milliseconds row true), true)
  | some (o :: rest) =>
    let taken := d.modifyRun id fun r => { r with offers := rest }
    ((taken.log (.rowOffered id milliseconds row o.accepted)).performScript o.meanwhile, o.accepted)

/-- What a script lets the engine do keeps the polls left. -/
theorem pollsLeft_performScript (d : Deployment σ) (script : List (Option EngineStep)) :
    (d.performScript script).pollsLeft = d.pollsLeft := by
  refine pollsLeft_foldl _ (fun d step => ?_) _ _
  cases step with
  | none => rfl
  | some s =>
    cases h : d.perform s with
    | error fault => simp [h, log, pollsLeft]
    | ok d' => simpa [h] using pollsLeft_perform h

/-- Offering a row keeps the polls left. -/
theorem pollsLeft_offer (d : Deployment σ) (id : RunId) (milliseconds : UInt64) (row : Row) :
    (d.offer id milliseconds row).1.pollsLeft = d.pollsLeft := by
  unfold offer
  split
  · rfl
  · rfl
  · rw [pollsLeft_performScript]
    exact pollsLeft_modifyRun _ _ _ fun _ => rfl

end Deployment

namespace Replay

variable {σ : Type}

/-- Takes the bypassed steps out of the run. -/
def wire (r : Replay) (d : Deployment σ) : Deployment σ :=
  (d.log (.startupRemoved r.target r.wiring.producerStep)).log
    (.drainRemoved r.target r.wiring.bypassedOutput)

/-- The failure of the source, if it is a population that failed. -/
def sourceFailure (r : Replay) (d : Deployment σ) : Option Failure :=
  match r.source with
  | .kept _ => none
  | .live id =>
    match (d.population? id).bind (·.outcome) with
    | some (.error failure) => some failure
    | _ => none

/-- The failure of a replay whose population did not start in time. -/
def startFailure (r : Replay) (label : String) : Failure :=
  .timeout (.start label) r.startupTimeout

/-- The rows that a replay has not delivered. Of a population it is not known how many it will
have. -/
def dropped (r : Replay) (delivered : Nat) : Nat :=
  match r.source with
  | .kept result => result.rows.length - delivered
  | .live _ => 0

/-- Looks for the next row of the source. -/
def look (r : Replay) (d : Deployment σ) (position : Nat) : Deployment σ × Deployment.Sight :=
  match r.source with
  | .kept result =>
    match result.rows[position]? with
    | some row => (d, .row row)
    | none => (d, .ended)
  | .live id => d.look id position

/-- Makes one step. -/
def step (r : Replay) (d : Deployment σ) : Stage → Deployment σ × Stage
  | .opening =>
    match r.source with
    | .kept _ => (d, .wiring)
    | .live id =>
      match d.population? id with
      | none => (d, .wiring)
      | some p =>
        if p.hasStarted then (d, .wiring) else (d, .done (.error (r.startFailure p.label)))
  | .wiring =>
    if (d.run? r.target).any (·.injectors.contains r.wiring.injectionStep) then
      (r.wire d, .reading 0)
    else (d, .done (.error (.configuration (.noInjectionStep r.wiring.injectionStep))))
  | .reading delivered =>
    match r.look d delivered with
    | (d', .row row) => (d', .asking delivered row)
    | (d', .waiting) => (d', .reading delivered)
    | (d', .ended) => (d', .closing delivered false)
  | .asking delivered row =>
    match d.ask r.target with
    | (d', true) => (d', .offering delivered row)
    | (d', false) => (d', .closing delivered true)
  | .offering delivered row =>
    match d.offer r.target r.putTimeout row with
    | (d', true) => (d', .reading (delivered + 1))
    | (d', false) => (d', .asking delivered row)
  | .closing delivered stopped =>
    (d, .finishing delivered (if stopped then none else r.sourceFailure d))
  | .finishing delivered failure =>
    let told :=
      (d.log (.feedEnded r.target)).measure (·.addReplay delivered (r.dropped delivered))
    (told, .done (match failure with
      | some f => .error f
      | none => .ok delivered))
  | .done answer => (d, .done answer)

/-- How many steps a replay can still make. -/
def stepsLeft (d : Deployment σ) (stage : Stage) : Nat := 4 * d.pollsLeft + stage.rank

/-- Looking for a row of the source costs a poll if the row has to be waited for, and nothing
otherwise. -/
theorem pollsLeft_look (r : Replay) (d : Deployment σ) (position : Nat) :
    (r.look d position).1.pollsLeft ≤ d.pollsLeft ∧
      ((r.look d position).2 = .waiting → (r.look d position).1.pollsLeft < d.pollsLeft) := by
  unfold look
  split
  · split <;> simp
  · exact ⟨Deployment.pollsLeft_look_le .., fun h => Deployment.pollsLeft_look (Prod.ext rfl h)⟩

/-- Until a replay is over, every step brings it nearer to its end. -/
theorem stepsLeft_step (r : Replay) (d : Deployment σ) (stage : Stage)
    (h : stage.answer? = none) :
    stepsLeft (r.step d stage).1 (r.step d stage).2 < stepsLeft d stage := by
  cases stage with
  | opening =>
    simp only [step]
    split
    · simp [stepsLeft, Stage.rank]
    · split
      · simp [stepsLeft, Stage.rank]
      · split <;> simp [stepsLeft, Stage.rank]
  | wiring =>
    simp only [step]
    split
    · simp [stepsLeft, Stage.rank, wire, Deployment.log, Deployment.pollsLeft]
    · simp [stepsLeft, Stage.rank]
  | reading delivered =>
    obtain ⟨hle, hlt⟩ := r.pollsLeft_look d delivered
    rcases hlook : r.look d delivered with ⟨d', sight⟩
    rw [hlook] at hle hlt
    dsimp only at hle hlt
    cases sight with
    | row row => simp only [step, hlook, stepsLeft, Stage.rank]; omega
    | waiting =>
      have := hlt rfl
      simp only [step, hlook, stepsLeft, Stage.rank]; omega
    | ended => simp only [step, hlook, stepsLeft, Stage.rank]; omega
  | asking delivered row =>
    have hle := d.pollsLeft_ask_le r.target
    rcases hask : d.ask r.target with ⟨d', running⟩
    rw [hask] at hle
    dsimp only at hle
    cases running with
    | true =>
      have := Deployment.pollsLeft_ask hask
      simp only [step, hask, stepsLeft, Stage.rank]; omega
    | false => simp only [step, hask, stepsLeft, Stage.rank]; omega
  | offering delivered row =>
    have hkept := d.pollsLeft_offer r.target r.putTimeout row
    rcases hoffer : d.offer r.target r.putTimeout row with ⟨d', accepted⟩
    rw [hoffer] at hkept
    dsimp only at hkept
    cases accepted <;> simp only [step, hoffer, stepsLeft, Stage.rank] <;> omega
  | closing delivered stopped => simp [step, stepsLeft, Stage.rank]
  | finishing delivered failure =>
    simp [step, stepsLeft, Stage.rank, Deployment.log, Deployment.measure, Deployment.pollsLeft]
  | done answer => simp [Stage.answer?] at h

/-- Lets a replay go to its end from a stage on. -/
def drive (r : Replay) (d : Deployment σ) (stage : Stage) : Deployment σ × Except Failure Nat :=
  match _h : stage.answer? with
  | some answer => (d, answer)
  | none =>
    let next := r.step d stage
    r.drive next.1 next.2
termination_by stepsLeft d stage
decreasing_by exact stepsLeft_step r d stage _h

/-- Replays the source into the run, and returns the number of rows accepted. -/
def replay (r : Replay) (d : Deployment σ) : Deployment σ × Except Failure Nat := r.drive d .opening

end Replay

/-- A replay under the settings of a service. -/
def Settings.replay (settings : Settings) (source : ReplaySource) (wiring : Wiring)
    (target : RunId) : Replay :=
  { source, wiring, target
    putTimeout := settings.effectivePutTimeout
    startupTimeout := settings.startupTimeout }

/-- Replays rows for a service, with its own wiring and settings. -/
def Deployment.replayFor {σ : Type} (d : Deployment σ) (s : Service) (source : ReplaySource)
    (target : RunId) : Deployment σ × Except Failure Nat :=
  match s.definition.resultCache? with
  | none => (d, .error (.configuration (.noResultCache s.name)))
  | some cache => (s.settings.replay source cache.wiring target).replay d

end DataService
