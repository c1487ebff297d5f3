import DataService.Model.Deployment.Basic

/-!
# Capturing runs

How the rows of a run come into a population. A population is installed on a run, which it has to
claim first; when the run is ready it listens to its output step; and what the engine does from
then on reaches it as events. When a population resolves, its waiters are informed at once: one
that goes by a tag makes the outcome known, and a service lines up a result to be deposited or,
after a failure, takes the population off its board.
-/

set_option autoImplicit false

namespace DataService.Deployment

variable {σ : Type}

/-- Takes a population off the board on which it is noted as in flight, unless another one has taken
its place there. -/
def clearFlight (d : Deployment σ) (errand : Delivery) : Deployment σ :=
  let cleared := d.modifyBoard errand.board fun b =>
    if b.get? errand.key = some errand.population then b.erase errand.key else b
  cleared.measure (·.setInFlight errand.service (cleared.board errand.board).size)

/-- Hands the outcome of a population to a service. A result waits to be deposited, and until then
the population stays on the board; a failure takes it off at once. -/
def receive (d : Deployment σ) (errand : Delivery) : Outcome → Deployment σ
  | .ok result =>
    let ending := if result.isComplete then .complete else .bounded
    let counted := d.measure (·.addPopulation errand.service ending result.rows.length)
    { counted with pending := counted.pending ++ [(errand, result)] }
  | .error _ => (d.measure (·.addPopulation errand.service .failed 0)).clearFlight errand

mutual

/-- Informs a waiter of an outcome. Waiters that it registers in turn are informed at once, since
the population has resolved. -/
def inform (outcome : Outcome) : Waiter → Deployment σ → Deployment σ
  | .announce tag further, d => informAll outcome further (d.log (.resolved tag outcome))
  | .deliver errand, d => d.receive errand outcome

/-- Informs waiters, one after the other. -/
def informAll (outcome : Outcome) : List Waiter → Deployment σ → Deployment σ
  | [], d => d
  | w :: ws, d => informAll outcome ws (inform outcome w d)

end

/-- Lets a population take a step, and informs the waiters that it hands out. -/
def advance (d : Deployment σ) (id : PopulationId)
    (take : Population → Population × List Waiter) : Deployment σ :=
  match d.population? id with
  | none => d
  | some p =>
    let after := take p
    let d' := d.modifyPopulation id fun _ => after.1
    match after.1.outcome with
    | none => d'
    | some outcome => informAll outcome after.2 d'

/-- Resolves a population, unless it has resolved already. -/
def resolve (d : Deployment σ) (id : PopulationId) (outcome : Outcome) : Deployment σ :=
  d.advance id (·.resolve outcome)

/-- Lets something happen to a population. -/
def handle (d : Deployment σ) (id : PopulationId) (event : PopulationEvent) : Deployment σ :=
  d.advance id (·.handle event)

/-- Registers a waiter on a population. -/
def onResolved (d : Deployment σ) (id : PopulationId) (waiter : Waiter) : Deployment σ :=
  d.advance id (·.onResolved waiter)

/-- Lets a population listen to its output step in a run. A population that has started before, or
has resolved, does not listen again. -/
def collect (d : Deployment σ) (id : PopulationId) (runId : RunId) : Deployment σ :=
  match d.population? id, d.run? runId with
  | some p, some run =>
    if run.outputs.contains p.outputStep then
      if p.phase = .created then
        (d.modifyPopulation id fun p => { p with phase := .collecting }).modifyRun runId
          fun r => r.addListener p.outputStep id
      else d
    else d.resolve id (.error (.configuration (.noOutputStep p.outputStep)))
  | _, _ => d

/-- Installs a population on a run: it claims the run and starts to collect once the run is ready,
at once if it is. A population that finds another owner resolves as failed. -/
def install (d : Deployment σ) (id : PopulationId) (runId : RunId) : Deployment σ :=
  match d.population? id, d.run? runId with
  | some p, some run =>
    match run.hooks.claim (.population id p.label) with
    | .error holder =>
      let failure := Failure.alreadyTracked holder.text
      (d.modifyPopulation id (·.refuse failure)).resolve id (.error failure)
    | .ok claimed =>
      let (hooks, now) := claimed.onReady id
      let installed := (d.modifyRun runId fun r => { r with hooks }).modifyPopulation id
        fun p => { p with run := some runId }
      match now with
      | some callback => installed.collect callback runId
      | none => installed
  | _, _ => d

/-- Marks a run as ready, and lets the populations installed on it collect. -/
def ready (d : Deployment σ) (run : Run) : Deployment σ :=
  let (hooks, callbacks) := run.hooks.fire
  callbacks.foldl (fun d id => d.collect id run.id) (d.modifyRun run.id fun r => { r with hooks })

/-- Hands a row to a population that listens. A row that does not fit its layout fails the
population. -/
def handRow (layout : Layout) (cells : List Document) (d : Deployment σ) (id : PopulationId) :
    Deployment σ :=
  match Row.capture layout cells with
  | .ok row => d.handle id (.row row)
  | .error fault => d.handle id (.failed (.rowConversion layout.step fault))

/-- What a listener makes of the end of a step. Errors outweigh everything else. -/
def endEvent (errors : List String) (stoppedEarly : Bool) : PopulationEvent :=
  if errors.isEmpty then .finished stoppedEarly else .failed (.populationFailed errors)

/-- Why the engine cannot do a step. -/
inductive StepFault where
  | noRun
  | noStep
  deriving DecidableEq, Repr

/-- A run of a name and a step that it has. -/
def outputOf (d : Deployment σ) (run step : String) : Except StepFault (Run × StepOutput) :=
  match d.runs.get? run with
  | none => .error .noRun
  | some r =>
    match r.outputs.get? step with
    | none => .error .noStep
    | some output => .ok (r, output)

/-- Lets the engine do a step. -/
def perform (d : Deployment σ) : EngineStep → Except StepFault (Deployment σ)
  | .start run =>
    match d.runs.get? run with
    | none => .error .noRun
    | some r => .ok (d.ready r)
  | .stop run =>
    match d.runs.get? run with
    | none => .error .noRun
    | some r => .ok (d.modifyRun r.id fun r => { r with running := false })
  | .emit run step cells => do
    let (_, output) ← d.outputOf run step
    return output.listeners.foldl (handRow ⟨step, output.fields⟩ cells) d
  | .finish run step errors stoppedEarly => do
    let (_, output) ← d.outputOf run step
    return output.listeners.foldl (·.handle · (endEvent errors stoppedEarly)) d

end DataService.Deployment
