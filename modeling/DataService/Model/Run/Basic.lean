import DataService.Model.Identity
import DataService.Model.Row
import DataService.Model.Run.Hooks
import DataService.Model.Table

/-!
# Runs

A run is one execution of a pipeline by an engine. It has steps whose rows can be listened to,
steps where rows can be fed in, and the hooks of its lifecycle. Asking a run whether it is running
uses up one of its polls, and a run without polls has come to its end; so no one can wait for a run
for ever. What happens while rows are fed in is told in advance by a script of offers.
-/

set_option autoImplicit false

namespace DataService

/-- What an engine does to a run, which it reaches by its name. -/
inductive EngineStep where
  /-- The run becomes ready. -/
  | start (run : String)
  /-- The run stops. -/
  | stop (run : String)
  /-- A row leaves a step. -/
  | emit (run step : String) (cells : List Document)
  /-- A step has written its last row: the errors of the run, and whether it was cut short. -/
  | finish (run step : String) (errors : List String) (stoppedEarly : Bool)

/-- What happens when a row is offered. -/
structure Offer where
  /-- The row is accepted. -/
  accepted : Bool := true
  /-- What the engine does before it answers; `none` stands for something it cannot do. -/
  meanwhile : List (Option EngineStep) := []

/-- The output of a step. -/
structure StepOutput where
  fields : List String
  /-- The populations that listen, in the order in which they came. -/
  listeners : List PopulationId := []

/-- A run. -/
structure Run where
  id : RunId
  hooks : Hooks Owner PopulationId := {}
  running : Bool := true
  /-- How many times the run can still be found running. -/
  polls : Nat
  outputs : Table String StepOutput
  /-- The steps where rows can be fed in. -/
  injectors : List String
  /-- The script of the offers to come. -/
  offers : List Offer

namespace Run

/-- Asks whether the run is running. -/
def ask (r : Run) : Run × Bool :=
  if r.running then
    match r.polls with
    | 0 => ({ r with running := false }, false)
    | n + 1 => ({ r with polls := n }, true)
  else (r, false)

/-- Adds a listener to a step. -/
def addListener (r : Run) (step : String) (listener : PopulationId) : Run :=
  { r with
    outputs := r.outputs.modify step fun o => { o with listeners := o.listeners ++ [listener] } }

/-- The layout of the rows that leave a step. -/
def layout? (r : Run) (step : String) : Option Layout :=
  (r.outputs.get? step).map fun o => ⟨step, o.fields⟩

end Run

end DataService
