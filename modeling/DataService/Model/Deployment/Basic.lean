import DataService.Model.Metrics
import DataService.Model.Population
import DataService.Model.Run.Basic
import DataService.Model.Service.Basic
import DataService.Model.Store.Interface

/-!
# Deployments

A deployment is everything that services work with: the runs of an engine, the populations that
capture them, the stores, the boards on which services note the populations in flight, the results
that wait to be deposited, the metrics, and the list of what could be seen from outside. It is one
value, and every operation takes it from one state to the next.
-/

set_option autoImplicit false

namespace DataService

/-- What can be seen from outside while services are at work. -/
inductive Event where
  /-- A run is told not to start a step. -/
  | startupRemoved (run : RunId) (step : String)
  /-- An output of a run loses its default consumer. -/
  | drainRemoved (run : RunId) (step : String)
  /-- A row is offered to a run, which accepts it or not within a number of milliseconds. -/
  | rowOffered (run : RunId) (milliseconds : UInt64) (row : Row) (accepted : Bool)
  /-- A run is told that no more rows follow. -/
  | feedEnded (run : RunId)
  /-- A population resolved, for a waiter that goes by a tag. -/
  | resolved (tag : String) (outcome : Outcome)
  /-- A service made a call on its store. -/
  | storeCalled (store : StoreId) (call : StoreCall)
  /-- The script of an offer asks for a step that the engine cannot do. -/
  | stepImpossible

/-- The board on which services note the populations in flight, by exact key. -/
abbrev Board := Table CacheKey PopulationId

/-- The services' surroundings, with stores of type `σ`. -/
structure Deployment (σ : Type) where
  /-- The runs, by the names under which the engine reaches them. -/
  runs : Table String Run := .empty
  populations : Table PopulationId Population := .empty
  stores : Table StoreId σ := .empty
  boards : Table BoardId Board := .empty
  /-- The results that wait to be deposited, the first resolved first. -/
  pending : List (Delivery × CachedResult) := []
  metrics : Metrics := {}
  /-- What could be seen since the events were last collected, the first event first. -/
  events : List Event := []
  /-- The next serial number. -/
  serial : Nat := 0

namespace Deployment

variable {σ : Type}

instance : Inhabited (Deployment σ) := ⟨{}⟩

/-- Notes an event. -/
def log (d : Deployment σ) (event : Event) : Deployment σ :=
  { d with events := d.events ++ [event] }

/-- Changes the metrics. -/
def measure (d : Deployment σ) (f : Metrics → Metrics) : Deployment σ :=
  { d with metrics := f d.metrics }

/-- Hands out the events noted so far. -/
def collectEvents (d : Deployment σ) : Deployment σ × List Event :=
  ({ d with events := [] }, d.events)

/-- The run of an identity, if it still exists. -/
def run? (d : Deployment σ) (id : RunId) : Option Run :=
  (d.runs.get? id.name).filter (·.id = id)

/-- Changes a run, if it still exists. -/
def modifyRun (d : Deployment σ) (id : RunId) (f : Run → Run) : Deployment σ :=
  { d with runs := d.runs.modify id.name fun r => if r.id = id then f r else r }

/-- The population of an identity. -/
def population? (d : Deployment σ) (id : PopulationId) : Option Population := d.populations.get? id

/-- Changes a population. -/
def modifyPopulation (d : Deployment σ) (id : PopulationId) (f : Population → Population) :
    Deployment σ :=
  { d with populations := d.populations.modify id f }

/-- The populations noted on a board. -/
def board (d : Deployment σ) (id : BoardId) : Board := (d.boards.get? id).getD .empty

/-- Changes a board. -/
def modifyBoard (d : Deployment σ) (id : BoardId) (f : Board → Board) : Deployment σ :=
  { d with boards := d.boards.put id (f (d.board id)) }

/-- Adds a run under a name. A run that had the name is gone. -/
def addRun (d : Deployment σ) (name : String) (outputs : Table String StepOutput)
    (injectors : List String) (polls : Nat) (offers : List Offer) : Deployment σ × RunId :=
  let id : RunId := ⟨name, d.serial⟩
  ({ d with
      runs := d.runs.put name { id, polls, outputs, injectors, offers }
      serial := d.serial + 1 }, id)

/-- Drops the run of a name. -/
def dropRun (d : Deployment σ) (name : String) : Deployment σ :=
  { d with runs := d.runs.erase name }

/-- Adds a population. -/
def addPopulation (d : Deployment σ) (p : Population) : Deployment σ × PopulationId :=
  let id : PopulationId := ⟨d.serial⟩
  ({ d with populations := d.populations.put id p, serial := d.serial + 1 }, id)

/-- Adds a store. -/
def addStore (d : Deployment σ) (store : σ) : Deployment σ × StoreId :=
  let id : StoreId := ⟨d.serial⟩
  ({ d with stores := d.stores.put id store, serial := d.serial + 1 }, id)

/-- Adds an empty board. -/
def addBoard (d : Deployment σ) : Deployment σ × BoardId :=
  let id : BoardId := ⟨d.serial⟩
  ({ d with boards := d.boards.put id .empty, serial := d.serial + 1 }, id)

/-- Lets a service work on a store. The calls it makes can be seen from outside. -/
def withStore {α : Type} (d : Deployment σ) (id : StoreId) (otherwise : α)
    (work : Watched σ → Watched σ × α) : Deployment σ × α :=
  match d.stores.get? id with
  | none => (d, otherwise)
  | some store =>
    let (w, answer) := work ⟨store, []⟩
    ({ d with
        stores := d.stores.put id w.store
        events := d.events ++ w.calls.map (.storeCalled id) }, answer)

end Deployment

end DataService
