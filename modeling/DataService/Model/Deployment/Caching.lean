import DataService.Model.Deployment.Capture
import DataService.Model.Service.Deposit
import DataService.Model.Service.Lookup

/-!
# Caching

What a service does in a deployment: it looks queries up in its cache, populates the cache from a
run, deposits the results that wait, and pushes filters down. Among the queries of one exact key a
single population serves all that its bounds can answer; a query that needs more starts a
population of its own, which takes the place of the bounded one on the board.
-/

set_option autoImplicit false

namespace DataService

/-- How a query came to a population. -/
inductive Admission where
  /-- A new population was started on the run of the query. -/
  | started (population : PopulationId)
  /-- The query waits for a population that is already in flight. -/
  | attached (population : PopulationId)
  deriving DecidableEq, Repr

namespace Deployment

variable {σ : Type}

/-- Looks up a query in the cache of a service. -/
def lookup [ResultStore σ] (d : Deployment σ) (s : Service) (q : Query) :
    Deployment σ × Except Failure (Option CachedResult) :=
  match d.withStore s.store (.ok none) (s.lookup q) with
  | (d', .error failure) => (d', .error failure)
  | (d', .ok none) => (d', .ok none)
  | (d', .ok (some answer)) =>
    (d'.measure (·.add (.lookups s.name answer.outcome) 1), .ok answer.result)

/-- Whether a population can answer a query, as far as its bounds tell. -/
def canAnswer (d : Deployment σ) (id : PopulationId) (q : Query) : Bool :=
  (d.population? id).any (·.canAnswer q)

/-- Whether a population has resolved. -/
def isResolved (d : Deployment σ) (id : PopulationId) : Bool :=
  (d.population? id).any (·.phase.isResolved)

/-- Takes back the note of a population that was refused. A population that it displaced returns to
its place if it is still unresolved. -/
def withdraw (d : Deployment σ) (board : BoardId) (key : CacheKey) (refused : PopulationId)
    (displaced : Option PopulationId) : Deployment σ :=
  d.modifyBoard board fun b =>
    if b.get? key = some refused then
      match displaced.filter fun id => !d.isResolved id with
      | some previous => b.put key previous
      | none => b.erase key
    else b

/-- Reports how many populations a service has in flight. -/
def reportFlights (d : Deployment σ) (s : Service) : Deployment σ :=
  d.measure (·.setInFlight s.name (d.board s.board).size)

/-- Starts a population for a key in the place of one that cannot answer the query, if there is
one. -/
def startPopulation (d : Deployment σ) (s : Service) (q : Query) (key : CacheKey) (run : RunId)
    (label : String) (displaced : Option PopulationId) :
    Deployment σ × Except Failure Admission :=
  let (added, id) :=
    d.addPopulation { label, key, query := q, outputStep := s.definition.outputStep }
  let installed := (added.modifyBoard s.board (·.put key id)).install id run
  match (installed.population? id).bind (·.refusal) with
  | some failure => ((installed.withdraw s.board key id displaced).reportFlights s, .error failure)
  | none =>
    let delivery : Delivery :=
      { service := s.name, cache := s.cacheName, key, population := id
        store := s.store, board := s.board }
    ((installed.reportFlights s).onResolved id (.deliver delivery), .ok (.started id))

/-- Populates the cache of a service from a run, or attaches the query to the population that is in
flight for its key. The label shows a new population. -/
def populate (d : Deployment σ) (s : Service) (q : Query) (run : RunId) (label : String) :
    Deployment σ × Except Failure Admission :=
  match s.definition.resultCache? with
  | none => (d, .error (.configuration (.noResultCache s.name)))
  | some _ =>
    match CacheKey.ofQuery q with
    | .error failure => (d, .error failure)
    | .ok key =>
      match (d.board s.board).get? key with
      | none => d.startPopulation s q key run label none
      | some current =>
        if d.canAnswer current q then
          (d.measure (·.add (.attachments s.name) 1), .ok (.attached current))
        else d.startPopulation s q key run label (some current)

/-- Deposits one result, and takes its population off the board. -/
def settleOne [ResultStore σ] (d : Deployment σ) (errand : Delivery) (result : CachedResult) :
    Deployment σ :=
  let (stored, _) :=
    d.withStore errand.store () fun w => (w.deposit errand.cache errand.key result, ())
  stored.clearFlight errand

/-- Deposits the results that wait, in the order in which their populations resolved. -/
def settle [ResultStore σ] (d : Deployment σ) : Deployment σ :=
  d.pending.foldl (fun d p => d.settleOne p.1 p.2) { d with pending := [] }

/-- What a service pushes down of a filter into a step. -/
def pushDown (d : Deployment σ) (s : Service) (f : Filter) (step : String) :
    Deployment σ × Option Filter :=
  let pushed := s.definition.pushFor f step
  (d.measure (·.add (.pushDowns s.name step pushed.isSome) 1), pushed)

end Deployment

end DataService
