import DataService.Model.Cache.Key
import DataService.Model.Cache.Result
import DataService.Model.Identity

/-!
# Populations

A population captures the rows of one run. It is created, collects rows once its run is ready, and
resolves exactly once: with all rows, with the rows up to where the run stopped early, or with a
failure. Those who wait for it are informed when it resolves; one who comes later is informed at
once.

A waiter is data. An operation that resolves a population hands out the waiters that were
registered, and whoever called it informs them, in their order.
-/

set_option autoImplicit false

namespace DataService

/-- The phases of a population. -/
inductive Phase where
  /-- Waiting for a run to become ready. -/
  | created
  /-- Listening to the output step. -/
  | collecting
  /-- All rows of the run were captured. -/
  | completed
  /-- The rows are those of a bounded capture. -/
  | bounded
  | failed
  deriving DecidableEq, Repr, Inhabited

namespace Phase

/-- The name of a phase. -/
def name : Phase → String
  | .created => "Created"
  | .collecting => "Collecting"
  | .completed => "Completed"
  | .bounded => "Partial"
  | .failed => "Failed"

/-- Whether a population in this phase has an outcome. -/
def isResolved : Phase → Bool
  | .created | .collecting => false
  | .completed | .bounded | .failed => true

end Phase

/-- How a population ends. -/
abbrev Outcome := Except Failure CachedResult

/-- The phase of a population that ended so. -/
def Outcome.phase : Outcome → Phase
  | .ok result => if result.isComplete then .completed else .bounded
  | .error _ => .failed

/-- Where a service wants the result of a population to go. -/
structure Delivery where
  /-- The name of the service. -/
  service : String
  /-- The cache of the service. -/
  cache : String
  /-- The exact key of the population. -/
  key : CacheKey
  population : PopulationId
  store : StoreId
  /-- The board that names the population as long as it is in flight. -/
  board : BoardId
  deriving DecidableEq

/-- Someone who waits for a population to resolve. -/
inductive Waiter where
  /-- Makes the outcome known under a tag, and registers further waiters on the same population. -/
  | announce (tag : String) (further : List Waiter)
  /-- Hands the outcome to a service. -/
  | deliver (delivery : Delivery)

/-- What happens to a population. -/
inductive PopulationEvent where
  | row (row : Row)
  /-- The run came to its end, or stopped before it. -/
  | finished (stoppedEarly : Bool)
  | failed (failure : Failure)

/-- A population. -/
structure Population where
  /-- How the population is shown. -/
  label : String
  key : CacheKey
  /-- The query whose bounds hold for the capture. -/
  query : Query
  /-- The step whose rows are captured. -/
  outputStep : String
  phase : Phase := .created
  /-- The rows captured so far. -/
  rows : List Row := []
  /-- No more rows will be captured. -/
  closed : Bool := false
  outcome : Option Outcome := none
  /-- Why the population could not be installed, if it was refused. -/
  refusal : Option Failure := none
  /-- The run on which the population was last installed. -/
  run : Option RunId := none
  /-- Who waits for the population to resolve, in the order of registration. -/
  waiters : List Waiter := []

namespace Population

/-- Whether the capture, however it ends, holds enough rows for a query. It is judged by the bounds
of the capturing query, also when that capture happens to end complete. -/
def canAnswer (p : Population) (q : Query) : Bool := (CachedResult.partialFor [] p.query).answers q

/-- Resolves the population and hands out its waiters. A resolved population stays as it is. -/
def resolve (p : Population) (outcome : Outcome) : Population × List Waiter :=
  match p.outcome with
  | some _ => (p, [])
  | none =>
    ({ p with phase := outcome.phase, closed := true, outcome := some outcome, waiters := [] },
      p.waiters)

/-- The result of the rows captured so far, for a run that ends now. -/
def resultAtEnd (p : Population) (stoppedEarly : Bool) : CachedResult :=
  if stoppedEarly then .partialFor p.rows p.query else .complete p.rows

/-- What an event makes of the population, and the waiters to be informed. Rows count only while
the population collects. -/
def handle (p : Population) : PopulationEvent → Population × List Waiter
  | .row row =>
    if p.closed ∨ p.phase ≠ .collecting then (p, []) else ({ p with rows := p.rows ++ [row] }, [])
  | .finished stoppedEarly => p.resolve (.ok (p.resultAtEnd stoppedEarly))
  | .failed failure => p.resolve (.error failure)

/-- Registers a waiter. A population that has an outcome keeps none: the waiter is to be informed
now. -/
def onResolved (p : Population) (waiter : Waiter) : Population × List Waiter :=
  match p.outcome with
  | some _ => (p, [waiter])
  | none => ({ p with waiters := p.waiters ++ [waiter] }, [])

/-- Whether a wait for the start of the population would end. -/
def hasStarted (p : Population) : Bool := p.phase ≠ .created

/-- Notes why the population was refused. The first reason stands. -/
def refuse (p : Population) (failure : Failure) : Population :=
  { p with refusal := p.refusal.orElse fun _ => some failure }

end Population

/-- An observer of the phases of a population. -/
structure Watch where
  population : PopulationId
  /-- The phase that was last seen. -/
  seen : Phase
  deriving DecidableEq, Repr, Inhabited

namespace Watch

/-- Looks at the current phase: whether it is another one than was last seen, and the watch that
has seen it. A population never returns to a phase that it left. -/
def look (w : Watch) (current : Phase) : Watch × Bool :=
  ({ w with seen := current }, w.seen ≠ current)

end Watch

end DataService
