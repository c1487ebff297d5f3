import DataService.Model.Table

/-!
# Metrics

What the services report about themselves: counters that only grow, and one gauge per service for
its populations in flight. A counter that was never raised above zero is not reported, a gauge is
reported once it has been set.
-/

set_option autoImplicit false

namespace DataService

/-- How a look-up ended. -/
inductive LookupOutcome where
  | hit
  | miss
  /-- An entry was found that cannot answer the query. -/
  | insufficient
  deriving DecidableEq, Repr

/-- The name of an outcome. -/
def LookupOutcome.name : LookupOutcome → String
  | .hit => "hit"
  | .miss => "miss"
  | .insufficient => "insufficient"

/-- How a population ended. -/
inductive Ending where
  | complete
  | bounded
  | failed
  deriving DecidableEq, Repr

/-- The name of an ending. -/
def Ending.name : Ending → String
  | .complete => "complete"
  | .bounded => "partial"
  | .failed => "failed"

/-- The counters. -/
inductive Counter where
  | lookups (service : String) (outcome : LookupOutcome)
  | populations (service : String) (ending : Ending)
  | populatedRows (service : String)
  | attachments (service : String)
  | replayedRows
  | droppedRows
  | pushDowns (service step : String) (mapped : Bool)
  deriving DecidableEq, Repr

namespace Counter

/-- The name under which a counter is reported. -/
def name : Counter → String
  | .lookups _ _ => "dataservice_cache_lookups_total"
  | .populations _ _ => "dataservice_populations_total"
  | .populatedRows _ => "dataservice_populated_rows_total"
  | .attachments _ => "dataservice_population_attach_total"
  | .replayedRows => "dataservice_replayed_rows_total"
  | .droppedRows => "dataservice_replay_dropped_rows_total"
  | .pushDowns _ _ _ => "dataservice_pushdown_total"

/-- The labels that tell counters of one name apart, sorted by label. -/
def labels : Counter → List (String × String)
  | .lookups service outcome => [("outcome", outcome.name), ("service", service)]
  | .populations service ending => [("outcome", ending.name), ("service", service)]
  | .populatedRows service => [("service", service)]
  | .attachments service => [("service", service)]
  | .replayedRows => []
  | .droppedRows => []
  | .pushDowns service step mapped =>
    [("outcome", if mapped then "mapped" else "unmappable"), ("service", service), ("step", step)]

end Counter

/-- The name under which the gauge of populations in flight is reported. -/
def inFlightName : String := "dataservice_populations_in_flight"

/-- The text of a metric's name and labels. -/
def metricText (name : String) (labels : List (String × String)) : String :=
  name ++ "\x7b" ++ String.intercalate "," (labels.map fun l => l.1 ++ "=" ++ l.2) ++ "\x7d"

/-- The state of all metrics. -/
structure Metrics where
  counters : Table Counter Nat := .empty
  /-- The populations in flight as each service last saw them. -/
  gauges : Table String Nat := .empty
  deriving Inhabited

namespace Metrics

/-- The value of a counter. -/
def count (m : Metrics) (c : Counter) : Nat := (m.counters.get? c).getD 0

/-- Raises a counter. -/
def add (m : Metrics) (c : Counter) (n : Nat) : Metrics :=
  { m with counters := m.counters.put c (m.count c + n) }

/-- Counts a population that ended, and the rows that it brought. -/
def addPopulation (m : Metrics) (service : String) (ending : Ending) (rows : Nat) : Metrics :=
  (m.add (.populations service ending) 1).add (.populatedRows service) rows

/-- Counts a replay by the rows it delivered and those it dropped. -/
def addReplay (m : Metrics) (delivered dropped : Nat) : Metrics :=
  (m.add .replayedRows delivered).add .droppedRows dropped

/-- Sets the number of populations that a service has in flight. -/
def setInFlight (m : Metrics) (service : String) (n : Nat) : Metrics :=
  { m with gauges := m.gauges.put service n }

/-- The number of populations that a service has in flight, if it was ever set. -/
def inFlight? (m : Metrics) (service : String) : Option Nat := m.gauges.get? service

/-- Raising a counter changes it by what was added, and no other counter. -/
theorem count_add (m : Metrics) (c d : Counter) (n : Nat) :
    (m.add c n).count d = if d = c then m.count c + n else m.count d := by
  by_cases h : d = c <;> simp [count, add, Table.get?_put, h]

/-- The report: every metric with its value, sorted by text. -/
def report (m : Metrics) : List (String × Nat) :=
  let counters := (m.counters.entries.filter (·.2 ≠ 0)).map fun e =>
    (metricText e.1.name e.1.labels, e.2)
  let gauges := m.gauges.entries.map fun e => (metricText inFlightName [("service", e.1)], e.2)
  (counters ++ gauges).mergeSort fun a b => decide (a.1 ≤ b.1)

end Metrics

end DataService
