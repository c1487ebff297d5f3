import DataService.Model.PushDown.Restate
import DataService.Model.Document.Record

/-!
# Service definitions

A data service is a virtual table over a pipeline: a name, the step whose rows are its output, and
the strategies that make it faster. A push-down strategy hands an earlier step the part of a filter
that it can put in that step's terms; a result cache keeps the output and feeds it into later runs,
bypassing the steps that would produce it.
-/

set_option autoImplicit false

namespace DataService

/-- The steps at which kept rows are spliced into a run. -/
structure Wiring where
  /-- The step that would produce the rows. -/
  producerStep : String
  /-- The output whose default consumer is taken off. -/
  bypassedOutput : String
  /-- The step where the rows come in. -/
  injectionStep : String
  deriving DecidableEq, Repr, Inhabited

/-- Reads a wiring. -/
def Wiring.ofDocument? (d : Document) : Option Wiring := do
  match (← d.fields? ["producer_step", "bypassed_output", "injection_step"]).values with
  | [producer, bypassed, injection] =>
    return { producerStep := ← Document.required Document.text? producer
             bypassedOutput := ← Document.required Document.text? bypassed
             injectionStep := ← Document.required Document.text? injection }
  | _ => none

/-- A strategy that filters rows in an earlier step. -/
structure PushDown where
  name : String
  targetStep : String
  mappings : List FieldMapping := []
  deriving Inhabited

/-- A strategy that keeps results. -/
structure ResultCache where
  name : String
  wiring : Wiring
  deriving Inhabited

/-- A strategy of a service. -/
inductive Strategy where
  | pushDown (strategy : PushDown)
  | resultCache (strategy : ResultCache)
  deriving Inhabited

/-- The kinds of strategies. -/
inductive StrategyKind where
  | pushDown
  | resultCache
  deriving DecidableEq, Repr

/-- The name of a kind. -/
def StrategyKind.name : StrategyKind → String
  | .pushDown => "PredicatePushDown"
  | .resultCache => "ResultCache"

namespace Strategy

/-- The name of a strategy. -/
def name : Strategy → String
  | .pushDown s => s.name
  | .resultCache s => s.name

/-- The kind of a strategy. -/
def kind : Strategy → StrategyKind
  | .pushDown _ => .pushDown
  | .resultCache _ => .resultCache

/-- Whether a strategy acts on a step: a push-down on its target, a result cache on the steps where
it starts and ends. -/
def appliesTo (s : Strategy) (step : String) : Bool :=
  match s with
  | .pushDown s => s.targetStep == step
  | .resultCache s => s.wiring.producerStep == step || s.wiring.injectionStep == step

/-- What a strategy can push down of a filter. -/
def push (s : Strategy) (f : Filter) : Option Filter :=
  match s with
  | .pushDown s => f.restate (FieldMap.ofList s.mappings)
  | .resultCache _ => none

/-- Reads a push-down from its fields. -/
def pushDownOfFields? : List (Option Document) → Option PushDown
  | [name, target, mappings] => do
    return { name := ← Document.required Document.text? name
             targetStep := ← Document.required Document.text? target
             mappings :=
               ← Document.defaulting [] (Document.listOf? FieldMapping.ofDocument?) mappings }
  | _ => none

/-- Reads a result cache from its fields. -/
def resultCacheOfFields? : List (Option Document) → Option ResultCache
  | [name, wiring] => do
    return { name := ← Document.required Document.text? name
             wiring := ← Document.required Wiring.ofDocument? wiring }
  | _ => none

/-- Reads a strategy of a given type. -/
def ofTyped? (type : String) (d : Document) : Option Strategy :=
  match type with
  | "predicate_push_down" => do
    return .pushDown (← pushDownOfFields? (← d.fields? ["name", "target_step", "mappings"]).values)
  | "result_cache" => do
    return .resultCache (← resultCacheOfFields? (← d.fields? ["name", "wiring"]).values)
  | _ => none

/-- Reads a strategy. Its type stands beside the fields in an object and in front of them in an
array. -/
def ofDocument? (d : Document) : Option Strategy :=
  match d with
  | .object members =>
    match Document.member? members "type" with
    | some (some (.text type)) => ofTyped? type d
    | _ => none
  | .array (.text type :: fields) => ofTyped? type (.array fields)
  | _ => none

end Strategy

/-- The definition of a data service. -/
structure Definition where
  name : String
  /-- The step whose rows are the output of the service. -/
  outputStep : String
  strategies : List Strategy := []
  deriving Inhabited

namespace Definition

/-- The result cache of the service: the first one, if there are several. -/
def resultCache? (d : Definition) : Option ResultCache :=
  d.strategies.findSome? fun
    | .resultCache s => some s
    | .pushDown _ => none

/-- The strategies that act on a step. -/
def forStep (d : Definition) (step : String) : List Strategy :=
  d.strategies.filter (·.appliesTo step)

/-- What the first strategy that can push down for a step makes of a filter. -/
def pushFor (d : Definition) (f : Filter) (step : String) : Option Filter :=
  (d.forStep step).findSome? (·.push f)

/-- Reads a definition. -/
def ofDocument? (d : Document) : Option Definition := do
  match (← d.fields? ["name", "output_step", "strategies"]).values with
  | [name, output, strategies] =>
    return { name := ← Document.required Document.text? name
             outputStep := ← Document.required Document.text? output
             strategies :=
               ← Document.defaulting [] (Document.listOf? Strategy.ofDocument?) strategies }
  | _ => none

end Definition

end DataService
