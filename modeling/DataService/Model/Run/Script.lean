import DataService.Model.Run.Hooks
import DataService.Model.Text.Quoted

/-!
# Scripts on hooks

A script exercises the hooks of one run: steps claim it, register callbacks and mark it as ready,
and a callback may do all of this itself, to any depth. Running a script is a walk over a list of
tasks. A callback that is to run puts its own tasks in front, so the callback is over before
anything behind it goes on; the log says in which order things happened.
-/

set_option autoImplicit false

namespace DataService.HookScript

/-- What a step or a callback does to the hooks. -/
inductive Action where
  | fire
  | claim (owner : String)
  /-- Registers a callback with a label and a body. -/
  | onReady (label : String) (body : List Action)
  deriving Inhabited

/-- A callback: it logs that it begins, runs its body and logs that it is over. -/
structure Callback where
  label : String
  body : List Action
  deriving Inhabited

/-- The hooks that scripts run on. -/
abbrev State := Hooks String Callback

/-- What a running script logs. -/
inductive Line where
  /-- A callback begins. -/
  | enter (label : String)
  /-- A callback claimed the run; the holder is named if there was another one. -/
  | claimed (holder : Option String)
  /-- A callback is over; the hooks are ready or not. -/
  | leave (label : String) (ready : Bool)
  deriving DecidableEq, Repr

/-- The wording of a line. -/
def Line.text : Line → String
  | .enter label => label
  | .claimed none => "claim Ok(())"
  | .claimed (some holder) => "claim Err(" ++ Text.quoted holder ++ ")"
  | .leave label ready => "/" ++ label ++ " ready=" ++ (if ready then "true" else "false")

/-- What is left to do. -/
inductive Task where
  | enter (callback : Callback)
  | act (action : Action)
  | leave (label : String)
  deriving Inhabited

mutual

/-- The number of turns that an action can take. -/
def actionWeight : Action → Nat
  | .fire => 1
  | .claim _ => 1
  | .onReady _ body => 3 + bodyWeight body

/-- The number of turns that a body can take. -/
def bodyWeight : List Action → Nat
  | [] => 0
  | a :: rest => actionWeight a + bodyWeight rest

end

/-- The number of turns that a callback can take. -/
def callbackWeight (c : Callback) : Nat := 2 + bodyWeight c.body

/-- The number of turns that a task can take. -/
def taskWeight : Task → Nat
  | .enter c => callbackWeight c
  | .act a => actionWeight a
  | .leave _ => 1

/-- The number of turns that a list of tasks can take. -/
def weight : List Task → Nat
  | [] => 0
  | t :: rest => taskWeight t + weight rest

/-- The number of turns that waiting callbacks can take. -/
def waitingWeight : List Callback → Nat
  | [] => 0
  | c :: rest => callbackWeight c + waitingWeight rest

@[simp] theorem weight_nil : weight [] = 0 := rfl

@[simp] theorem weight_cons (t : Task) (ts : List Task) :
    weight (t :: ts) = taskWeight t + weight ts := rfl

/-- The turns of two lists of tasks add up. -/
@[simp] theorem weight_append (ts us : List Task) : weight (ts ++ us) = weight ts + weight us := by
  induction ts with
  | nil => simp
  | cons t rest ih => rw [List.cons_append, weight_cons, weight_cons, ih, Nat.add_assoc]

/-- The actions of a body take as many turns as the body. -/
@[simp] theorem weight_map_act (body : List Action) :
    weight (body.map .act) = bodyWeight body := by
  induction body with
  | nil => simp [bodyWeight]
  | cons a rest ih => simp [bodyWeight, taskWeight, ih]

/-- Callbacks that are called take as many turns as while they were waiting. -/
@[simp] theorem weight_map_enter (cs : List Callback) :
    weight (cs.map .enter) = waitingWeight cs := by
  induction cs with
  | nil => simp [waitingWeight]
  | cons c rest ih => simp_all [waitingWeight, taskWeight]

/-- The turns of two lists of callbacks add up. -/
@[simp] theorem waitingWeight_append (cs ds : List Callback) :
    waitingWeight (cs ++ ds) = waitingWeight cs + waitingWeight ds := by
  induction cs with
  | nil => simp [waitingWeight]
  | cons c rest ih => rw [List.cons_append, waitingWeight, waitingWeight, ih, Nat.add_assoc]

@[simp] theorem waitingWeight_singleton (c : Callback) :
    waitingWeight [c] = callbackWeight c := by simp [waitingWeight]

/-- Whether a claim on the hooks would be refused, and for whom. -/
def holder? (h : State) (owner : String) : Option String :=
  match h.claim owner with
  | .ok _ => none
  | .error holder => some holder

/-- The hooks after a claim. -/
def claimed (h : State) (owner : String) : State :=
  match h.claim owner with
  | .ok h' => h'
  | .error _ => h

/-- A claim calls nobody back, and drops no callback either. -/
@[simp] theorem waiting_claimed (h : State) (owner : String) :
    (claimed h owner).waiting = h.waiting := by
  unfold claimed Hooks.claim
  cases h.owner with
  | none => rfl
  | some o => by_cases ho : o = owner <;> simp [ho]

/-- Works off the tasks, and returns the hooks and the log. -/
def run (h : State) (tasks : List Task) : State × List Line :=
  match tasks with
  | [] => (h, [])
  | .enter c :: rest =>
    let (h', log) := run h (c.body.map .act ++ .leave c.label :: rest)
    (h', .enter c.label :: log)
  | .leave label :: rest =>
    let (h', log) := run h rest
    (h', .leave label h.ready :: log)
  | .act (.claim owner) :: rest =>
    let (h', log) := run (claimed h owner) rest
    (h', .claimed (holder? h owner) :: log)
  | .act (.onReady label body) :: rest =>
    if h.ready then run h (.enter ⟨label, body⟩ :: rest)
    else run (h.onReady ⟨label, body⟩).1 rest
  | .act .fire :: rest => run h.fire.1 (h.fire.2.map .enter ++ rest)
termination_by weight tasks + waitingWeight h.waiting
decreasing_by
  · simp [taskWeight, callbackWeight]; omega
  · simp [taskWeight]
  · simp [taskWeight, actionWeight]
  · simp [taskWeight, actionWeight, callbackWeight]
  · rename_i hr
    simp [Hooks.onReady, hr, taskWeight, actionWeight, callbackWeight]; omega
  · by_cases hr : h.ready
    · simp [Hooks.fire, hr, taskWeight, actionWeight]
    · simp [Hooks.fire, hr, taskWeight, actionWeight, waitingWeight]; omega

/-- What a step of a script led to. -/
structure StepResult where
  /-- What a claim came to; the holder is named if it was refused. -/
  claim : Option (Option String)
  owner : Option String
  ready : Bool
  log : List Line
  deriving DecidableEq, Repr

/-- Runs one step from outside. A claim from outside is answered, and not logged. -/
def step (h : State) (action : Action) : State × StepResult :=
  match action with
  | .claim owner =>
    let h' := claimed h owner
    (h', ⟨some (holder? h owner), h'.owner, h'.ready, []⟩)
  | action =>
    let (h', log) := run h [.act action]
    (h', ⟨none, h'.owner, h'.ready, log⟩)

/-- Runs the steps of a script from the given hooks on. -/
def steps (h : State) : List Action → List StepResult
  | [] => []
  | a :: rest =>
    let (h', r) := step h a
    r :: steps h' rest

/-- Runs a script on fresh hooks. -/
def outcome (script : List Action) : List StepResult := steps {} script

end DataService.HookScript
