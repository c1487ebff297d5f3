import DataService.Model.Run.Script
import Mathlib.Data.List.Infix

/-!
# Callbacks that re-enter the hooks

A callback on the hooks of a run may mark the run as ready, claim it and register further callbacks,
to any depth. What a script comes to can be read off it all the same. Up to its first step that marks
the run as ready (`early`) callbacks only wait. That step calls them in their order
(`step_fire`), and from then on (`late`) every registration calls its callback on the spot
(`step_of_ready`). A call is one block of the log (`Action.lines`) in which the calls it makes stand
in their places, and on ready hooks the walk over the tasks logs that block and then goes on with
what is behind it (`run_act_of_ready`).

The claims of a script are answered from the first one that is made (`firstClaimant`): by the steps
before the run is ready, by the callbacks that waited, by the steps after that and their callbacks.
-/

set_option autoImplicit false

namespace DataService.HookScript

/-! ## Scripts, read without running them -/

/-- What a claim is answered on hooks that are held by `first`; the holder is named if there is
another one. -/
def refusal (first : Option String) (owner : String) : Option String :=
  if first = some owner then none else first

namespace Action

/-- Whether the action marks the run as ready. -/
def isFire : Action → Bool
  | fire => true
  | _ => false

/-- Who claims the run by the action itself. -/
def claimant? : Action → Option String
  | claim owner => some owner
  | _ => none

/-- The callback that the action itself registers. -/
def callback? : Action → Option Callback
  | onReady label body => some ⟨label, body⟩
  | _ => none

mutual

/-- What an action logs on ready hooks that are held by `first`: a callback runs inside its own
registration. -/
def lines (first : Option String) : Action → List Line
  | fire => []
  | claim owner => [.claimed (refusal first owner)]
  | onReady label body => .enter label :: bodyLines first body ++ [.leave label true]

/-- What several actions log on ready hooks, one after the other. -/
def bodyLines (first : Option String) : List Action → List Line
  | [] => []
  | a :: rest => lines first a ++ bodyLines first rest

end

mutual

/-- Who claims the run by an action on ready hooks, in the order of the claims. -/
def claimants : Action → List String
  | fire => []
  | claim owner => [owner]
  | onReady _ body => bodyClaimants body

/-- Who claims the run by several actions, in the order of the claims. -/
def bodyClaimants : List Action → List String
  | [] => []
  | a :: rest => claimants a ++ bodyClaimants rest

end

mutual

/-- The labels that an action registers callbacks with, at any depth. -/
def labels : Action → List String
  | fire => []
  | claim _ => []
  | onReady label body => label :: bodyLabels body

/-- The labels that several actions register callbacks with. -/
def bodyLabels : List Action → List String
  | [] => []
  | a :: rest => labels a ++ bodyLabels rest

end

end Action

/-- What a callback logs on ready hooks that are held by `first`. -/
def Callback.lines (first : Option String) (c : Callback) : List Line :=
  (Action.onReady c.label c.body).lines first

/-- Who claims the run while the callback runs. -/
def Callback.claimants (c : Callback) : List String := Action.bodyClaimants c.body

/-- The label of the callback that a line begins. -/
def Line.entered? : Line → Option String
  | .enter label => some label
  | _ => none

/-- The steps of a script before the run is ready. -/
def early (script : List Action) : List Action := script.takeWhile (fun a => !a.isFire)

/-- Whether a script marks the run as ready. -/
def fires (script : List Action) : Bool := script.any Action.isFire

/-- The steps of a script once the run is ready. -/
def late (script : List Action) : List Action := (script.dropWhile (fun a => !a.isFire)).tail

/-- The callbacks that several actions register themselves. -/
def registered (actions : List Action) : List Callback := actions.filterMap Action.callback?

/-- The claims that the steps of a script make, step by step. Before the run is ready only those of
the steps themselves are made. -/
def claimsBySteps (script : List Action) : List (List String) :=
  (early script).map (fun a => a.claimant?.toList) ++
    if fires script then
      (registered (early script)).flatMap Callback.claimants :: (late script).map Action.claimants
    else []

/-- Who is the first to claim the run. -/
def firstClaimant (script : List Action) : Option String := (claimsBySteps script).flatten.head?

variable {h h' : State} {tasks tasks' rest : List Task} {first : Option String}

/-! ## One turn of the walk -/

/-- What one task comes to. -/
structure Turn where
  hooks : State
  lines : List Line
  /-- What is to be done before anything that is left. -/
  tasks : List Task

/-- Works off one task. -/
def turn (h : State) : Task → Turn
  | .enter c => ⟨h, [.enter c.label], c.body.map .act ++ [.leave c.label]⟩
  | .leave label => ⟨h, [.leave label h.ready], []⟩
  | .act (.claim owner) => ⟨claimed h owner, [.claimed (holder? h owner)], []⟩
  | .act (.onReady label body) =>
    ⟨(h.onReady ⟨label, body⟩).1, [], (h.onReady ⟨label, body⟩).2.toList.map .enter⟩
  | .act .fire => ⟨h.fire.1, [], h.fire.2.map .enter⟩

/-- A walk is a turn for its first task and the walk over what is left then. -/
theorem run_cons (h : State) (t : Task) (rest : List Task) :
    run h (t :: rest) = ((run (turn h t).hooks ((turn h t).tasks ++ rest)).1,
      (turn h t).lines ++ (run (turn h t).hooks ((turn h t).tasks ++ rest)).2) := by
  cases t with
  | enter c => rw [run]; simp [turn]
  | leave label => rw [run]; simp [turn]
  | act a =>
    cases a with
    | fire => rw [run]; simp [turn]
    | claim owner => rw [run]; simp [turn]
    | onReady label body =>
      rw [run]
      by_cases hready : h.ready <;> simp [turn, Hooks.onReady, hready]

/-- The turns that a walk takes: from hooks and tasks to others, with what is logged on the way. -/
inductive Turns (h : State) (tasks : List Task) : List Line → State → List Task → Prop
  | refl : Turns h tasks [] h tasks
  | step {lines : List Line} {h' : State} {t : Task} {rest : List Task} :
    Turns h tasks lines h' (t :: rest) →
      Turns h tasks (lines ++ (turn h' t).lines) (turn h' t).hooks ((turn h' t).tasks ++ rest)

/-- The turns taken so far are part of the walk. -/
theorem Turns.run_eq {lines : List Line} (turns : Turns h tasks lines h' tasks') :
    run h tasks = ((run h' tasks').1, lines ++ (run h' tasks').2) := by
  induction turns with
  | refl => rfl
  | step _ ih => rw [ih, run_cons, List.append_assoc]

/-- Callbacks are under way only on hooks that are ready. -/
def Settled (h : State) (tasks : List Task) : Prop :=
  h.ready = true ∨ ∀ t ∈ tasks, ∃ a, t = .act a

/-- A turn keeps ready hooks ready, and hands out callbacks on ready hooks only. -/
theorem Settled.turn {t : Task} (settled : Settled h (t :: rest)) :
    Settled (turn h t).hooks ((turn h t).tasks ++ rest) := by
  rcases settled with hready | hacts
  · left
    cases t with
    | enter c => exact hready
    | leave label => exact hready
    | act a =>
      cases a with
      | fire => simp [HookScript.turn, Hooks.fire, hready]
      | claim owner =>
        change (claimed h owner).ready = true
        unfold claimed Hooks.claim
        cases h.owner with
        | none => exact hready
        | some holder => by_cases hholder : holder = owner <;> simp [hholder, hready]
      | onReady label body => simp [HookScript.turn, Hooks.onReady, hready]
  · obtain ⟨a, rfl⟩ := hacts t (List.mem_cons_self ..)
    have hrest : ∀ t ∈ rest, ∃ a, t = .act a :=
      fun t ht => hacts t (List.mem_cons_of_mem _ ht)
    cases a with
    | fire =>
      left
      by_cases hready : h.ready <;> simp [HookScript.turn, Hooks.fire, hready]
    | claim owner => exact .inr hrest
    | onReady label body =>
      by_cases hready : h.ready
      · left
        simp [HookScript.turn, Hooks.onReady, hready]
      · right
        simpa [HookScript.turn, Hooks.onReady, hready] using hrest

/-- Wherever a walk has got to, callbacks are under way only on hooks that are ready. -/
theorem Turns.settled {lines : List Line} (turns : Turns h tasks lines h' tasks')
    (settled : Settled h tasks) : Settled h' tasks' := by
  induction turns with
  | refl => exact settled
  | step _ ih => exact ih.turn

/-- On whatever hooks an action is begun, they are ready at every moment of every callback. -/
theorem Turns.ready_of_leave {a : Action} {lines : List Line} {label : String}
    (turns : Turns h [.act a] lines h' tasks') (under : .leave label ∈ tasks') :
    h'.ready = true := by
  rcases turns.settled (.inr (by simp)) with hready | hacts
  · exact hready
  · obtain ⟨a, ha⟩ := hacts _ under
    cases ha

/-! ## Claims -/

/-- The hooks after several claims. -/
def heldBy (h : State) (claims : List String) : State :=
  { h with owner := h.owner.or claims.head? }

/-- Without claims the hooks are as they were. -/
@[simp] theorem heldBy_nil (h : State) : heldBy h [] = h := by
  simp [heldBy]

/-- Claims made in two parts come to all of them in their order. -/
@[simp] theorem heldBy_heldBy (h : State) (claims more : List String) :
    heldBy (heldBy h claims) more = heldBy h (claims ++ more) := by
  simp [heldBy, List.head?_append, Option.or_assoc]

/-- Claims do not make a run ready. -/
@[simp] theorem ready_heldBy (h : State) (claims : List String) :
    (heldBy h claims).ready = h.ready := rfl

/-- The first claim is the one that counts. -/
theorem claimed_eq (h : State) (owner : String) : claimed h owner = heldBy h [owner] := by
  obtain ⟨held, waiting, ready⟩ := h
  unfold claimed Hooks.claim heldBy
  cases held with
  | none => rfl
  | some holder => by_cases hholder : holder = owner <;> simp [hholder]

/-- On hooks of an owner who makes some claims, `first` is the owner if there is one. -/
def Foretells (first owner : Option String) (claims : List String) : Prop :=
  ∀ holder, owner.or claims.head? = some holder → first = some holder

/-- What is foretold of claims in two parts holds of the first part, and of the second on the hooks
that the first leaves. -/
theorem foretells_append {owner : Option String} {claims more : List String}
    (foretells : Foretells first owner (claims ++ more)) :
    Foretells first owner claims ∧ Foretells first (owner.or claims.head?) more := by
  unfold Foretells at foretells ⊢
  rw [List.head?_append, ← Option.or_assoc] at foretells
  refine ⟨?_, foretells⟩
  intro holder hholder
  apply foretells
  rw [hholder, Option.some_or]

/-- A claim is answered from the first one. -/
theorem holder?_eq {owner : String} (foretells : Foretells first h.owner [owner]) :
    holder? h owner = refusal first owner := by
  unfold holder? Hooks.claim refusal
  cases hheld : h.owner with
  | none =>
    rw [foretells owner (by simp [hheld])]
    simp
  | some holder =>
    rw [foretells holder (by simp [hheld])]
    by_cases hholder : holder = owner <;> simp [hholder]

/-! ## Calls on ready hooks -/

/-- A callback registered on ready hooks runs at once. -/
theorem run_onReady_of_ready (hready : h.ready = true) (label : String) (body : List Action) :
    run h (.act (.onReady label body) :: rest) = run h (.enter ⟨label, body⟩ :: rest) := by
  rw [run_cons h (.act (.onReady label body))]
  simp [turn, Hooks.onReady, hready]

mutual

/-- On ready hooks an action logs its block, and the walk goes on behind it. -/
theorem run_act_of_ready : (a : Action) → (h : State) → (rest : List Task) → h.ready = true →
    Foretells first h.owner a.claimants →
    run h (.act a :: rest) = ((run (heldBy h a.claimants) rest).1,
      a.lines first ++ (run (heldBy h a.claimants) rest).2)
  | .fire, h, rest, hready, _ => by
    rw [run_cons]
    simp [turn, Hooks.fire, hready, Action.lines, Action.claimants]
  | .claim owner, h, rest, _, foretells => by
    rw [run_cons]
    simp only [turn, claimed_eq, List.nil_append, Action.lines, Action.claimants]
    rw [show holder? h owner = refusal first owner from holder?_eq foretells]
  | .onReady label body, h, rest, hready, foretells => by
    rw [run_onReady_of_ready hready, run_cons]
    simp only [turn, List.append_assoc]
    rw [run_body_of_ready body h _ hready foretells, List.singleton_append, run_cons]
    simp [turn, hready, Action.lines, Action.claimants]

/-- On ready hooks several actions log their blocks, and the walk goes on behind them. -/
theorem run_body_of_ready : (body : List Action) → (h : State) → (rest : List Task) →
    h.ready = true → Foretells first h.owner (Action.bodyClaimants body) →
    run h (body.map .act ++ rest) = ((run (heldBy h (Action.bodyClaimants body)) rest).1,
      Action.bodyLines first body ++ (run (heldBy h (Action.bodyClaimants body)) rest).2)
  | [], h, rest, _, _ => by simp [Action.bodyLines, Action.bodyClaimants]
  | a :: body, h, rest, hready, foretells => by
    obtain ⟨hown, hbody⟩ := foretells_append foretells
    rw [List.map_cons, List.cons_append, run_act_of_ready a h _ hready hown,
      run_body_of_ready body (heldBy h a.claimants) rest hready hbody]
    simp [Action.bodyLines, Action.bodyClaimants]

end

/-- On ready hooks the callbacks handed out run in their order, each of them to its end. -/
theorem run_callbacks_of_ready (callbacks : List Callback) (h : State) (rest : List Task)
    (hready : h.ready = true)
    (foretells : Foretells first h.owner (callbacks.flatMap Callback.claimants)) :
    run h (callbacks.map .enter ++ rest) =
      ((run (heldBy h (callbacks.flatMap Callback.claimants)) rest).1,
        callbacks.flatMap (Callback.lines first) ++
          (run (heldBy h (callbacks.flatMap Callback.claimants)) rest).2) := by
  induction callbacks generalizing h with
  | nil => simp
  | cons c callbacks ih =>
    rw [List.flatMap_cons] at foretells
    obtain ⟨hown, hothers⟩ := foretells_append foretells
    -- A callback handed out runs like one that is registered now.
    have hcall : run h (.enter c :: (callbacks.map .enter ++ rest)) =
        ((run (heldBy h c.claimants) (callbacks.map .enter ++ rest)).1,
          c.lines first ++ (run (heldBy h c.claimants) (callbacks.map .enter ++ rest)).2) := by
      rw [← run_onReady_of_ready hready c.label c.body]
      exact run_act_of_ready (.onReady c.label c.body) h _ hready hown
    rw [List.map_cons, List.cons_append, hcall, ih (heldBy h c.claimants) hready hothers]
    simp [List.flatMap_cons]

/-! ## Steps -/

/-- What a step does, whoever holds the run. -/
structure Effect where
  /-- How a claim of the step itself is answered. -/
  claim : Option (Option String)
  /-- The claims made in the step. -/
  claims : List String
  ready : Bool
  log : List Line

/-- What a step does before the run is ready. -/
def earlyEffect (first : Option String) (a : Action) : Effect :=
  ⟨a.claimant?.map (refusal first), a.claimant?.toList, false, []⟩

/-- What the step does that marks the run as ready while callbacks wait. -/
def fireEffect (first : Option String) (waiting : List Callback) : Effect :=
  ⟨none, waiting.flatMap Callback.claimants, true, waiting.flatMap (Callback.lines first)⟩

/-- What a step does once the run is ready. -/
def lateEffect (first : Option String) (a : Action) : Effect :=
  ⟨a.claimant?.map (refusal first), a.claimants, true,
    (registered [a]).flatMap (Callback.lines first)⟩

/-- What the steps of a script do. -/
def effects (first : Option String) (script : List Action) : List Effect :=
  (early script).map (earlyEffect first) ++
    if fires script then
      fireEffect first (registered (early script)) :: (late script).map (lateEffect first)
    else []

/-- What steps with the given effects lead to on a run with the given owner. -/
def results (owner : Option String) : List Effect → List StepResult
  | [] => []
  | e :: rest =>
    ⟨e.claim, owner.or e.claims.head?, e.ready, e.log⟩ :: results (owner.or e.claims.head?) rest

/-- A step before the run is ready: a callback only waits. -/
theorem step_early {a : Action} (hready : h.ready = false) (hfire : a.isFire = false)
    (foretells : Foretells first h.owner a.claimant?.toList) :
    step h a = ({ heldBy h a.claimant?.toList with waiting := h.waiting ++ registered [a] },
      ⟨a.claimant?.map (refusal first), h.owner.or a.claimant?.toList.head?, false, []⟩) := by
  cases a with
  | fire => cases hfire
  | claim owner =>
    have hanswer : holder? h owner = refusal first owner := holder?_eq foretells
    simp [step, claimed_eq, hanswer, heldBy, Action.claimant?, Action.callback?, registered, hready]
  | onReady label body =>
    simp [step, run, Hooks.onReady, heldBy, Action.claimant?, Action.callback?, registered, hready]

/-- The step that marks the run as ready calls what waits, in the order of registration. -/
theorem step_fire (hready : h.ready = false)
    (foretells : Foretells first h.owner (h.waiting.flatMap Callback.claimants)) :
    step h .fire =
      (heldBy { h with waiting := [], ready := true } (h.waiting.flatMap Callback.claimants),
        ⟨none, h.owner.or (h.waiting.flatMap Callback.claimants).head?, true,
          h.waiting.flatMap (Callback.lines first)⟩) := by
  have hcalls := run_callbacks_of_ready h.waiting { h with waiting := [], ready := true } [] rfl
    foretells
  rw [List.append_nil, run] at hcalls
  simp only [step]
  rw [run_cons]
  simp [turn, Hooks.fire, hready, hcalls, heldBy]

/-- A step on ready hooks: a callback runs inside its own registration. -/
theorem step_of_ready {a : Action} (hready : h.ready = true)
    (foretells : Foretells first h.owner a.claimants) :
    step h a = (heldBy h a.claimants,
      ⟨a.claimant?.map (refusal first), h.owner.or a.claimants.head?, true,
        (registered [a]).flatMap (Callback.lines first)⟩) := by
  have hact := run_act_of_ready a h [] hready foretells
  rw [run] at hact
  cases a with
  | fire => simp [step, hact, heldBy, Action.claimant?, Action.callback?, Action.lines, registered,
      hready]
  | claim owner =>
    have hanswer : holder? h owner = refusal first owner := holder?_eq foretells
    simp [step, claimed_eq, hanswer, heldBy, Action.claimant?, Action.claimants, Action.callback?,
      registered, hready]
  | onReady label body =>
    simp [step, hact, heldBy, Action.claimant?, Action.callback?, registered, Callback.lines, hready]

/-- The callbacks of several actions are those of the first one and then those of the others. -/
theorem registered_cons (a : Action) (actions : List Action) :
    registered (a :: actions) = registered [a] ++ registered actions := by
  rw [registered, registered, registered, ← List.filterMap_append, List.singleton_append]

/-- A script before the run is ready, and what comes after. -/
theorem steps_early {actions more : List Action} (hready : h.ready = false)
    (hfire : ∀ a ∈ actions, a.isFire = false)
    (foretells : Foretells first h.owner (actions.flatMap (fun a => a.claimant?.toList))) :
    steps h (actions ++ more) = results h.owner (actions.map (earlyEffect first)) ++
      steps { heldBy h (actions.flatMap (fun a => a.claimant?.toList)) with
        waiting := h.waiting ++ registered actions } more := by
  induction actions generalizing h with
  | nil => simp [results, registered]
  | cons a actions ih =>
    rw [List.flatMap_cons] at foretells
    obtain ⟨hown, hothers⟩ := foretells_append foretells
    rw [List.cons_append, steps, step_early hready (hfire a (List.mem_cons_self ..)) hown,
      registered_cons a actions]
    dsimp only
    rw [ih (h := { heldBy h a.claimant?.toList with waiting := h.waiting ++ registered [a] }) hready
      (fun b hb => hfire b (List.mem_cons_of_mem _ hb)) hothers]
    simp [results, earlyEffect, heldBy, List.head?_append, Option.or_assoc]

/-- A script once the run is ready. -/
theorem steps_late {actions : List Action} (hready : h.ready = true)
    (foretells : Foretells first h.owner (actions.flatMap Action.claimants)) :
    steps h actions = results h.owner (actions.map (lateEffect first)) := by
  induction actions generalizing h with
  | nil => rfl
  | cons a actions ih =>
    rw [List.flatMap_cons] at foretells
    obtain ⟨hown, hothers⟩ := foretells_append foretells
    rw [steps, step_of_ready hready hown]
    dsimp only
    rw [ih (h := heldBy h a.claimants) hready hothers]
    rfl

/-- A script is its steps before the run is ready, and if there is a step that marks it as ready,
that step and the ones behind it. -/
theorem eq_early_append (script : List Action) :
    script = early script ++ if fires script then .fire :: late script else [] := by
  induction script with
  | nil => rfl
  | cons a script ih =>
    cases hfire : a.isFire with
    | true =>
      cases a with
      | fire => simp [early, late, fires, Action.isFire]
      | claim owner => cases hfire
      | onReady label body => cases hfire
    | false =>
      unfold early fires late at ih ⊢
      rw [List.takeWhile_cons_of_pos (by simp [hfire]), List.dropWhile_cons_of_pos (by simp [hfire]),
        List.any_cons, hfire, Bool.false_or, List.cons_append, ← ih]

/-- None of the steps before the run is ready marks it as ready. -/
theorem isFire_of_mem_early {script : List Action} {a : Action} (ha : a ∈ early script) :
    a.isFire = false := by
  simpa using (List.all_eq_true.1 List.all_takeWhile) a ha

/-! ## Whole scripts -/

/-- What is read off the effects of a script is read off its steps. -/
theorem map_effects {α : Type} (g : Effect → α) (first : Option String) (script : List Action) :
    (effects first script).map g = (early script).map (fun a => g (earlyEffect first a)) ++
      if fires script then
        g (fireEffect first (registered (early script))) ::
          (late script).map (fun a => g (lateEffect first a))
      else [] := by
  unfold effects
  rw [List.map_append, List.map_map, apply_ite (List.map _), List.map_cons, List.map_map]
  rfl

/-- The effects of a script make the claims that its steps make. -/
theorem claims_effects (first : Option String) (script : List Action) :
    (effects first script).map (·.claims) = claimsBySteps script := map_effects _ first script

/-- What steps in two parts lead to, the second part for the owner that the first one leaves. -/
theorem results_append (owner : Option String) (es more : List Effect) :
    results owner (es ++ more) =
      results owner es ++ results (owner.or (es.map (·.claims)).flatten.head?) more := by
  induction es generalizing owner with
  | nil => simp [results]
  | cons e es ih =>
    rw [List.cons_append, results, ih, results]
    simp [List.head?_append, Option.or_assoc]

/-- A script on fresh hooks leads to what its steps do. -/
theorem outcome_eq (script : List Action) :
    outcome script = results none (effects (firstClaimant script) script) := by
  have foretells : Foretells (firstClaimant script) none (claimsBySteps script).flatten :=
    fun holder hholder => hholder
  have hclaims : ((early script).map (fun a => a.claimant?.toList)).flatten =
      (early script).flatMap (fun a => a.claimant?.toList) := (List.flatMap_def ..).symm
  rw [claimsBySteps, List.flatten_append, hclaims] at foretells
  obtain ⟨hearly, hmore⟩ := foretells_append foretells
  have split_off (more : List Action) : steps {} (early script ++ more) = _ :=
    steps_early rfl (fun a ha => isFire_of_mem_early ha) hearly
  have houtcome := split_off (if fires script then .fire :: late script else [])
  rw [← eq_early_append] at houtcome
  rw [outcome, houtcome, effects, results_append, List.map_map]
  congr 1
  change _ = results (Option.or none ((early script).map (fun a => a.claimant?.toList)).flatten.head?) _
  rw [hclaims]
  cases hfires : fires script with
  | false => rfl
  | true =>
    rw [hfires, if_pos rfl, List.flatten_cons] at hmore
    obtain ⟨hcalled, hlate⟩ := foretells_append hmore
    rw [if_pos rfl, if_pos rfl, steps, step_fire rfl (by simpa [heldBy] using hcalled)]
    dsimp only
    rw [steps_late rfl (by simpa [heldBy, List.flatMap_def] using hlate)]
    simp [results, fireEffect, heldBy]

section Results

variable (owner : Option String) (es : List Effect)

/-- What a result has from its effect, whoever the owner is. -/
theorem map_results {α : Type} {f : StepResult → α} {g : Effect → α}
    (same : ∀ (e : Effect) (owner : Option String), f ⟨e.claim, owner, e.ready, e.log⟩ = g e) :
    (results owner es).map f = es.map g := by
  induction es generalizing owner with
  | nil => rfl
  | cons e es ih => rw [results, List.map_cons, List.map_cons, ih, same]

/-- The owner after a step is the one from before, or else the first to claim the run so far. -/
theorem owner_results : (results owner es).map (·.owner) =
    (es.map (·.claims)).inits.tail.map (fun made => owner.or made.flatten.head?) := by
  induction es generalizing owner with
  | nil => rfl
  | cons e es ih =>
    have hinits : (es.map (·.claims)).inits = [] :: (es.map (·.claims)).inits.tail := by
      cases es.map (·.claims) <;> rfl
    rw [results, List.map_cons, ih, List.map_cons, List.inits_cons, List.tail_cons, hinits]
    simp only [List.tail_cons, List.map_cons, List.map_map, Function.comp_def, List.flatten_cons,
      List.flatten_nil, List.append_nil, List.head?_append, Option.or_assoc]

/-- A run that has an owner keeps it through all steps. -/
theorem owner_of_mem_results {holder : String} {r : StepResult}
    (hr : r ∈ results (some holder) es) : r.owner = some holder := by
  induction es with
  | nil => cases hr
  | cons e es ih =>
    rw [results, Option.some_or] at hr
    rcases List.mem_cons.1 hr with rfl | hr
    · rfl
    · exact ih hr

/-- The run keeps its owner. -/
theorem pairwise_results :
    (results owner es).Pairwise (fun r later => r.owner ≠ none → later.owner = r.owner) := by
  induction es generalizing owner with
  | nil => exact List.Pairwise.nil
  | cons e es ih =>
    rw [results]
    refine List.pairwise_cons.2 ⟨?_, ih _⟩
    intro later hlater howned
    obtain ⟨holder, hholder⟩ := Option.ne_none_iff_exists'.1 howned
    dsimp only at hholder ⊢
    rw [hholder] at hlater ⊢
    exact owner_of_mem_results es hlater

end Results

mutual

/-- The callbacks that an action begins on ready hooks are those that it registers. -/
theorem entered_lines : (a : Action) → (a.lines first).filterMap Line.entered? = a.labels
  | .fire => rfl
  | .claim _ => rfl
  | .onReady label body => by
    simp [Action.lines, Action.labels, Line.entered?, List.filterMap_cons, entered_bodyLines body]

/-- The callbacks that several actions begin on ready hooks are those that they register. -/
theorem entered_bodyLines : (body : List Action) →
    (Action.bodyLines first body).filterMap Line.entered? = Action.bodyLabels body
  | [] => rfl
  | a :: body => by
    rw [Action.bodyLines, List.filterMap_append, entered_lines a, entered_bodyLines body,
      Action.bodyLabels]

end

/-- The callbacks that are called for registrations are those registered, at any depth. -/
theorem entered_registered (actions : List Action) :
    ((registered actions).flatMap (Callback.lines first)).filterMap Line.entered? =
      Action.bodyLabels actions := by
  induction actions with
  | nil => rfl
  | cons a actions ih =>
    have hown : ((registered [a]).flatMap (Callback.lines first)).filterMap Line.entered? =
        a.labels := by
      cases a with
      | fire => rfl
      | claim owner => rfl
      | onReady label body =>
        have hlines : ((Action.onReady label body).lines first).filterMap Line.entered? =
            (Action.onReady label body).labels := entered_lines (.onReady label body)
        rw [← hlines]
        simp [registered, Action.callback?, Callback.lines]
    rw [registered_cons, List.flatMap_append, List.filterMap_append, hown, ih, Action.bodyLabels]

/-- The labels of actions in two parts are those of the one and of the other. -/
theorem bodyLabels_append (actions more : List Action) :
    Action.bodyLabels (actions ++ more) = Action.bodyLabels actions ++ Action.bodyLabels more := by
  induction actions with
  | nil => rfl
  | cons a actions ih =>
    rw [List.cons_append, Action.bodyLabels, ih, Action.bodyLabels, List.append_assoc]

section Outcome

variable (script : List Action)

/-- What the steps of a script lead to, read off each of them. -/
theorem map_outcome {α : Type} {f : StepResult → α} {g : Effect → α}
    (same : ∀ (e : Effect) (owner : Option String), f ⟨e.claim, owner, e.ready, e.log⟩ = g e) :
    (outcome script).map f =
      (early script).map (fun a => g (earlyEffect (firstClaimant script) a)) ++
        if fires script then
          g (fireEffect (firstClaimant script) (registered (early script))) ::
            (late script).map (fun a => g (lateEffect (firstClaimant script) a))
        else [] := by
  rw [outcome_eq, map_results none _ same, map_effects]

/-- Nothing is logged before the run is marked as ready; the step that does so logs what waits, and
every later step what it registers. -/
theorem log_outcome : (outcome script).map (·.log) =
    (early script).map (fun _ => []) ++
      (if fires script then
        (registered (early script)).flatMap (Callback.lines (firstClaimant script)) ::
          (late script).map
            (fun a => (registered [a]).flatMap (Callback.lines (firstClaimant script)))
      else []) := map_outcome script (g := (·.log)) fun _ _ => rfl

/-- The callbacks that a script begins are all that it registers, each once, if it marks the run as
ready, and none otherwise. -/
theorem entered_outcome : ((outcome script).flatMap (·.log)).filterMap Line.entered? =
    if fires script then Action.bodyLabels script else [] := by
  have hscript := congrArg Action.bodyLabels (eq_early_append script)
  rw [List.flatMap_def, log_outcome, List.flatten_append, List.filterMap_append]
  have hearly : ((early script).map (fun _ => ([] : List Line))).flatten = [] := by simp
  rw [hearly, List.filterMap_nil, List.nil_append]
  cases hfires : fires script with
  | false => rfl
  | true =>
    rw [hfires, if_pos rfl, bodyLabels_append] at hscript
    rw [if_pos rfl, if_pos rfl, hscript, List.flatten_cons, List.filterMap_append,
      entered_registered, ← List.flatMap_def, Action.bodyLabels, Action.labels, List.nil_append]
    congr 1
    have hlate : ∀ actions : List Action,
        actions.flatMap (fun a => (registered [a]).flatMap (Callback.lines (firstClaimant script))) =
          (registered actions).flatMap (Callback.lines (firstClaimant script)) := by
      intro actions
      induction actions with
      | nil => rfl
      | cons a actions ih =>
        rw [registered_cons, List.flatMap_append, List.flatMap_cons, ih]
    rw [hlate, entered_registered]

/-- The run is ready from the step on that marks it so. -/
theorem ready_outcome : (outcome script).map (·.ready) =
    (early script).map (fun _ => false) ++
      (if fires script then true :: (late script).map (fun _ => true) else []) :=
  map_outcome script (g := (·.ready)) fun _ _ => rfl

/-- Every claim is answered from the first one that is made. -/
theorem claim_outcome : (outcome script).map (·.claim) =
    script.map (fun a => a.claimant?.map (refusal (firstClaimant script))) := by
  have hscript := congrArg
    (List.map (fun a => a.claimant?.map (refusal (firstClaimant script)))) (eq_early_append script)
  rw [hscript, map_outcome script (g := (·.claim)) fun _ _ => rfl, List.map_append,
    apply_ite (List.map _), List.map_cons]
  rfl

/-- After each step the run is held by whoever was the first to claim it so far. -/
theorem owner_outcome : (outcome script).map (·.owner) =
    (claimsBySteps script).inits.tail.map (fun made => made.flatten.head?) := by
  rw [outcome_eq, owner_results, claims_effects]
  rfl

end Outcome

/-- **Ready callbacks run exactly once, whatever re-enters the hooks.** Nothing runs before the run is
marked as ready. The step that marks it runs what waits, in the order of registration; every later
registration runs its callback inside itself, the registrations of callbacks included, and marking
the run again runs nothing. The hooks are ready at every moment of a callback. The first to claim
the run keeps it, and every claim is answered with them. -/
theorem callbacks_run_once (script : List Action) :
    (outcome script).map (·.log) =
      (early script).map (fun _ => []) ++
        (if fires script then
          (registered (early script)).flatMap (Callback.lines (firstClaimant script)) ::
            (late script).map
              (fun a => (registered [a]).flatMap (Callback.lines (firstClaimant script)))
        else []) ∧
    ((outcome script).flatMap (·.log)).filterMap Line.entered? =
      (if fires script then Action.bodyLabels script else []) ∧
    (outcome script).map (·.ready) =
      (early script).map (fun _ => false) ++
        (if fires script then true :: (late script).map (fun _ => true) else []) ∧
    (∀ (h h' : State) (a : Action) (lines : List Line) (tasks : List Task),
      Turns h [.act a] lines h' tasks →
        run h [.act a] = ((run h' tasks).1, lines ++ (run h' tasks).2) ∧
        ∀ label, .leave label ∈ tasks → h'.ready = true) ∧
    (outcome script).map (·.claim) =
      script.map (fun a => a.claimant?.map (refusal (firstClaimant script))) ∧
    (outcome script).map (·.owner) =
      (claimsBySteps script).inits.tail.map (fun made => made.flatten.head?) ∧
    (outcome script).Pairwise (fun r later => r.owner ≠ none → later.owner = r.owner) := by
  refine ⟨log_outcome script, entered_outcome script, ready_outcome script, ?_,
    claim_outcome script, owner_outcome script, ?_⟩
  · intro h h' a lines tasks turns
    exact ⟨turns.run_eq, fun label under => turns.ready_of_leave under⟩
  · rw [outcome_eq]
    exact pairwise_results none _

end DataService.HookScript
