import DataService.Proofs.Deployment.LiveReplay

/-!
# What a replay does to its target

Four kinds of events are calls that change the run into which rows are fed: a step is taken out of
its start, an output loses its default consumer, a row is offered, and the feed is ended. The calls
of a step of a replay are those that the step logs (`Replay.calls`). While a row is offered the
engine may go on, and populations may resolve, but nothing of that is such a call (`Quiet`); so each
stage makes its own calls and no others.
-/

set_option autoImplicit false

namespace DataService

/-- The event is a call that changes a run into which rows are fed. -/
def Event.isTargetCall : Event → Bool
  | .startupRemoved .. | .drainRemoved .. | .rowOffered .. | .feedEnded _ => true
  | .resolved .. | .storeCalled .. | .stepImpossible => false

namespace Deployment

variable {σ : Type} {d d' d'' : Deployment σ}

/-- Whatever was logged is no call on a target. -/
def Quiet (d d' : Deployment σ) : Prop :=
  ∃ more, d'.events = d.events ++ more ∧ ∀ event ∈ more, event.isTargetCall = false

/-- Where nothing was logged there was no call on a target. -/
theorem Quiet.of_eq (same : d'.events = d.events) : d.Quiet d' :=
  ⟨[], same.trans (List.append_nil _).symm, fun _ member => by cases member⟩

/-- To do nothing is no call on a target. -/
theorem Quiet.refl (d : Deployment σ) : d.Quiet d := .of_eq rfl

/-- Two parts without a call on a target have none together. -/
theorem Quiet.trans (h : d.Quiet d') (h' : d'.Quiet d'') : d.Quiet d'' := by
  obtain ⟨more, events_eq, silent⟩ := h
  obtain ⟨more', events_eq', silent'⟩ := h'
  refine ⟨more ++ more', ?_, fun event member => ?_⟩
  · rw [events_eq', events_eq, List.append_assoc]
  · rcases List.mem_append.1 member with first | second
    · exact silent event first
    · exact silent' event second

/-- If nothing that is done for an item is a call on a target, nothing is that is done for all
items. -/
theorem Quiet.foldl {α : Type} {f : Deployment σ → α → Deployment σ}
    (each : ∀ (d : Deployment σ) (a : α), d.Quiet (f d a)) (items : List α) (d : Deployment σ) :
    d.Quiet (items.foldl f d) := by
  induction items generalizing d with
  | nil => exact .refl d
  | cons a rest ih => exact (each d a).trans (ih (f d a))

/-- To log an event of another kind is no call on a target. -/
theorem quiet_log (d : Deployment σ) {event : Event} (silent : event.isTargetCall = false) :
    d.Quiet (d.log event) := by
  refine ⟨[event], rfl, fun event' member => ?_⟩
  rw [List.mem_singleton.1 member]
  exact silent

/-- Waiters that are informed announce and deliver, and make no call on a target. -/
theorem quiet_informAll (outcome : Outcome) (ws : List Waiter) (d : Deployment σ) :
    d.Quiet (informAll outcome ws d) := by
  rw [informAll_eq_foldl]
  refine .foldl (fun d call => ?_) _ d
  cases call with
  | announce tag => exact d.quiet_log rfl
  | deliver errand =>
    cases outcome with
    | ok result => exact .of_eq rfl
    | error failure => exact .of_eq rfl

/-- A step of a population makes no call on a target, its waiters included. -/
theorem quiet_advance (d : Deployment σ) (id : PopulationId)
    (take : Population → Population × List Waiter) : d.Quiet (d.advance id take) := by
  have changed (p : Population) : d.Quiet (d.modifyPopulation id fun _ => p) := .of_eq rfl
  unfold advance
  split
  · exact .refl d
  · dsimp only
    split
    · exact changed _
    · exact (changed _).trans (quiet_informAll _ _ _)

/-- A population that is called back makes no call on a target. -/
theorem quiet_collect (d : Deployment σ) (id : PopulationId) (run : RunId) :
    d.Quiet (d.collect id run) := by
  unfold collect
  split
  · split
    · split
      · exact .of_eq rfl
      · exact .refl d
    · exact d.quiet_advance id _
  · exact .refl d

/-- An engine step makes no call on a target. -/
theorem quiet_perform {step : EngineStep} (h : d.perform step = .ok d') : d.Quiet d' := by
  rcases perform_cases h with ⟨-, r, -, rfl⟩ | ⟨r, rfl⟩ | ⟨ids, event, rfl⟩
  · have fired : d.Quiet (d.modifyRun r.id fun old => { old with hooks := r.hooks.fire.1 }) :=
      .of_eq rfl
    exact fired.trans (.foldl (fun d id => d.quiet_collect id r.id) _ _)
  · exact .of_eq rfl
  · exact .foldl (fun d id => d.quiet_advance id _) _ d

/-- A script of an engine makes no call on a target. -/
theorem quiet_performScript (d : Deployment σ) (script : List (Option EngineStep)) :
    d.Quiet (d.performScript script) := by
  refine .foldl (fun d line => ?_) script d
  cases line with
  | none => exact d.quiet_log rfl
  | some step =>
    dsimp only [Option.map_some]
    split
    · rename_i performed
      exact quiet_perform (Option.some.inj performed)
    · exact d.quiet_log rfl
    · exact d.quiet_log rfl

/-- The question whether a run is running is none of the calls that change a target. -/
theorem quiet_ask (d : Deployment σ) (run : RunId) : d.Quiet (d.ask run).1 := by
  unfold ask
  split
  · exact .refl d
  · exact .of_eq rfl

/-- While a row is offered no other call is made. -/
theorem quiet_offer (d : Deployment σ) (id : RunId) (milliseconds : UInt64) (row : Row) :
    ∃ noted : Deployment σ,
      noted.events =
        d.events ++ [.rowOffered id milliseconds row (d.offer id milliseconds row).2] ∧
      noted.Quiet (d.offer id milliseconds row).1 := by
  unfold offer
  split
  · exact ⟨_, rfl, .refl _⟩
  · exact ⟨_, rfl, .refl _⟩
  · exact ⟨_, rfl, quiet_performScript _ _⟩

end Deployment

namespace Replay

open Deployment

variable {σ : Type} {d d' : Deployment σ}

/-- The calls that the replay makes on its target in a step. -/
def calls (r : Replay) (d : Deployment σ) (stage : Stage) : List Event :=
  ((r.step d stage).1.events.drop d.events.length).filter Event.isTargetCall

/-- The calls by which the bypassed steps are taken out of the target. -/
def wired (r : Replay) : List Event :=
  [.startupRemoved r.target r.wiring.producerStep, .drainRemoved r.target r.wiring.bypassedOutput]

/-- The offer of a row to the target. -/
def offered (r : Replay) (row : Row) (accepted : Bool) : Event :=
  .rowOffered r.target r.putTimeout row accepted

/-- If a step logs some calls first and makes none after that, its calls are these. -/
theorem calls_of_quiet {r : Replay} {stage : Stage} {call : List Event}
    (only_calls : call.filter Event.isTargetCall = call)
    (logged : d'.events = d.events ++ call) (quiet : d'.Quiet (r.step d stage).1) :
    r.calls d stage = call := by
  obtain ⟨more, events_eq, silent⟩ := quiet
  unfold calls
  rw [events_eq, logged, List.append_assoc, List.drop_left, List.filter_append,
    only_calls, List.filter_eq_nil_iff.2, List.append_nil]
  intro event member
  rw [silent event member]
  exact Bool.false_ne_true

/-- A step that is quiet makes no call. -/
theorem calls_eq_nil {r : Replay} {stage : Stage} (quiet : d.Quiet (r.step d stage).1) :
    r.calls d stage = [] :=
  calls_of_quiet rfl (List.append_nil _).symm quiet

/-- A replay that opens makes no call. -/
theorem calls_opening (r : Replay) (d : Deployment σ) : r.calls d .opening = [] := by
  refine calls_eq_nil ?_
  rw [step]
  split
  · exact .refl d
  · split
    · exact .refl d
    · split
      · exact .refl d
      · exact .refl d

/-- A replay that fits its target makes the calls that wire it, and no call if it does not fit. -/
theorem calls_wiring (r : Replay) (d : Deployment σ) :
    r.calls d .wiring =
      if (d.run? r.target).any (·.injectors.contains r.wiring.injectionStep) then r.wired else [] := by
  cases present : (d.run? r.target).any (·.injectors.contains r.wiring.injectionStep) with
  | true =>
    rw [if_pos rfl]
    have wires : (r.wire d).events = d.events ++ r.wired := List.append_assoc _ _ _
    refine calls_of_quiet rfl wires ?_
    rw [step, present, if_pos rfl]
    exact .refl _
  | false =>
    rw [if_neg Bool.false_ne_true]
    refine calls_eq_nil ?_
    rw [step, present, if_neg Bool.false_ne_true]
    exact .refl d

/-- A replay that looks for its next row makes no call. -/
theorem calls_reading (r : Replay) (d : Deployment σ) (delivered : Nat) :
    r.calls d (.reading delivered) = [] := by
  have looks : d.Quiet (r.look d delivered).1 := by
    rcases r.fst_look_cases d delivered with same | ⟨run, asks⟩
    · rw [same]
      exact .refl d
    · rw [asks]
      exact d.quiet_ask run
  refine calls_eq_nil ?_
  rw [step]
  split <;> rename_i found <;> rw [found] at looks <;> exact looks

/-- A replay that asks whether the target is running makes none of the calls that change it. -/
theorem calls_asking (r : Replay) (d : Deployment σ) (delivered : Nat) (row : Row) :
    r.calls d (.asking delivered row) = [] := by
  have asks := d.quiet_ask r.target
  refine calls_eq_nil ?_
  rw [step]
  split <;> rename_i found <;> rw [found] at asks <;> exact asks

/-- A replay that offers a row does nothing else to the deployment. -/
theorem fst_step_offering (r : Replay) (d : Deployment σ) (delivered : Nat) (row : Row) :
    (r.step d (.offering delivered row)).1 = (d.offer r.target r.putTimeout row).1 := by
  rw [step]
  split <;> rename_i found <;> rw [found]

/-- A replay that offers a row makes this one call, whatever the engine does meanwhile. -/
theorem calls_offering (r : Replay) (d : Deployment σ) (delivered : Nat) (row : Row) :
    r.calls d (.offering delivered row) =
      [r.offered row (d.offer r.target r.putTimeout row).2] := by
  obtain ⟨noted, events_eq, quiet⟩ := d.quiet_offer r.target r.putTimeout row
  rw [← r.fst_step_offering d delivered row] at quiet
  exact calls_of_quiet rfl events_eq quiet

/-- A replay that finds out how its rows ended makes no call. -/
theorem calls_closing (r : Replay) (d : Deployment σ) (delivered : Nat) (stopped : Bool) :
    r.calls d (.closing delivered stopped) = [] := calls_eq_nil (.refl d)

/-- A replay that finishes ends the feed. -/
theorem calls_finishing (r : Replay) (d : Deployment σ) (delivered : Nat)
    (failure : Option Failure) : r.calls d (.finishing delivered failure) = [.feedEnded r.target] := by
  have tells : (d.log (.feedEnded r.target)).events = d.events ++ [.feedEnded r.target] := rfl
  exact calls_of_quiet rfl tells (.of_eq rfl)

/-- A replay that is over makes no call. -/
theorem calls_done (r : Replay) (d : Deployment σ) (answer : Except Failure Nat) :
    r.calls d (.done answer) = [] := calls_eq_nil (.refl d)

end Replay

end DataService
