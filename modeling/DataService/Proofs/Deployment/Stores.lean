import DataService.Proofs.Deployment.Changes

/-!
# Which operations touch stores

A store is changed by what is done to it from outside, by a look-up, which may keep books, and by
the deposit of a result (`Operation.usesStores`). Nothing else comes near a store: runs, populations
and replays do not know of any, and a service that populates its cache leaves the store to the
errand that it sends (`stores_apply`).
-/

set_option autoImplicit false

namespace DataService

/-- The operation adds or alters a store, or makes calls on one. -/
def Operation.usesStores {σ : Type} : Operation σ → Bool
  | .addStore _ | .alterStore .. | .lookup .. | .settleAt _ => true
  | _ => false

namespace Deployment

variable {σ : Type} {d d' : Deployment σ}

/-! ## Runs and populations -/

/-- What leaves the stores alone at each of several items leaves them alone at all of them. -/
theorem stores_foldl {α : Type} {f : Deployment σ → α → Deployment σ}
    (each : ∀ d a, (f d a).stores = d.stores) (items : List α) (d : Deployment σ) :
    (items.foldl f d).stores = d.stores := by
  induction items generalizing d with
  | nil => rfl
  | cons a rest ih => rw [List.foldl_cons, ih, each]

/-- Waiters that are informed write nothing themselves; a service's deposit waits to be settled. -/
theorem stores_informAll (outcome : Outcome) (ws : List Waiter) (d : Deployment σ) :
    (informAll outcome ws d).stores = d.stores := by
  rw [informAll_eq_foldl]
  refine stores_foldl (fun d call => ?_) _ d
  cases call with
  | announce tag => rfl
  | deliver errand => cases outcome <;> rfl

/-- A population's change of state writes nothing. -/
theorem stores_advance (d : Deployment σ) (id : PopulationId)
    (take : Population → Population × List Waiter) : (d.advance id take).stores = d.stores := by
  unfold advance
  split
  · rfl
  · dsimp only
    split
    · rfl
    · exact stores_informAll _ _ _

/-- A population that begins to listen on its run writes nothing. -/
theorem stores_collect (d : Deployment σ) (id : PopulationId) (run : RunId) :
    (d.collect id run).stores = d.stores := by
  unfold collect
  split
  · split
    · split
      · rfl
      · rfl
    · exact d.stores_advance id _
  · rfl

/-- A population that is installed on its run writes nothing. -/
theorem stores_install (d : Deployment σ) (id : PopulationId) (run : RunId) :
    (d.install id run).stores = d.stores := by
  unfold install
  split
  · split
    · exact stores_advance _ id _
    · dsimp only
      split
      · exact stores_collect _ _ run
      · rfl
  · rfl

/-! ## Engines and replays -/

/-- A step of an engine writes nothing, whichever listener it calls. -/
theorem stores_perform {step : EngineStep} (h : d.perform step = .ok d') :
    d'.stores = d.stores := by
  rcases perform_cases h with ⟨-, r, -, rfl⟩ | ⟨r, rfl⟩ | ⟨ids, event, rfl⟩
  · exact stores_foldl (fun d id => d.stores_collect id r.id) _ _
  · rfl
  · exact stores_foldl (fun d id => d.stores_advance id _) ids d

/-- A script of engine steps writes nothing. -/
theorem stores_performScript (d : Deployment σ) (script : List (Option EngineStep)) :
    (d.performScript script).stores = d.stores := by
  refine stores_foldl (fun d line => ?_) script d
  cases line with
  | none => rfl
  | some step =>
    dsimp only [Option.map_some]
    split
    · rename_i performed
      exact stores_perform (Option.some.inj performed)
    · rfl
    · rfl

/-- A run that is asked for its next row writes nothing. -/
theorem stores_ask (d : Deployment σ) (run : RunId) : (d.ask run).1.stores = d.stores := by
  unfold ask
  split
  · rfl
  · rfl

/-- A row that is offered to a run is written to no store. -/
theorem stores_offer (d : Deployment σ) (id : RunId) (milliseconds : UInt64) (row : Row) :
    (d.offer id milliseconds row).1.stores = d.stores := by
  unfold offer
  split
  · rfl
  · rfl
  · exact stores_performScript _ _

/-- A replay reads a kept result or a run, and writes neither. -/
theorem stores_step (r : Replay) (d : Deployment σ) (stage : Stage) :
    (r.step d stage).1.stores = d.stores := by
  rcases r.fst_step_cases d stage with
    same | wires | ⟨run, asks⟩ | ⟨-, row, -, offers⟩ | ⟨delivered, -, -, ends⟩
  · rw [same]
  · rw [wires]
    rfl
  · rw [asks]
    exact d.stores_ask run
  · rw [offers]
    exact d.stores_offer r.target r.putTimeout row
  · rw [ends]
    rfl

/-- A run that is claimed, or that refuses, writes nothing. -/
theorem stores_claim (d : Deployment σ) (run : RunId) (owner : String) :
    (d.claim run owner).stores = d.stores := by
  unfold claim
  split
  · rfl
  · split
    · rfl
    · rfl

/-! ## Services -/

/-- A service that begins a population writes nothing before the population is over. -/
theorem stores_populate (d : Deployment σ) (s : Service) (q : Query) (run : RunId)
    (label : String) : (d.populate s q run label).1.stores = d.stores := by
  rcases d.populate_answers s q run label with
    ⟨failure, -, failed⟩ | ⟨key, -, ⟨current, -, -, attached⟩ | start⟩
  · rw [failed]
  · rw [attached]
    rfl
  · rw [start]
    have installed := (d.entered s q key label).stores_install ⟨d.serial⟩ run
    rcases d.startPopulation_cases s q key run label (d.flight? s.board key) with
      ⟨failure, refused⟩ | begun
    · rw [refused]
      exact installed
    · rw [begun]
      exact (stores_advance _ _ _).trans installed

variable [ResultStore σ]

/-- All other operations leave the stores as they are. -/
theorem stores_apply (d : Deployment σ) {op : Operation σ} (alone : op.usesStores = false) :
    (d.apply op).stores = d.stores := by
  cases op with
  | addRun name steps injectors polls offers => rfl
  | dropRun name => rfl
  | claim run owner => exact d.stores_claim run owner
  | engine step =>
    show (d.engine step).stores = d.stores
    unfold engine
    split
    · exact stores_perform ‹_›
    · rfl
  | ask run => exact d.stores_ask run
  | addPopulation label key query outputStep => rfl
  | install id run => exact d.stores_install id run
  | collect id run => exact d.stores_collect id run
  | handle id event => exact d.stores_advance id _
  | onResolved id waiter outside => exact d.stores_advance id _
  | populate s q run label => exact d.stores_populate s q run label
  | pushDown s f step => rfl
  | replay r stage => exact stores_step r d stage
  | addStore | alterStore | lookup | settleAt => cases alone

end Deployment

end DataService
