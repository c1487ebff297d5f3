import DataService.Proofs.Deployment.Informing

/-!
# What can happen in a deployment

An `Operation` is one thing that can happen in a deployment: an engine brings up a run, drops it or
does a step of it, someone claims a run or asks for it, a population is made and put to use outside
of all services, a service looks up a query, populates its cache or pushes a filter down, a result
that waits is deposited, a store changes by itself, or a replay makes a step. `after` says what
comes of a deployment by one operation after the other, and everything that holds of
`Deployment.after {}` holds in every course of things.

A board need not be brought up. One on which nothing was noted is empty, and any number of services
may share it. Results that wait need not be deposited in their order; to settle them is to deposit
the first one as often as there are some (`settle_eq_after`).

Operations with several ends are taken apart here, once for all: the steps of an engine
(`perform_cases`), the steps of a replay (`Replay.fst_step_cases`) and the deposit of a result
(`settleAt_cases`).
-/

set_option autoImplicit false

namespace DataService

/-- One thing that can happen in a deployment with stores of type `σ`. -/
inductive Operation (σ : Type) where
  /-- A run comes up, with the steps of the given names and fields. -/
  | addRun (name : String) (steps : List (String × List String)) (injectors : List String)
    (polls : Nat) (offers : List Offer)
  | dropRun (name : String)
  /-- Someone who is no population claims a run. -/
  | claim (run : RunId) (owner : String)
  | engine (step : EngineStep)
  | ask (run : RunId)
  | addStore (store : σ)
  /-- A store changes by itself: it loses results, begins to fail or works again. -/
  | alterStore (store : StoreId) (change : σ → σ)
  | addPopulation (label : String) (key : CacheKey) (query : Query) (outputStep : String)
  | install (population : PopulationId) (run : RunId)
  | collect (population : PopulationId) (run : RunId)
  | handle (population : PopulationId) (event : PopulationEvent)
  /-- Someone who is no service registers a waiter. -/
  | onResolved (population : PopulationId) (waiter : Waiter) (outside : errandsAll [waiter] = [])
  | lookup (service : Service) (query : Query)
  | populate (service : Service) (query : Query) (run : RunId) (label : String)
  | pushDown (service : Service) (filter : Filter) (step : String)
  /-- The result that waits at a position is deposited. -/
  | settleAt (position : Nat)
  /-- A replay makes a step from a stage. -/
  | replay (replay : Replay) (stage : Stage)

namespace Deployment

variable {σ : Type}

/-- Claims a run for someone who is no population. -/
def claim (d : Deployment σ) (run : RunId) (owner : String) : Deployment σ :=
  match d.run? run with
  | none => d
  | some r =>
    match r.hooks.claim (.outsider owner) with
    | .ok hooks => d.modifyRun run fun r => { r with hooks }
    | .error _ => d

/-- Lets the engine do a step, if it can. -/
def engine (d : Deployment σ) (step : EngineStep) : Deployment σ :=
  match d.perform step with
  | .ok d' => d'
  | .error _ => d

/-- An engine step makes a run ready, stops one, or lets something happen to the populations that
listen to a step. -/
theorem perform_cases {d d' : Deployment σ} {step : EngineStep} (h : d.perform step = .ok d') :
    (∃ name r, d.runs.get? name = some r ∧ d' = d.ready r) ∨
    (∃ r : Run, d' = d.modifyRun r.id fun r => { r with running := false }) ∨
    ∃ (ids : List PopulationId) (event : PopulationEvent), d' = ids.foldl (·.handle · event) d := by
  cases step with
  | start name =>
    cases found : d.runs.get? name with
    | none => simp [perform, found] at h
    | some r =>
      simp only [perform, found, Except.ok.injEq] at h
      exact .inl ⟨name, r, found, h.symm⟩
  | stop name =>
    cases found : d.runs.get? name with
    | none => simp [perform, found] at h
    | some r =>
      simp only [perform, found, Except.ok.injEq] at h
      exact .inr (.inl ⟨r, h.symm⟩)
  | emit name step cells =>
    cases found : d.outputOf name step with
    | error fault => simp [perform, found, bind, Except.bind] at h
    | ok at_step =>
      simp only [perform, found, bind, Except.bind, pure, Except.pure, Except.ok.injEq] at h
      obtain ⟨event, -, row_eq⟩ := exists_handRow_eq (σ := σ) ⟨step, at_step.2.fields⟩ cells
      rw [row_eq] at h
      exact .inr (.inr ⟨at_step.2.listeners, event, h.symm⟩)
  | finish name step errors stoppedEarly =>
    cases found : d.outputOf name step with
    | error fault => simp [perform, found, bind, Except.bind] at h
    | ok at_step =>
      simp only [perform, found, bind, Except.bind, pure, Except.pure, Except.ok.injEq] at h
      exact .inr (.inr ⟨at_step.2.listeners, _, h.symm⟩)

/-- A look at a population asks a run at most. -/
theorem fst_look_cases (d : Deployment σ) (id : PopulationId) (position : Nat) :
    (d.look id position).1 = d ∨ ∃ run, (d.look id position).1 = (d.ask run).1 := by
  have live : (d.isLive id).1 = d ∨ ∃ run, (d.isLive id).1 = (d.ask run).1 := by
    unfold isLive
    split
    · exact .inl rfl
    · split
      · exact .inl rfl
      · split
        · exact .inl rfl
        · exact .inr ⟨_, rfl⟩
  unfold look
  split
  · exact .inl rfl
  · split
    · exact .inl rfl
    · split
      · exact .inl rfl
      · split <;> rename_i found <;> rw [found] at live <;> exact live

end Deployment

namespace Replay

variable {σ : Type}

/-- A replay that looks for its next row asks one run at most. -/
theorem fst_look_cases (r : Replay) (d : Deployment σ) (position : Nat) :
    (r.look d position).1 = d ∨ ∃ run, (r.look d position).1 = (d.ask run).1 := by
  unfold look
  split
  · split
    · exact .inl rfl
    · exact .inl rfl
  · exact d.fst_look_cases _ position

/-- A step of a replay changes nothing, asks a run, or makes a call on the target. -/
theorem fst_step_cases (r : Replay) (d : Deployment σ) (stage : Stage) :
    (r.step d stage).1 = d ∨
    (r.step d stage).1 = r.wire d ∨
    (∃ run, (r.step d stage).1 = (d.ask run).1) ∨
    (∃ delivered row, stage = .offering delivered row ∧
      (r.step d stage).1 = (d.offer r.target r.putTimeout row).1) ∨
    ∃ delivered failure, stage = .finishing delivered failure ∧ (r.step d stage).1 =
      (d.log (.feedEnded r.target)).measure (·.addReplay delivered (r.dropped delivered)) := by
  cases stage with
  | opening =>
    refine .inl ?_
    simp only [step]
    split
    · rfl
    · split
      · rfl
      · split
        · rfl
        · rfl
  | wiring =>
    simp only [step]
    split
    · exact .inr (.inl rfl)
    · exact .inl rfl
  | reading delivered =>
    have looks := r.fst_look_cases d delivered
    have same : (r.step d (.reading delivered)).1 = (r.look d delivered).1 := by
      simp only [step]
      split <;> rename_i found <;> rw [found]
    rw [same]
    rcases looks with unchanged | asks
    · exact .inl unchanged
    · exact .inr (.inr (.inl asks))
  | asking delivered row =>
    refine .inr (.inr (.inl ⟨r.target, ?_⟩))
    simp only [step]
    split <;> rename_i found <;> rw [found]
  | offering delivered row =>
    refine .inr (.inr (.inr (.inl ⟨delivered, row, rfl, ?_⟩)))
    simp only [step]
    split <;> rename_i found <;> rw [found]
  | closing delivered stopped => exact .inl rfl
  | finishing delivered failure =>
    exact .inr (.inr (.inr (.inr ⟨delivered, failure, rfl, rfl⟩)))
  | done answer => exact .inl rfl

end Replay

namespace Deployment

variable {σ : Type} [ResultStore σ]

/-- Deposits the result that waits at a position. -/
def settleAt (d : Deployment σ) (position : Nat) : Deployment σ :=
  match d.pending[position]? with
  | some (errand, result) =>
    { d with pending := d.pending.eraseIdx position }.settleOne errand result
  | none => d

/-- There is nothing to settle at a position, or the result that waits there is deposited. -/
theorem settleAt_cases (d : Deployment σ) (position : Nat) :
    d.settleAt position = d ∨
    ∃ errand result, (errand, result) ∈ d.pending ∧ d.settleAt position =
      { d with pending := d.pending.eraseIdx position }.settleOne errand result := by
  unfold settleAt
  cases found : d.pending[position]? with
  | none => exact .inl rfl
  | some waiting => exact .inr ⟨waiting.1, waiting.2, List.mem_of_getElem? found, rfl⟩

/-- What an operation makes of a deployment. -/
def apply (d : Deployment σ) : Operation σ → Deployment σ
  | .addRun name steps injectors polls offers =>
    (d.addRun name (.ofList (steps.map fun s => (s.1, { fields := s.2 }))) injectors polls offers).1
  | .dropRun name => d.dropRun name
  | .claim run owner => d.claim run owner
  | .engine step => d.engine step
  | .ask run => (d.ask run).1
  | .addStore store => (d.addStore store).1
  | .alterStore store change => { d with stores := d.stores.modify store change }
  | .addPopulation label key query outputStep =>
    (d.addPopulation { label, key, query, outputStep }).1
  | .install id run => d.install id run
  | .collect id run => d.collect id run
  | .handle id event => d.handle id event
  | .onResolved id waiter _ => d.onResolved id waiter
  | .lookup s q => (d.lookup s q).1
  | .populate s q run label => (d.populate s q run label).1
  | .pushDown s f step => (d.pushDown s f step).1
  | .settleAt position => d.settleAt position
  | .replay r stage => (r.step d stage).1

/-- What operations make of a deployment, one after the other. -/
def after (d : Deployment σ) (ops : List (Operation σ)) : Deployment σ := ops.foldl apply d

theorem after_append (d : Deployment σ) (ops ops' : List (Operation σ)) :
    d.after (ops ++ ops') = (d.after ops).after ops' := List.foldl_append

theorem after_cons (d : Deployment σ) (op : Operation σ) (ops : List (Operation σ)) :
    d.after (op :: ops) = (d.apply op).after ops := rfl

/-- A property that every operation keeps is kept by all of them. -/
theorem after_induction {P : Deployment σ → Prop} (kept : ∀ d op, P d → P (apply d op))
    {d : Deployment σ} (h : P d) (ops : List (Operation σ)) : P (d.after ops) := by
  induction ops generalizing d with
  | nil => exact h
  | cons op ops ih => exact ih (kept d op h)

/-! ## Settling -/

/-- A deposit neither reads nor changes what else waits. -/
theorem settleOne_with_pending (d : Deployment σ) (errand : Delivery) (result : CachedResult)
    (pending : List (Delivery × CachedResult)) :
    { d with pending }.settleOne errand result =
      { d.settleOne errand result with pending } := by
  simp only [settleOne, withStore]
  cases d.stores.get? errand.store <;> rfl

/-- To deposit the first result that waits is to take it out and settle it. -/
theorem settleAt_zero (d : Deployment σ) {errand : Delivery} {result : CachedResult}
    {rest : List (Delivery × CachedResult)} (h : d.pending = (errand, result) :: rest) :
    d.settleAt 0 = { d.settleOne errand result with pending := rest } := by
  have first : d.pending[0]? = some (errand, result) := by rw [h]; rfl
  unfold settleAt
  rw [first]
  dsimp only
  rw [settleOne_with_pending, h]
  rfl

/-- To settle the results that wait is to deposit the first one as often as there are some. -/
theorem settle_eq_after (d : Deployment σ) :
    d.settle = d.after (List.replicate d.pending.length (.settleAt 0)) := by
  have deposits (pending : List (Delivery × CachedResult)) (d : Deployment σ)
      (h : d.pending = pending) :
      pending.foldl (fun d p => d.settleOne p.1 p.2) { d with pending := [] } =
        d.after (List.replicate pending.length (.settleAt 0)) := by
    induction pending generalizing d with
    | nil =>
      obtain ⟨_, _, _, _, _, _, _, _⟩ := d
      cases h
      rfl
    | cons p rest ih =>
      have next : d.apply (.settleAt 0) = { d.settleOne p.1 p.2 with pending := rest } :=
        settleAt_zero d h
      rw [List.length_cons, List.replicate_succ, after_cons, next, List.foldl_cons,
        settleOne_with_pending, ← ih { d.settleOne p.1 p.2 with pending := rest } rfl]
  exact deposits d.pending d rfl

/-- Nothing waits any more once what waits is settled. -/
theorem pending_settle (d : Deployment σ) : d.settle.pending = [] := by
  have keeps (d : Deployment σ) (errand : Delivery) (result : CachedResult) :
      (d.settleOne errand result).pending = d.pending := by
    have unread : d.settleOne errand result =
        { d.settleOne errand result with pending := d.pending } :=
      settleOne_with_pending d errand result d.pending
    rw [unread]
  have none_added (waiting : List (Delivery × CachedResult)) (d : Deployment σ)
      (none_waits : d.pending = []) :
      (waiting.foldl (fun d p => d.settleOne p.1 p.2) d).pending = [] := by
    induction waiting generalizing d with
    | nil => exact none_waits
    | cons p rest ih => exact ih (d.settleOne p.1 p.2) ((keeps d p.1 p.2).trans none_waits)
  exact none_added d.pending { d with pending := [] } rfl

end Deployment

end DataService
