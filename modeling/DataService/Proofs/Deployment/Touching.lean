import DataService.Proofs.Deployment.Ties

/-!
# What operations do to populations

All that happens to a population comes from a run that knows it, unless someone lays hands on the
population from outside. `Touches` lists what an operation can do in these terms, with the populations
on which hands are laid and the names under which runs come and go, and `apply_touches` takes every
operation apart so.

Three laws follow by induction on what an operation does. Runs know none but populations that are
there (`Touches.known`). A population that is left to the runs gets no new ties and stays on its run,
and if no run knows it nothing comes of it (`Touches.leftToRuns`). And a population whose run exists
has a run that exists, as long as no run goes (`Touches.onRun`).
-/

set_option autoImplicit false

namespace DataService

/-- The operation lays hands on a population from outside. -/
def Operation.drives {σ : Type} (id : PopulationId) : Operation σ → Bool
  | .install j _ | .collect j _ | .handle j _ => decide (j = id)
  | _ => false

/-- After the operation a run that had the name is gone. -/
def Operation.endsRun {σ : Type} (name : String) : Operation σ → Bool
  | .addRun j .. | .dropRun j => j == name
  | _ => false

namespace Deployment

variable {σ : Type} {d d' d'' : Deployment σ} {id : PopulationId}

/-! ## What operations do -/

/-- What an operation does to populations, with those on which `hand`s are laid, and the names under
which runs are `gone`. -/
inductive Touches (hand : PopulationId → Prop) (gone : String → Prop) :
    Deployment σ → Deployment σ → Prop
  | rests {d d' : Deployment σ} : d'.runs = d.runs →
    (∀ id p, d.population? id = some p →
      ∃ p', d'.population? id = some p' ∧ p'.run = p.run ∧ p'.outcome = p.outcome) →
    Touches hand gone d d'
  | goesBy {d : Deployment σ} {run : RunId} {f : Run → Run} :
    (∀ r, d.run? run = some r → r.KeepsTies (f r)) → (∀ r, (f r).id = r.id) →
    Touches hand gone d (d.modifyRun run f)
  | comes (d : Deployment σ) {name : String} (steps : List (String × List String))
    (injectors : List String) (polls : Nat) (offers : List Offer) : gone name →
    Touches hand gone d (d.addRun name (.ofList (steps.map fun s => (s.1, { fields := s.2 })))
      injectors polls offers).1
  | goes (d : Deployment σ) {name : String} : gone name → Touches hand gone d (d.dropRun name)
  | handles {d : Deployment σ} {id : PopulationId} (event : PopulationEvent) :
    hand id ∨ (∃ run, d.TiedTo id run) → Touches hand gone d (d.handle id event)
  | collects (d : Deployment σ) {id : PopulationId} (run : RunId) : hand id →
    Touches hand gone d (d.collect id run)
  | installs (d : Deployment σ) {id : PopulationId} (run : RunId) : hand id →
    Touches hand gone d (d.install id run)
  | starts {d : Deployment σ} {name : String} {r : Run} : d.runs.get? name = some r →
    Touches hand gone d (d.ready r)
  | trans {d d' d'' : Deployment σ} : Touches hand gone d d' → Touches hand gone d' d'' →
    Touches hand gone d d''

variable {hand : PopulationId → Prop} {gone : String → Prop}

/-- To do nothing touches no population. -/
theorem touches_refl (d : Deployment σ) : Touches hand gone d d :=
  .rests rfl fun _ p here => ⟨p, here, rfl, rfl⟩

/-- What leaves runs and populations as they are touches no population. -/
theorem Touches.of_eq (runs_eq : d'.runs = d.runs) (populations_eq : d'.populations = d.populations) :
    Touches hand gone d d' := by
  refine .rests runs_eq fun id p here => ⟨p, ?_, rfl, rfl⟩
  unfold population?
  rw [populations_eq]
  exact here

/-- What is done for every item of a list touches no more than what is done for each of them. -/
theorem Touches.foldl {α : Type} {f : Deployment σ → α → Deployment σ}
    (each : ∀ (d : Deployment σ) (a : α), Touches hand gone d (f d a)) (items : List α)
    (d : Deployment σ) : Touches hand gone d (items.foldl f d) := by
  induction items generalizing d with
  | nil => exact touches_refl d
  | cons a rest ih => exact (each d a).trans (ih (f d a))

/-! ## Laws -/

/-- No population disappears. -/
theorem Moves.exists_population? {reach : PopulationId → Prop} (h : Moves reach d d')
    {p : Population} (here : d.population? id = some p) : ∃ p', d'.population? id = some p' := by
  induction h generalizing p with
  | alike same => exact ⟨p, (same.population?_eq id).trans here⟩
  | @goesOn d j f _ _ =>
    rw [population?_modifyPopulation, here]
    split <;> exact ⟨_, rfl⟩
  | @ends d j q outcome _ _ _ _ =>
    rw [population?_informAll, population?_modifyPopulation, here]
    split <;> exact ⟨_, rfl⟩
  | trans _ _ ih ih' =>
    obtain ⟨p', here'⟩ := ih here
    exact ih' here'

/-- Runs know none but populations that are there. -/
def KnowsExisting (d : Deployment σ) : Prop :=
  ∀ id run, d.TiedTo id run → ∃ p, d.population? id = some p

/-- An operation ties populations to runs only if they are there. -/
theorem Touches.known (h : Touches hand gone d d') (known : d.KnowsExisting) : d'.KnowsExisting := by
  induction h with
  | @trans d d' d'' _ _ ih ih' => exact ih' (ih known)
  | @rests d d' runs_eq stays =>
    intro id run tied
    obtain ⟨p, here⟩ := known id run ((tiedTo_congr runs_eq).1 tied)
    obtain ⟨p', there, -⟩ := stays id p here
    exact ⟨p', there⟩
  | @goesBy d run f keeps same_id =>
    intro id run' tied
    exact known id run' (tied.of_keepsTies keeps same_id)
  | comes => exact fun id run tied => known id run tied.of_addRun
  | goes => exact fun id run tied => known id run tied.of_dropRun
  | @handles d j event _ =>
    intro id run tied
    obtain ⟨p, here⟩ := known id run ((tiedTo_congr (runs_advance d j _)).1 tied)
    exact (d.handle_moves j event).exists_population? here
  | @collects d j run _ =>
    intro id run' tied
    have before : ∃ p, d.population? id = some p := by
      rcases tied.of_collect with before | ⟨rfl, -, here⟩
      · exact known id run' before
      · exact here
    obtain ⟨p, here⟩ := before
    exact (d.collect_moves j run).exists_population? here
  | @installs d j run _ =>
    intro id run' tied
    have before : ∃ p, d.population? id = some p := by
      rcases tied.of_install with before | ⟨rfl, -, here⟩
      · exact known id run' before
      · exact here
    obtain ⟨p, here⟩ := before
    exact (d.install_moves j run).exists_population? here
  | @starts d name r there =>
    intro id run tied
    obtain ⟨p, here⟩ := known id run (tied.of_ready there)
    exact (d.ready_moves r).exists_population? here

/-- What becomes of a population on which no hands are laid: it gets no new ties, it stays on its run,
and if no run knows it then nothing comes of it. -/
structure LeftToRuns (id : PopulationId) (d d' : Deployment σ) : Prop where
  ties : ∀ run, d'.TiedTo id run → d.TiedTo id run
  stays : ∀ p, d.population? id = some p → ∃ p', d'.population? id = some p' ∧ p'.run = p.run ∧
    ((∀ run, ¬d.TiedTo id run) → p'.outcome = p.outcome)

/-- A population to which nothing happens is left to the runs. -/
theorem LeftToRuns.refl (id : PopulationId) (d : Deployment σ) : LeftToRuns id d d :=
  ⟨fun _ tied => tied, fun p here => ⟨p, here, rfl, fun _ => rfl⟩⟩

/-- A population that is left to the runs twice gets no ties in either part. -/
theorem LeftToRuns.trans (h : LeftToRuns id d d') (h' : LeftToRuns id d' d'') :
    LeftToRuns id d d'' where
  ties run tied := h.ties run (h'.ties run tied)
  stays p here := by
    obtain ⟨p', here', run_eq, idle⟩ := h.stays p here
    obtain ⟨p'', here'', run_eq', idle'⟩ := h'.stays p' here'
    refine ⟨p'', here'', run_eq'.trans run_eq, fun untied => ?_⟩
    rw [idle' fun run tied => untied run (h.ties run tied), idle untied]

/-- A population that is not called back does not change. -/
theorem population?_foldl_collect_of_notMem {callbacks : List PopulationId} (out : id ∉ callbacks)
    (run : RunId) (d : Deployment σ) :
    (callbacks.foldl (·.collect · run) d).population? id = d.population? id := by
  induction callbacks generalizing d with
  | nil => rfl
  | cons j rest ih =>
    rw [List.mem_cons, not_or] at out
    rw [List.foldl_cons, ih out.2]
    exact d.population?_collect_of_ne (Ne.symm out.1) run

/-- Callbacks leave a population on its run. -/
theorem exists_population?_foldl_collect {p : Population} (here : d.population? id = some p)
    (callbacks : List PopulationId) (run : RunId) :
    ∃ p', (callbacks.foldl (·.collect · run) d).population? id = some p' ∧ p'.run = p.run := by
  induction callbacks generalizing d p with
  | nil => exact ⟨p, here, rfl⟩
  | cons j rest ih =>
    obtain ⟨p', here', run_eq⟩ := exists_population?_collect here j run
    obtain ⟨p'', here'', run_eq'⟩ := ih here'
    exact ⟨p'', here'', run_eq'.trans run_eq⟩

/-- A population on which an operation lays no hands is left to the runs. -/
theorem Touches.leftToRuns (h : Touches hand gone d d') (free : ¬hand id) :
    LeftToRuns id d d' := by
  induction h with
  | trans _ _ ih ih' => exact ih.trans ih'
  | rests runs_eq stays =>
    refine ⟨fun run tied => (tiedTo_congr runs_eq).1 tied, fun p here => ?_⟩
    obtain ⟨p', there, run_eq, outcome_eq⟩ := stays id p here
    exact ⟨p', there, run_eq, fun _ => outcome_eq⟩
  | @goesBy d run f keeps same_id =>
    exact ⟨fun run' tied => tied.of_keepsTies keeps same_id,
      fun p here => ⟨p, here, rfl, fun _ => rfl⟩⟩
  | comes => exact ⟨fun run tied => tied.of_addRun, fun p here => ⟨p, here, rfl, fun _ => rfl⟩⟩
  | goes => exact ⟨fun run tied => tied.of_dropRun, fun p here => ⟨p, here, rfl, fun _ => rfl⟩⟩
  | @handles d j event touched =>
    refine ⟨fun run tied => (tiedTo_congr (runs_advance d j _)).1 tied, fun p here => ?_⟩
    by_cases own : j = id
    · subst own
      obtain ⟨p', there, stays⟩ := (d.rests_handle j event).stays j p here
      refine ⟨p', there, stays.run_eq, fun untied => ?_⟩
      rcases touched with by_hand | ⟨run, tied⟩
      · exact absurd by_hand free
      · exact absurd tied (untied run)
    · exact ⟨p, (d.population?_handle_of_ne own event).trans here, rfl, fun _ => rfl⟩
  | @collects d j run by_hand =>
    have other : j ≠ id := fun same => free (same ▸ by_hand)
    refine ⟨fun run' tied => ?_, fun p here => ?_⟩
    · rcases tied.of_collect with before | ⟨same, -⟩
      · exact before
      · exact absurd same.symm other
    · exact ⟨p, (d.population?_collect_of_ne other run).trans here, rfl, fun _ => rfl⟩
  | @installs d j run by_hand =>
    have other : id ≠ j := fun same => free (same ▸ by_hand)
    refine ⟨fun run' tied => ?_, fun p here => ?_⟩
    · rcases tied.of_install with before | ⟨same, -⟩
      · exact before
      · exact absurd same other
    · exact ⟨p, ((d.install_moves j run).population?_eq other).trans here, rfl, fun _ => rfl⟩
  | @starts d name r there =>
    refine ⟨fun run tied => tied.of_ready there, fun p here => ?_⟩
    let fired := d.modifyRun r.id fun old => { old with hooks := r.hooks.fire.1 }
    have here' : fired.population? id = some p := here
    by_cases called : id ∈ r.hooks.fire.2
    · obtain ⟨p', at_id, run_eq⟩ := exists_population?_foldl_collect here' r.hooks.fire.2 r.id
      exact ⟨p', at_id, run_eq, fun untied => absurd (tiedTo_of_called there called) (untied r.id)⟩
    · have same := population?_foldl_collect_of_notMem called r.id fired
      exact ⟨p, same.trans here', rfl, fun _ => rfl⟩

/-- As long as no run goes, a population whose run exists has a run that exists. -/
theorem Touches.onRun (h : Touches hand gone d d') (none_gone : ∀ name, ¬gone name)
    (on_run : d.OnRun id) : d'.OnRun id := by
  induction h with
  | trans _ _ ih ih' => exact ih' (ih on_run)
  | rests runs_eq stays =>
    refine on_run.of_keeps (.of_runs_eq runs_eq) fun p here => ?_
    obtain ⟨p', there, run_eq, -⟩ := stays id p here
    exact ⟨p', there, run_eq⟩
  | goesBy _ same_id =>
    exact on_run.of_keeps (keepsRuns_modifyRun same_id) fun p here => ⟨p, here, rfl⟩
  | comes _ _ _ _ _ is_gone => exact absurd is_gone (none_gone _)
  | goes _ is_gone => exact absurd is_gone (none_gone _)
  | @handles d j event _ =>
    refine on_run.of_keeps (.of_runs_eq (runs_advance d j _)) fun p here => ?_
    obtain ⟨p', there, stays⟩ := (d.rests_handle j event).stays id p here
    exact ⟨p', there, stays.run_eq⟩
  | @collects d j run _ => exact on_run.collect j run
  | @installs d j run _ => exact on_run.install j run
  | @starts d _ r _ =>
    have fired : (d.modifyRun r.id fun old => { old with hooks := r.hooks.fire.1 }).OnRun id :=
      on_run.of_keeps (keepsRuns_modifyRun fun _ => rfl) fun p here => ⟨p, here, rfl⟩
    have called (callbacks : List PopulationId) {d : Deployment σ} (on_run : d.OnRun id) :
        (callbacks.foldl (·.collect · r.id) d).OnRun id := by
      induction callbacks generalizing d with
      | nil => exact on_run
      | cons j rest ih => exact ih (on_run.collect j r.id)
    exact called r.hooks.fire.2 fired

/-! ## Every operation -/

/-- An event that comes to those who listen comes to populations that a run knows. -/
theorem Touches.foldl_handle {ids : List PopulationId} (event : PopulationEvent)
    (tied : ∀ id ∈ ids, ∃ run, d.TiedTo id run) :
    Touches hand gone d (ids.foldl (·.handle · event) d) := by
  induction ids generalizing d with
  | nil => exact touches_refl d
  | cons j rest ih =>
    refine (Touches.handles event (.inr (tied j List.mem_cons_self))).trans (ih fun id later => ?_)
    obtain ⟨run, before⟩ := tied id (List.mem_cons_of_mem j later)
    exact ⟨run, (tiedTo_congr (runs_advance d j _)).2 before⟩

/-- Whoever listens to a step of a run is tied to that run. -/
theorem tiedTo_of_outputOf {name step : String} {r : Run} {output : StepOutput}
    (found : d.outputOf name step = .ok (r, output)) (listening : id ∈ output.listeners) :
    d.TiedTo id r.id := by
  unfold outputOf at found
  split at found
  · cases found
  · rename_i r' there
    split at found
    · cases found
    · rename_i output' at_step
      cases found
      exact ⟨name, r, there, rfl, .inr ⟨step, output, at_step, listening⟩⟩

/-- An engine step touches none but populations that are tied to its run. -/
theorem perform_touches {step : EngineStep} (h : d.perform step = .ok d') :
    Touches hand gone d d' := by
  cases step with
  | start name =>
    cases found : d.runs.get? name with
    | none => simp [perform, found] at h
    | some r =>
      simp only [perform, found, Except.ok.injEq] at h
      rw [← h]
      exact .starts found
  | stop name =>
    cases found : d.runs.get? name with
    | none => simp [perform, found] at h
    | some r =>
      simp only [perform, found, Except.ok.injEq] at h
      rw [← h]
      refine .goesBy (fun r _ => ⟨⟨rfl, rfl, ?_, Nat.le_refl _⟩, rfl, rfl, rfl⟩) fun _ => rfl
      intro running
      cases running
  | emit name step cells =>
    cases found : d.outputOf name step with
    | error fault => simp [perform, found, bind, Except.bind] at h
    | ok at_step =>
      simp only [perform, found, bind, Except.bind, pure, Except.pure, Except.ok.injEq] at h
      obtain ⟨event, -, row_eq⟩ := exists_handRow_eq (σ := σ) ⟨step, at_step.2.fields⟩ cells
      rw [row_eq] at h
      rw [← h]
      exact .foldl_handle event fun id listening => ⟨_, tiedTo_of_outputOf found listening⟩
  | finish name step errors stoppedEarly =>
    cases found : d.outputOf name step with
    | error fault => simp [perform, found, bind, Except.bind] at h
    | ok at_step =>
      simp only [perform, found, bind, Except.bind, pure, Except.pure, Except.ok.injEq] at h
      rw [← h]
      exact .foldl_handle _ fun id listening => ⟨_, tiedTo_of_outputOf found listening⟩

/-- A script of an engine touches none but populations that are tied to a run. -/
theorem performScript_touches (d : Deployment σ) (script : List (Option EngineStep)) :
    Touches hand gone d (d.performScript script) := by
  refine .foldl (fun d line => ?_) script d
  cases line with
  | none => exact .of_eq rfl rfl
  | some step =>
    dsimp only [Option.map_some]
    split
    · rename_i performed
      exact perform_touches (Option.some.inj performed)
    · exact .of_eq rfl rfl
    · exact .of_eq rfl rfl

/-- The question whether a run is running touches no population. -/
theorem ask_touches (d : Deployment σ) (run : RunId) : Touches hand gone d (d.ask run).1 := by
  unfold ask
  split
  · exact touches_refl d
  · exact .goesBy (fun r _ => r.keepsTies_ask) fun r => r.keepsTies_ask.id_eq

/-- An offer touches none but those that the script meanwhile touches. -/
theorem offer_touches (d : Deployment σ) (id : RunId) (milliseconds : UInt64) (row : Row) :
    Touches hand gone d (d.offer id milliseconds row).1 := by
  unfold offer
  split
  · exact .of_eq rfl rfl
  · exact .of_eq rfl rfl
  · rename_i offer rest _
    have taken : Touches hand gone d (d.modifyRun id fun r => { r with offers := rest }) := by
      refine .goesBy (fun r _ => ⟨⟨rfl, rfl, fun h => h, Nat.le_refl _⟩, rfl, rfl, rfl⟩) ?_
      exact fun _ => rfl
    let noted := (d.modifyRun id fun r => { r with offers := rest }).log
      (.rowOffered id milliseconds row offer.accepted)
    have noting : Touches hand gone (d.modifyRun id fun r => { r with offers := rest }) noted :=
      .of_eq rfl rfl
    exact (taken.trans noting).trans (noted.performScript_touches offer.meanwhile)

/-- A step of a replay touches none but those that an offer touches. -/
theorem replay_touches (d : Deployment σ) (r : Replay) (stage : Stage) :
    Touches hand gone d (r.step d stage).1 := by
  rcases r.fst_step_cases d stage with
    same | wires | ⟨run, asks⟩ | ⟨-, row, -, offers⟩ | ⟨delivered, -, -, ends⟩
  · rw [same]
    exact touches_refl d
  · rw [wires]
    exact .of_eq rfl rfl
  · rw [asks]
    exact d.ask_touches run
  · rw [offers]
    exact d.offer_touches r.target r.putTimeout row
  · rw [ends]
    exact .of_eq rfl rfl

/-- A claim by somebody else touches no population. -/
theorem claim_touches (d : Deployment σ) (run : RunId) (owner : String) :
    Touches hand gone d (d.claim run owner) := by
  unfold claim
  split
  · exact touches_refl d
  · rename_i r there
    split
    · rename_i hooks granted
      obtain ⟨ready_eq, waiting_eq⟩ := claim_keeps granted
      refine .goesBy (fun r' there' => ?_) fun _ => rfl
      obtain rfl : r = r' := Option.some.inj (there.symm.trans there')
      exact ⟨.of_hooks r hooks, ready_eq, waiting_eq, rfl⟩
    · exact touches_refl d

/-- A waiter that is registered changes no place and no outcome. -/
theorem onResolved_touches (d : Deployment σ) (id : PopulationId) (waiter : Waiter) :
    Touches hand gone d (d.onResolved id waiter) := by
  refine .rests (runs_advance d id _) fun j p here => ?_
  unfold onResolved
  rw [population?_advance, here]
  split
  · refine ⟨(p.onResolved waiter).1, rfl, (p.stays_onResolved waiter).run_eq, ?_⟩
    cases settled : p.outcome with
    | none =>
      rw [Population.onResolved_of_none settled]
      exact settled
    | some outcome =>
      rw [Population.onResolved_of_some settled]
      exact settled
  · exact ⟨p, rfl, rfl, rfl⟩

/-- A population that is made touches none of those that are there. -/
theorem addPopulation_touches (kept : d.WellKept) (p : Population) :
    Touches hand gone d (d.addPopulation p).1 :=
  .rests rfl fun _ q here => ⟨q, kept.population?_addPopulation here p, rfl, rfl⟩

/-- A service that starts a population lays hands on that one and on no other. -/
theorem startPopulation_touches (kept : d.WellKept) (s : Service) (q : Query) (key : CacheKey)
    (run : RunId) (label : String) (displaced : Option PopulationId) (own : hand ⟨d.serial⟩) :
    Touches hand gone d (d.startPopulation s q key run label displaced).1 := by
  have entered : Touches hand gone d (d.entered s q key label) :=
    (addPopulation_touches kept _).trans (.of_eq rfl rfl)
  have installed := entered.trans (.installs (d.entered s q key label) run own)
  rcases d.startPopulation_cases s q key run label displaced with ⟨failure, refused⟩ | begun
  · rw [refused]
    exact installed.trans (.of_eq rfl rfl)
  · rw [begun]
    have reported : Touches hand gone ((d.entered s q key label).install ⟨d.serial⟩ run)
        (((d.entered s q key label).install ⟨d.serial⟩ run).reportFlights s) := .of_eq rfl rfl
    exact installed.trans (reported.trans (onResolved_touches _ _ _))

variable [ResultStore σ]

/-- A deposit touches no population. -/
theorem settleAt_touches (d : Deployment σ) (position : Nat) :
    Touches hand gone d (d.settleAt position) := by
  rcases d.settleAt_cases position with same | ⟨errand, result, -, deposits⟩
  · rw [same]
    exact touches_refl d
  · rw [deposits]
    let rest : Deployment σ := { d with pending := d.pending.eraseIdx position }
    have stored := rest.withStore_rests errand.store ()
      fun w => (w.deposit errand.cache errand.key result, ())
    have alike := rest.withStore_alike errand.store ()
      fun w => (w.deposit errand.cache errand.key result, ())
    exact .of_eq stored.runs_eq alike.populations_eq

/-- Every operation lays hands on the populations that it names, or on the one that it starts. -/
theorem apply_touches (kept : d.WellKept) (op : Operation σ) :
    Touches (fun id => op.drives id = true ∨ id = ⟨d.serial⟩) (fun name => op.endsRun name = true) d
      (d.apply op) := by
  cases op with
  | addRun name steps injectors polls offers =>
    exact .comes d steps injectors polls offers (beq_self_eq_true name)
  | dropRun name => exact .goes d (beq_self_eq_true name)
  | claim run owner => exact d.claim_touches run owner
  | engine step =>
    show Touches _ _ d (d.engine step)
    unfold engine
    split
    · exact perform_touches ‹_›
    · exact touches_refl d
  | ask run => exact d.ask_touches run
  | addStore store => exact .of_eq rfl rfl
  | alterStore store change => exact .of_eq rfl rfl
  | addPopulation label key query outputStep => exact addPopulation_touches kept _
  | install id run => exact .installs d run (.inl (decide_eq_true rfl))
  | collect id run => exact .collects d run (.inl (decide_eq_true rfl))
  | handle id event => exact .handles event (.inl (.inl (decide_eq_true rfl)))
  | onResolved id waiter outside => exact d.onResolved_touches id waiter
  | lookup s q =>
    exact .of_eq (d.lookup_rests s q).runs_eq (d.lookup_alike s q).populations_eq
  | populate s q run label =>
    show Touches _ _ d (d.populate s q run label).1
    rcases d.populate_answers s q run label with
      ⟨failure, -, failed⟩ | ⟨key, -, ⟨current, -, -, attached⟩ | start⟩
    · rw [failed]
      exact touches_refl d
    · rw [attached]
      exact .of_eq rfl rfl
    · rw [start]
      exact startPopulation_touches kept s q key run label _ (.inr rfl)
  | pushDown s f step => exact .of_eq rfl rfl
  | settleAt position => exact d.settleAt_touches position
  | replay r stage => exact d.replay_touches r stage

/-! ## Courses of operations -/

omit [ResultStore σ] in
/-- There are no runs in an empty deployment. -/
theorem knowsExisting_empty : ({} : Deployment σ).KnowsExisting := by
  rintro id run ⟨name, r, there, -⟩
  cases there

/-- In every course of operations runs know none but populations that are there. -/
theorem knowsExisting_after (ops : List (Operation σ)) :
    (({} : Deployment σ).after ops).KnowsExisting :=
  (after_induction (P := fun d => d.WellKept ∧ d.KnowsExisting)
    (fun d op both =>
      ⟨(d.apply_changes op).wellKept both.1, (apply_touches both.1 op).known both.2⟩)
    ⟨wellKept_empty, knowsExisting_empty⟩ ops).2

/-- A population is left to the runs by every operation that does not lay hands on it. -/
theorem leftToRuns_apply (kept : d.WellKept) {p : Population} (here : d.population? id = some p)
    {op : Operation σ} (free : op.drives id = false) : LeftToRuns id d (d.apply op) := by
  refine (apply_touches kept op).leftToRuns ?_
  rintro (by_hand | new)
  · rw [free] at by_hand
    cases by_hand
  · exact kept.ne_serial here new

/-- A population on which nobody lays hands is left to the runs. -/
theorem leftToRuns_after (kept : d.WellKept) {p : Population} (here : d.population? id = some p)
    {ops : List (Operation σ)} (free : ∀ op ∈ ops, op.drives id = false) :
    LeftToRuns id d (d.after ops) := by
  induction ops generalizing d p with
  | nil => exact .refl id d
  | cons op ops ih =>
    have step := leftToRuns_apply kept here (free op List.mem_cons_self)
    obtain ⟨p', here', -⟩ := step.stays p here
    exact step.trans (ih ((d.apply_changes op).wellKept kept) here'
      fun op later => free op (List.mem_cons_of_mem _ later))

end Deployment

end DataService
