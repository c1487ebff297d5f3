import DataService.Proofs.Deployment.Runs

/-!
# What operations do to runs

`Stirs` lists what an operation can do to runs and to the places of populations, and every operation
is made of these (`apply_stirs`). Most leave the runs as they are, and populations on the run where
they are (`Rests`); a few do something to a run that no population notices; and a population may be
installed on a run or called back by it. A law about runs and the populations on them is proved for
these few.
-/

set_option autoImplicit false

namespace DataService

/-- What has become of a population that stays on its run. If it has not started, it had not started
before, and nothing was captured since. -/
structure Population.Stays (p p' : Population) : Prop where
  run_eq : p'.run = p.run
  unstarted : p'.phase = .created →
    p.phase = .created ∧ p'.outcome = p.outcome ∧ p'.rows = p.rows

/-- A population that is on no run and has captured nothing before its start. -/
structure Population.IsNew (p : Population) : Prop where
  run_eq : p.run = none
  unstarted : p.phase = .created → p.outcome = none ∧ p.rows = []

namespace Population

variable {p p' p'' : Population}

/-- A population to which nothing happened has stayed on its run. -/
theorem Stays.refl (p : Population) : p.Stays p := ⟨rfl, fun created => ⟨created, rfl, rfl⟩⟩

/-- A population that stayed on its run twice has stayed on it. -/
theorem Stays.trans (h : p.Stays p') (h' : p'.Stays p'') : p.Stays p'' where
  run_eq := h'.run_eq.trans h.run_eq
  unstarted created := by
    obtain ⟨created', outcome', rows'⟩ := h'.unstarted created
    obtain ⟨created, outcome, rows⟩ := h.unstarted created'
    exact ⟨created, outcome'.trans outcome, rows'.trans rows⟩

/-- A population that is on no run and stays there is new as long as it has not started. -/
theorem Stays.isNew (h : p.Stays p') (new : p.IsNew) : p'.IsNew where
  run_eq := h.run_eq.trans new.run_eq
  unstarted created := by
    obtain ⟨created, outcome_eq, rows_eq⟩ := h.unstarted created
    rw [outcome_eq, rows_eq]
    exact new.unstarted created

/-- An outcome does not move a population, and one that is not accepted leaves it as it was. -/
theorem stays_resolve (p : Population) (outcome : Outcome) : p.Stays (p.resolve outcome).1 := by
  cases settled : p.outcome with
  | some o =>
    rw [resolve_eq_self settled]
    exact .refl p
  | none =>
    rw [resolve_eq settled]
    refine ⟨rfl, fun created => ?_⟩
    have resolved := Outcome.isResolved_phase outcome
    have phase_eq : outcome.phase = .created := created
    rw [phase_eq] at resolved
    cases resolved

/-- No event from a run moves a population. -/
theorem stays_handle (p : Population) (event : PopulationEvent) : p.Stays (p.handle event).1 := by
  cases event with
  | row row =>
    by_cases ignored : p.closed = true ∨ p.phase ≠ .collecting
    · rw [handle, if_pos ignored]
      exact .refl p
    · rw [handle, if_neg ignored]
      refine ⟨rfl, fun created => ?_⟩
      have collecting : p.phase = .collecting := Decidable.not_not.1 (not_or.1 ignored).2
      have phase_eq : p.phase = .created := created
      rw [collecting] at phase_eq
      cases phase_eq
  | finished stoppedEarly => exact p.stays_resolve _
  | failed failure => exact p.stays_resolve _

/-- A waiter that is registered, or informed at once, does not move a population. -/
theorem stays_onResolved (p : Population) (waiter : Waiter) :
    p.Stays (p.onResolved waiter).1 := by
  cases settled : p.outcome with
  | some o =>
    rw [onResolved_of_some settled]
    exact .refl p
  | none =>
    rw [onResolved_of_none settled]
    exact ⟨rfl, fun created => ⟨created, rfl, rfl⟩⟩

end Population

namespace Deployment

variable {σ : Type} {d d' d'' : Deployment σ}

/-- Runs are as they were, and populations are where they were. -/
structure Rests (d d' : Deployment σ) : Prop where
  runs_eq : d'.runs = d.runs
  serial_le : d.serial ≤ d'.serial
  stays : ∀ id p, d.population? id = some p → ∃ p', d'.population? id = some p' ∧ p.Stays p'
  comes : ∀ id p', d'.population? id = some p' → (∃ p, d.population? id = some p) ∨ p'.IsNew

/-- What an operation does to runs and to the places of populations. -/
inductive Stirs : Deployment σ → Deployment σ → Prop
  | rests {d d' : Deployment σ} : d.Rests d' → Stirs d d'
  /-- Something happens to a run that its populations do not notice. -/
  | goesBy {d : Deployment σ} {id : RunId} {f : Run → Run} :
    (∀ r, d.run? id = some r → r.KeepsTies (f r)) → (∀ r, (f r).id = r.id) →
    Stirs d (d.modifyRun id f)
  | comes (d : Deployment σ) (name : String) (steps : List (String × List String))
    (injectors : List String) (polls : Nat) (offers : List Offer) :
    Stirs d (d.addRun name (.ofList (steps.map fun s => (s.1, { fields := s.2 }))) injectors polls
      offers).1
  | goes (d : Deployment σ) (name : String) : Stirs d (d.dropRun name)
  | installs (d : Deployment σ) (id : PopulationId) (run : RunId) : Stirs d (d.install id run)
  | collects (d : Deployment σ) (id : PopulationId) (run : RunId) : Stirs d (d.collect id run)
  | starts {d : Deployment σ} {name : String} {r : Run} : d.runs.get? name = some r →
    Stirs d (d.ready r)
  | trans {d d' d'' : Deployment σ} : Stirs d d' → Stirs d' d'' → Stirs d d''

/-! ## Resting -/

/-- Nothing has stirred in a deployment to which nothing was done. -/
theorem Rests.refl (d : Deployment σ) : d.Rests d :=
  ⟨rfl, Nat.le_refl _, fun _ p here => ⟨p, here, .refl p⟩, fun _ p' there => .inl ⟨p', there⟩⟩

/-- What stirs nothing can be followed by more of the kind. -/
theorem Rests.trans (h : d.Rests d') (h' : d'.Rests d'') : d.Rests d'' where
  runs_eq := h'.runs_eq.trans h.runs_eq
  serial_le := Nat.le_trans h.serial_le h'.serial_le
  stays id p here := by
    obtain ⟨p', here', stays⟩ := h.stays id p here
    obtain ⟨p'', here'', stays'⟩ := h'.stays id p' here'
    exact ⟨p'', here'', stays.trans stays'⟩
  comes id p'' there := by
    rcases h'.comes id p'' there with ⟨p', there'⟩ | new
    · rcases h.comes id p' there' with known | new
      · exact .inl known
      · obtain ⟨q, at_id, stays⟩ := h'.stays id p' there'
        obtain rfl : q = p'' := Option.some.inj (at_id.symm.trans there)
        exact .inr (stays.isNew new)
    · exact .inr new

/-- Whatever keeps runs and populations as they are stirs nothing. -/
theorem Rests.of_eq (runs_eq : d'.runs = d.runs) (populations_eq : d'.populations = d.populations)
    (serial_le : d.serial ≤ d'.serial) : d.Rests d' := by
  have same (id : PopulationId) : d'.population? id = d.population? id := by
    unfold population?
    rw [populations_eq]
  refine ⟨runs_eq, serial_le, ?_, ?_⟩
  · intro id p here
    exact ⟨p, (same id).trans here, .refl p⟩
  · intro id p' there
    exact .inl ⟨p', (same id).symm.trans there⟩

/-- If it stirs nothing to do something for one item, nor does it for all items of a list. -/
theorem Rests.foldl {α : Type} {f : Deployment σ → α → Deployment σ}
    (each : ∀ (d : Deployment σ) (a : α), d.Rests (f d a)) (items : List α) (d : Deployment σ) :
    d.Rests (items.foldl f d) := by
  induction items generalizing d with
  | nil => exact .refl d
  | cons a rest ih => exact (each d a).trans (ih (f d a))

/-- A new population takes no other one's place. -/
theorem rests_addPopulation (kept : d.WellKept) {p : Population} (new : p.IsNew) :
    d.Rests (d.addPopulation p).1 := by
  refine ⟨rfl, Nat.le_succ _, ?_, ?_⟩
  · intro id q here
    exact ⟨q, kept.population?_addPopulation here p, .refl q⟩
  · intro id p' there
    rw [population?_addPopulation] at there
    split at there
    · cases there
      exact .inr new
    · exact .inl ⟨p', there⟩

/-- A step of a population that stays on its run stirs nothing, the waiters that it informs
included. -/
theorem rests_advance {take : Population → Population × List Waiter}
    (stays : ∀ p : Population, p.Stays (take p).1) (d : Deployment σ) (id : PopulationId) :
    d.Rests (d.advance id take) := by
  have there (j : PopulationId) := d.population?_advance id take j
  refine ⟨runs_advance d id take, Nat.le_of_eq (serial_advance d id take).symm, ?_, ?_⟩
  · intro j p here
    rw [there, here]
    split
    · exact ⟨(take p).1, rfl, stays p⟩
    · exact ⟨p, rfl, .refl p⟩
  · intro j p' at_j
    rw [there] at at_j
    split at at_j
    · obtain ⟨p, here, -⟩ := Option.map_eq_some_iff.1 at_j
      exact .inl ⟨p, here⟩
    · exact .inl ⟨p', at_j⟩

/-- A change of a population that stays on its run stirs nothing. -/
theorem rests_modifyPopulation {id : PopulationId} {f : Population → Population}
    (stays : ∀ p : Population, p.Stays (f p)) : d.Rests (d.modifyPopulation id f) := by
  have there (j : PopulationId) := d.population?_modifyPopulation id f j
  refine ⟨rfl, Nat.le_refl _, ?_, ?_⟩
  · intro j p here
    rw [there, here]
    split
    · exact ⟨f p, rfl, stays p⟩
    · exact ⟨p, rfl, .refl p⟩
  · intro j p' at_j
    rw [there] at at_j
    split at at_j
    · obtain ⟨p, here, -⟩ := Option.map_eq_some_iff.1 at_j
      exact .inl ⟨p, here⟩
    · exact .inl ⟨p', at_j⟩

/-- The end of a population stirs nothing. -/
theorem rests_resolve (d : Deployment σ) (id : PopulationId) (outcome : Outcome) :
    d.Rests (d.resolve id outcome) := rests_advance (fun p => p.stays_resolve outcome) d id

/-- The handling of an event stirs nothing. -/
theorem rests_handle (d : Deployment σ) (id : PopulationId) (event : PopulationEvent) :
    d.Rests (d.handle id event) := rests_advance (fun p => p.stays_handle event) d id

/-- The registration of a waiter stirs nothing. -/
theorem rests_onResolved (d : Deployment σ) (id : PopulationId) (waiter : Waiter) :
    d.Rests (d.onResolved id waiter) := rests_advance (fun p => p.stays_onResolved waiter) d id

/-! ## Operations on runs -/

/-- Whatever operations do to runs, the runs go on as they were. -/
theorem Stirs.runsGoOn (h : d.Stirs d') : d.RunsGoOn d' := by
  induction h with
  | rests rests => exact .of_runs_eq rests.runs_eq rests.serial_le
  | goesBy keeps same_id =>
    exact runsGoOn_modifyRun same_id fun r here => (keeps r here).toBecomes
  | comes d name steps injectors polls offers => exact d.runsGoOn_addRun name _ injectors polls offers
  | goes d name => exact d.runsGoOn_dropRun name
  | installs d id run => exact d.runsGoOn_install id run
  | collects d id run => exact d.runsGoOn_collect id run
  | @starts d _ r _ => exact d.runsGoOn_ready r
  | trans _ _ ih ih' => exact ih.trans ih'

/-- To do nothing is among what operations can do to runs. -/
theorem stirs_refl (d : Deployment σ) : d.Stirs d := .rests (.refl d)

/-- What is done for every item of a list stirs no more than what is done for each of them. -/
theorem Stirs.foldl {α : Type} {f : Deployment σ → α → Deployment σ}
    (each : ∀ (d : Deployment σ) (a : α), d.Stirs (f d a)) (items : List α) (d : Deployment σ) :
    d.Stirs (items.foldl f d) := by
  induction items generalizing d with
  | nil => exact stirs_refl d
  | cons a rest ih => exact (each d a).trans (ih (f d a))

/-- A question to a run costs it a poll, or stops it, and no population notices. -/
theorem ask_stirs (d : Deployment σ) (run : RunId) : d.Stirs (d.ask run).1 := by
  unfold ask
  split
  · exact stirs_refl d
  · refine .goesBy (fun r _ => r.keepsTies_ask) fun r => ?_
    exact r.keepsTies_ask.id_eq

/-- An engine step makes a run ready, stops one, or lets populations handle an event. -/
theorem perform_stirs {step : EngineStep} (h : d.perform step = .ok d') : d.Stirs d' := by
  rcases perform_cases h with ⟨name, r, found, rfl⟩ | ⟨r, rfl⟩ | ⟨ids, event, rfl⟩
  · exact .starts found
  · refine .goesBy (fun r _ => ⟨⟨rfl, rfl, ?_, Nat.le_refl _⟩, rfl, rfl, rfl⟩) fun _ => rfl
    intro running
    cases running
  · exact .rests (.foldl (fun d id => d.rests_handle id event) _ d)

/-- A line in the log stirs nothing. -/
theorem rests_log (d : Deployment σ) (event : Event) : d.Rests (d.log event) :=
  .of_eq rfl rfl (Nat.le_refl _)

/-- A script of an engine does no more to runs than its steps do. -/
theorem performScript_stirs (d : Deployment σ) (script : List (Option EngineStep)) :
    d.Stirs (d.performScript script) := by
  refine .foldl (fun d line => ?_) script d
  cases line with
  | none => exact .rests (d.rests_log _)
  | some step =>
    dsimp only [Option.map_some]
    split
    · rename_i performed
      exact perform_stirs (Option.some.inj performed)
    · exact .rests (d.rests_log _)
    · exact .rests (d.rests_log _)

/-- A row that is offered to a run costs it an offer, and lets the engine do a script meanwhile. -/
theorem offer_stirs (d : Deployment σ) (id : RunId) (milliseconds : UInt64) (row : Row) :
    d.Stirs (d.offer id milliseconds row).1 := by
  unfold offer
  split
  · exact .rests (d.rests_log _)
  · exact .rests (d.rests_log _)
  · rename_i offer rest _
    have taken : d.Stirs (d.modifyRun id fun r => { r with offers := rest }) := by
      refine .goesBy (fun r _ => ⟨⟨rfl, rfl, fun h => h, Nat.le_refl _⟩, rfl, rfl, rfl⟩) ?_
      exact fun _ => rfl
    exact (taken.trans (.rests (rests_log _ _))).trans (performScript_stirs _ _)

/-- Work on a store stirs nothing. -/
theorem withStore_rests {α : Type} (d : Deployment σ) (id : StoreId) (otherwise : α)
    (work : Watched σ → Watched σ × α) : d.Rests (d.withStore id otherwise work).1 := by
  unfold withStore
  split
  · exact .refl d
  · exact .of_eq rfl rfl (Nat.le_refl _)

end Deployment

/-- A step of a replay does no more to runs than operations may. -/
theorem Replay.step_stirs {σ : Type} (r : Replay) (d : Deployment σ) (stage : Stage) :
    d.Stirs (r.step d stage).1 := by
  rcases r.fst_step_cases d stage with
    same | wires | ⟨run, asks⟩ | ⟨-, row, -, offers⟩ | ⟨delivered, -, -, ends⟩
  · rw [same]
    exact d.stirs_refl
  · rw [wires]
    exact .rests ((d.rests_log _).trans (Deployment.rests_log _ _))
  · rw [asks]
    exact d.ask_stirs run
  · rw [offers]
    exact d.offer_stirs r.target r.putTimeout row
  · rw [ends]
    exact .rests (.of_eq rfl rfl (Nat.le_refl _))

namespace Deployment

variable {σ : Type} {d d' d'' : Deployment σ}

/-- A claim by somebody else takes the hooks of a run and ties no population to it. -/
theorem claim_stirs (d : Deployment σ) (run : RunId) (owner : String) :
    d.Stirs (d.claim run owner) := by
  unfold claim
  split
  · exact stirs_refl d
  · rename_i r there
    split
    · rename_i hooks granted
      obtain ⟨ready_eq, waiting_eq⟩ := claim_keeps granted
      refine .goesBy (fun r' there' => ?_) fun _ => rfl
      obtain rfl : r = r' := Option.some.inj (there.symm.trans there')
      exact ⟨.of_hooks r hooks, ready_eq, waiting_eq, rfl⟩
    · exact stirs_refl d

/-- A service that starts a population makes one that is new and installs it on the run. -/
theorem startPopulation_stirs (kept : d.WellKept) (s : Service) (q : Query) (key : CacheKey)
    (run : RunId) (label : String) (displaced : Option PopulationId) :
    d.Stirs (d.startPopulation s q key run label displaced).1 := by
  have added : d.Rests (d.addPopulation
      { label, key, query := q, outputStep := s.definition.outputStep }).1 :=
    rests_addPopulation kept ⟨rfl, fun _ => ⟨rfl, rfl⟩⟩
  have entered : d.Rests (d.entered s q key label) :=
    added.trans (.of_eq rfl rfl (Nat.le_refl _))
  have installed := (Stirs.rests entered).trans (.installs (d.entered s q key label) ⟨d.serial⟩ run)
  rcases d.startPopulation_cases s q key run label displaced with ⟨failure, refused⟩ | begun
  · rw [refused]
    exact installed.trans (.rests (.of_eq rfl rfl (Nat.le_refl _)))
  · rw [begun]
    have reported : ((d.entered s q key label).install ⟨d.serial⟩ run).Rests
        (((d.entered s q key label).install ⟨d.serial⟩ run).reportFlights s) :=
      .of_eq rfl rfl (Nat.le_refl _)
    exact installed.trans (.rests (reported.trans (rests_onResolved _ _ _)))

/-- A call to populate starts a population or leaves the runs alone. -/
theorem populate_stirs (kept : d.WellKept) (s : Service) (q : Query) (run : RunId)
    (label : String) : d.Stirs (d.populate s q run label).1 := by
  rcases d.populate_answers s q run label with
    ⟨failure, -, failed⟩ | ⟨key, -, ⟨current, -, -, attached⟩ | start⟩
  · rw [failed]
    exact stirs_refl d
  · rw [attached]
    exact .rests (.of_eq rfl rfl (Nat.le_refl _))
  · rw [start]
    exact startPopulation_stirs kept s q key run label _

variable [ResultStore σ]

/-- A look-up stirs nothing. -/
theorem lookup_rests (d : Deployment σ) (s : Service) (q : Query) : d.Rests (d.lookup s q).1 := by
  have works := d.withStore_rests s.store (.ok none) (s.lookup q)
  unfold lookup
  split
  case h_1 d' failure found =>
    rw [found] at works
    exact works
  case h_2 d' found =>
    rw [found] at works
    exact works
  case h_3 d' answer found =>
    rw [found] at works
    exact works.trans (.of_eq rfl rfl (Nat.le_refl _))

/-- A deposit stirs nothing. -/
theorem settleAt_rests (d : Deployment σ) (position : Nat) : d.Rests (d.settleAt position) := by
  rcases d.settleAt_cases position with same | ⟨errand, result, -, deposits⟩
  · rw [same]
    exact .refl d
  · rw [deposits]
    let rest : Deployment σ := { d with pending := d.pending.eraseIdx position }
    have taken : d.Rests rest := .of_eq rfl rfl (Nat.le_refl _)
    have stored := rest.withStore_rests errand.store ()
      fun w => (w.deposit errand.cache errand.key result, ())
    exact (taken.trans stored).trans (.of_eq rfl rfl (Nat.le_refl _))

/-- Every operation stirs runs and populations at most. -/
theorem apply_stirs (kept : d.WellKept) (op : Operation σ) : d.Stirs (d.apply op) := by
  have same {d' : Deployment σ} (runs_eq : d'.runs = d.runs)
      (populations_eq : d'.populations = d.populations) (serial_le : d.serial ≤ d'.serial) :
      d.Stirs d' := .rests (.of_eq runs_eq populations_eq serial_le)
  cases op with
  | addRun name steps injectors polls offers => exact .comes d name steps injectors polls offers
  | dropRun name => exact .goes d name
  | claim run owner => exact d.claim_stirs run owner
  | engine step =>
    show d.Stirs (d.engine step)
    unfold engine
    split
    · exact perform_stirs ‹_›
    · exact stirs_refl d
  | ask run => exact d.ask_stirs run
  | addStore store => exact same rfl rfl (Nat.le_succ _)
  | alterStore store change => exact same rfl rfl (Nat.le_refl _)
  | addPopulation label key query outputStep =>
    exact .rests (rests_addPopulation kept ⟨rfl, fun _ => ⟨rfl, rfl⟩⟩)
  | install id run => exact .installs d id run
  | collect id run => exact .collects d id run
  | handle id event => exact .rests (d.rests_handle id event)
  | onResolved id waiter outside => exact .rests (d.rests_onResolved id waiter)
  | lookup s q => exact .rests (d.lookup_rests s q)
  | populate s q run label => exact populate_stirs kept s q run label
  | pushDown s f step => exact same rfl rfl (Nat.le_refl _)
  | settleAt position => exact .rests (d.settleAt_rests position)
  | replay r stage => exact r.step_stirs d stage

end Deployment

end DataService
