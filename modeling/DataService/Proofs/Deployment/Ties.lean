import DataService.Proofs.Deployment.Placement

/-!
# What ties populations to runs

A run knows the populations that it will call back and those that listen to one of its steps
(`Run.Knows`); they are tied to it. The lemmas say where a tie comes from: to be installed on a run or
called back by it may tie a population to it, and nothing else does. The other bond is the place of a
population, which is the run on which it was last installed, as long as that exists (`OnRun`).
-/

set_option autoImplicit false

namespace DataService

/-- The run will call the population back, or the population listens to one of its steps. -/
def Run.Knows (r : Run) (id : PopulationId) : Prop :=
  id ∈ r.hooks.waiting ∨
    ∃ step output, r.outputs.get? step = some output ∧ id ∈ output.listeners

/-- A run that gets a listener knows that one besides those that it knew. -/
theorem Run.knows_addListener {r : Run} {step : String} {id j : PopulationId}
    (knows : (r.addListener step j).Knows id) : r.Knows id ∨ id = j := by
  rcases knows with waiting | ⟨name, output, at_step, listening⟩
  · exact .inl (.inl waiting)
  · rw [Run.get?_addListener] at at_step
    split at at_step
    · obtain ⟨before, at_name, rfl⟩ := Option.map_eq_some_iff.1 at_step
      rcases List.mem_append.1 listening with earlier | now
      · exact .inl (.inr ⟨name, before, at_name, earlier⟩)
      · exact .inr (List.mem_singleton.1 now)
    · exact .inl (.inr ⟨name, output, at_step, listening⟩)

/-- A run that keeps its ties knows whom it knew. -/
theorem Run.KeepsTies.knows_iff {r r' : Run} (h : r.KeepsTies r') (id : PopulationId) :
    r'.Knows id ↔ r.Knows id := by
  unfold Knows
  rw [h.waiting_eq, h.outputs_eq]

namespace Deployment

variable {σ : Type} {d d' : Deployment σ} {id j : PopulationId} {run run' : RunId}

/-- The run knows the population. -/
def TiedTo (d : Deployment σ) (id : PopulationId) (run : RunId) : Prop :=
  ∃ name r, d.runs.get? name = some r ∧ r.id = run ∧ r.Knows id

/-! ## Ties -/

/-- Ties depend on the runs alone. -/
theorem tiedTo_congr (same : d'.runs = d.runs) : d'.TiedTo id run ↔ d.TiedTo id run := by
  unfold TiedTo
  rw [same]

/-- Whoever is known by a run that is there is tied to it. -/
theorem tiedTo_of_knows {r : Run} (there : d.run? run = some r) (knows : r.Knows id) :
    d.TiedTo id run := by
  obtain ⟨at_name, id_eq⟩ := run?_eq_some_iff.1 there
  exact ⟨run.name, r, at_name, id_eq, knows⟩

/-- A tie in a deployment with a changed run was there before, or it is one of the changed run. -/
theorem TiedTo.of_modifyRun {f : Run → Run} (same_id : ∀ r, (f r).id = r.id)
    (h : (d.modifyRun run f).TiedTo id run') :
    d.TiedTo id run' ∨ ∃ r, d.run? run = some r ∧ run' = run ∧ (f r).Knows id := by
  obtain ⟨name, r', there, rfl, knows⟩ := h
  unfold modifyRun at there
  rw [Table.get?_modify] at there
  by_cases same : name = run.name
  · rw [if_pos (beq_iff_eq.2 same)] at there
    obtain ⟨r, here, rfl⟩ := Option.map_eq_some_iff.1 there
    by_cases own : r.id = run
    · rw [if_pos own] at knows ⊢
      rw [same] at here
      exact .inr ⟨r, run?_eq_some_iff.2 ⟨here, own⟩, (same_id r).trans own, knows⟩
    · rw [if_neg own] at knows ⊢
      exact .inl ⟨name, r, here, rfl, knows⟩
  · rw [if_neg (mt beq_iff_eq.1 same)] at there
    exact .inl ⟨name, r', there, rfl, knows⟩

/-- No population comes to be tied to a run by a change that keeps what the run knows. -/
theorem TiedTo.of_keepsTies {f : Run → Run} (keeps : ∀ r, d.run? run = some r → r.KeepsTies (f r))
    (same_id : ∀ r, (f r).id = r.id) (h : (d.modifyRun run f).TiedTo id run') :
    d.TiedTo id run' := by
  rcases h.of_modifyRun same_id with before | ⟨r, there, rfl, knows⟩
  · exact before
  · exact tiedTo_of_knows there (((keeps r there).knows_iff id).1 knows)

/-- A population that is called back by a run may come to be tied to it. -/
theorem TiedTo.of_collect (h : (d.collect j run).TiedTo id run') :
    d.TiedTo id run' ∨ id = j ∧ run' = run ∧ ∃ p, d.population? j = some p := by
  rcases d.collect_cases j run with ⟨same, -⟩ | ⟨p, r, here, there, -, same⟩ | ⟨p, failure, -, same⟩
  · rw [same] at h
    exact .inl h
  · rw [same] at h
    have same_id (r : Run) : (r.addListener p.outputStep j).id = r.id := rfl
    rcases h.of_modifyRun same_id with before | ⟨r', there', rfl, knows⟩
    · exact .inl before
    · rcases Run.knows_addListener knows with earlier | own
      · exact .inl (tiedTo_of_knows there' earlier)
      · exact .inr ⟨own, rfl, p, here⟩
  · rw [same] at h
    exact .inl ((tiedTo_congr (runs_advance d j _)).1 h)

/-- To put a population on a run may tie that population to it and no other one. -/
theorem TiedTo.of_place {hooks : Hooks Owner PopulationId} {r : Run} (there : d.run? run = some r)
    (waiting : ∀ k ∈ hooks.waiting, k ∈ r.hooks.waiting ∨ k = j)
    (h : (d.place j run hooks).TiedTo id run') : d.TiedTo id run' ∨ id = j ∧ run' = run := by
  rcases TiedTo.of_modifyRun (f := fun r => { r with hooks }) (fun _ => rfl) h with
    before | ⟨r', there', rfl, waits | listens⟩
  · exact .inl before
  · obtain rfl : r = r' := Option.some.inj (there.symm.trans there')
    rcases waiting id waits with earlier | own
    · exact .inl (tiedTo_of_knows there (.inl earlier))
    · exact .inr ⟨own, rfl⟩
  · exact .inl (tiedTo_of_knows there' (.inr listens))

/-- A population that is installed on a run may come to be tied to it. -/
theorem TiedTo.of_install (h : (d.install j run).TiedTo id run') :
    d.TiedTo id run' ∨ id = j ∧ run' = run ∧ ∃ p, d.population? j = some p := by
  rcases d.install_cases j run with same | ⟨failure, same⟩ |
    ⟨p, r, claimed, here, there, granted, ⟨-, same⟩ | ⟨-, same⟩⟩
  · rw [same] at h
    exact .inl h
  · rw [same] at h
    have runs_eq : ((d.modifyPopulation j (·.refuse failure)).resolve j (.error failure)).runs =
        d.runs := runs_advance _ j _
    exact .inl ((tiedTo_congr runs_eq).1 h)
  · rw [same] at h
    obtain ⟨-, waiting_eq⟩ := claim_keeps granted
    refine (h.of_place there fun k waits => ?_).imp_right fun own => ⟨own.1, own.2, p, here⟩
    rw [← waiting_eq]
    exact (List.mem_append.1 waits).imp_right List.mem_singleton.1
  · rw [same] at h
    obtain ⟨-, waiting_eq⟩ := claim_keeps granted
    rcases h.of_collect with placed | ⟨own, at_run, -⟩
    · refine (placed.of_place there fun k waits => ?_).imp_right fun own => ⟨own.1, own.2, p, here⟩
      rw [← waiting_eq]
      exact .inl waits
    · exact .inr ⟨own, at_run, p, here⟩

/-- Callbacks by a run may tie to it those who are called back. -/
theorem TiedTo.of_foldl_collect {callbacks : List PopulationId}
    (h : (callbacks.foldl (·.collect · run) d).TiedTo id run') :
    d.TiedTo id run' ∨ id ∈ callbacks ∧ run' = run := by
  induction callbacks generalizing d with
  | nil => exact .inl h
  | cons j rest ih =>
    rcases ih h with before | ⟨later, at_run⟩
    · rcases before.of_collect with earlier | ⟨rfl, at_run, -⟩
      · exact .inl earlier
      · exact .inr ⟨List.mem_cons_self, at_run⟩
    · exact .inr ⟨List.mem_cons_of_mem j later, at_run⟩

/-- A run that becomes ready calls back those that it knows. -/
theorem tiedTo_of_called {name : String} {r : Run} (there : d.runs.get? name = some r)
    (called : id ∈ r.hooks.fire.2) : d.TiedTo id r.id := by
  refine ⟨name, r, there, rfl, .inl ?_⟩
  unfold Hooks.fire at called
  split at called
  · cases called
  · exact called

/-- No population comes to be tied to a run because a run becomes ready. -/
theorem TiedTo.of_ready {name : String} {r : Run} (there : d.runs.get? name = some r)
    (h : (d.ready r).TiedTo id run') : d.TiedTo id run' := by
  rcases TiedTo.of_foldl_collect h with before | ⟨called, rfl⟩
  · rcases TiedTo.of_modifyRun (f := fun old => { old with hooks := r.hooks.fire.1 }) (fun _ => rfl)
        before with earlier | ⟨r', there', rfl, waits | listens⟩
    · exact earlier
    · refine ⟨name, r, there, rfl, .inl ?_⟩
      have waits : id ∈ r.hooks.fire.1.waiting := waits
      unfold Hooks.fire at waits
      split at waits
      · exact waits
      · cases waits
    · exact tiedTo_of_knows there' (.inr listens)
  · exact tiedTo_of_called there called

/-- A run that comes up knows nobody. -/
theorem TiedTo.of_addRun {name : String} {steps : List (String × List String)}
    {injectors : List String} {polls : Nat} {offers : List Offer}
    (h : (d.addRun name (.ofList (steps.map fun s => (s.1, { fields := s.2 }))) injectors polls
      offers).1.TiedTo id run') : d.TiedTo id run' := by
  obtain ⟨name', r, there, rfl, knows⟩ := h
  unfold addRun at there
  rw [Table.get?_put] at there
  split at there
  · cases there
    -- a new run has no callbacks and no listeners
    rcases knows with waits | ⟨step, output, at_step, listening⟩
    · cases waits
    · obtain ⟨s, -, same⟩ := List.mem_map.1 (Table.mem_of_get?_ofList at_step)
      cases same
      cases listening
  · exact ⟨name', r, there, rfl, knows⟩

/-- A run that is dropped ties nobody to the others. -/
theorem TiedTo.of_dropRun {name : String} (h : (d.dropRun name).TiedTo id run') :
    d.TiedTo id run' := by
  obtain ⟨name', r, there, rfl, knows⟩ := h
  unfold dropRun at there
  rw [Table.get?_erase] at there
  split at there
  · cases there
  · exact ⟨name', r, there, rfl, knows⟩

/-! ## Places -/

/-- The run on which the population was last installed exists. -/
def OnRun (d : Deployment σ) (id : PopulationId) : Prop :=
  ∃ p run r, d.population? id = some p ∧ p.run = some run ∧ d.run? run = some r

/-- Every run is there that was there before. -/
def KeepsRuns (d d' : Deployment σ) : Prop := ∀ run r, d.run? run = some r → ∃ r', d'.run? run = some r'

/-- Runs that are left as they are exist still. -/
theorem KeepsRuns.of_runs_eq (same : d'.runs = d.runs) : d.KeepsRuns d' := by
  intro run r there
  refine ⟨r, ?_⟩
  unfold run? at there ⊢
  rw [same]
  exact there

/-- Runs exist still when one of them is changed. -/
theorem keepsRuns_modifyRun {f : Run → Run} (same_id : ∀ r, (f r).id = r.id) :
    d.KeepsRuns (d.modifyRun run f) := by
  intro run' r there
  rw [run?_modifyRun same_id, there]
  split
  · exact ⟨f r, rfl⟩
  · exact ⟨r, rfl⟩

/-- Runs exist still when a population is called back. -/
theorem keepsRuns_collect (d : Deployment σ) (j : PopulationId) (run : RunId) :
    d.KeepsRuns (d.collect j run) := by
  rcases d.collect_cases j run with ⟨same, -⟩ | ⟨p, r, -, -, -, same⟩ | ⟨p, failure, -, same⟩
  · rw [same]
    exact .of_runs_eq rfl
  · rw [same]
    exact keepsRuns_modifyRun (d := d.modifyPopulation j fun p => { p with phase := .collecting })
      (f := fun r => r.addListener p.outputStep j) fun _ => rfl
  · rw [same]
    exact .of_runs_eq (runs_advance d j _)

/-- A population that is called back stays on its run. -/
theorem exists_population?_collect {p : Population} (here : d.population? id = some p)
    (j : PopulationId) (run : RunId) :
    ∃ p', (d.collect j run).population? id = some p' ∧ p'.run = p.run := by
  by_cases own : j = id
  · subst own
    rcases d.collect_cases j run with ⟨same, -⟩ | ⟨q, r, -, -, -, same⟩ | ⟨q, failure, -, same⟩
    · rw [same]
      exact ⟨p, here, rfl⟩
    · rw [same]
      exact ⟨_, population?_modifyPopulation_self here fun p => { p with phase := .collecting }, rfl⟩
    · rw [same]
      obtain ⟨p', there, stays⟩ := (d.rests_resolve j _).stays j p here
      exact ⟨p', there, stays.run_eq⟩
  · exact ⟨p, (d.population?_collect_of_ne own run).trans here, rfl⟩

/-- A population stays on a run that exists if runs stay and the population stays on its run. -/
theorem OnRun.of_keeps (on_run : d.OnRun id) (runs : d.KeepsRuns d')
    (place : ∀ p, d.population? id = some p →
      ∃ p', d'.population? id = some p' ∧ p'.run = p.run) : d'.OnRun id := by
  obtain ⟨p, run, r, here, at_run, there⟩ := on_run
  obtain ⟨p', here', run_eq⟩ := place p here
  obtain ⟨r', there'⟩ := runs run r there
  exact ⟨p', run, r', here', run_eq.trans at_run, there'⟩

/-- A callback takes no population off its run. -/
theorem OnRun.collect (on_run : d.OnRun id) (j : PopulationId) (run : RunId) :
    (d.collect j run).OnRun id :=
  on_run.of_keeps (d.keepsRuns_collect j run) fun _ here => exists_population?_collect here j run

/-- A population that is placed on a run that exists is on it. -/
theorem onRun_place {r : Run} {p : Population} (here : d.population? j = some p)
    (there : d.run? run = some r) (hooks : Hooks Owner PopulationId) :
    (d.place j run hooks).OnRun j :=
  ⟨_, run, _, population?_modifyPopulation_self (d := d.modifyRun run fun r => { r with hooks }) here
    (fun p => { p with run := some run }), rfl, run?_modifyRun_self there fun _ => rfl⟩

/-- A population on a run that exists is on one still when someone is installed, itself or another.
-/
theorem OnRun.install (on_run : d.OnRun id) (j : PopulationId) (run : RunId) :
    (d.install j run).OnRun id := by
  have placed {p : Population} {r : Run} (hooks : Hooks Owner PopulationId)
      (here : d.population? j = some p) (there : d.run? run = some r) :
      (d.place j run hooks).OnRun id := by
    by_cases own : id = j
    · rw [own]
      exact onRun_place here there hooks
    · refine on_run.of_keeps (keepsRuns_modifyRun fun _ => rfl) fun q at_id => ⟨q, ?_, rfl⟩
      exact (population?_modifyPopulation_of_ne _ own _).trans at_id
  rcases d.install_cases j run with same | ⟨failure, same⟩ |
    ⟨p, r, claimed, here, there, -, ⟨-, same⟩ | ⟨-, same⟩⟩
  · rw [same]
    exact on_run
  · rw [same]
    refine on_run.of_keeps (.of_runs_eq (runs_advance _ j _)) fun q at_id => ?_
    have refused : d.Rests (d.modifyPopulation j (·.refuse failure)) :=
      rests_modifyPopulation fun _ => ⟨rfl, fun created => ⟨created, rfl, rfl⟩⟩
    obtain ⟨q', there, stays⟩ := (refused.trans (rests_resolve _ j _)).stays id q at_id
    exact ⟨q', there, stays.run_eq⟩
  · rw [same]
    exact placed _ here there
  · rw [same]
    exact (placed _ here there).collect j run

end Deployment

end DataService
