import DataService.Proofs.Deployment.WellKept

/-!
# What becomes of runs

A run stays what it was: it is running no longer than before, and it can be found running no more
often (`Run.Becomes`). That holds of all runs whatever is done to one of them (`RunsGoOn`), since a
run that comes up has an identity of its own. So a run that is not found running is never found
running again (`RunsGoOn.ask_eq_false`).

The operations by which a population comes to a run have several ends; `collect_cases` and
`install_cases` list them.
-/

set_option autoImplicit false

namespace DataService

/-- What a run has become later on. -/
structure Run.Becomes (r r' : Run) : Prop where
  id_eq : r'.id = r.id
  injectors_eq : r'.injectors = r.injectors
  running : r'.running = true → r.running = true
  polls_le : r'.polls ≤ r.polls

/-- What has become of a run to which the same populations are tied. -/
structure Run.KeepsTies (r r' : Run) : Prop extends r.Becomes r' where
  ready_eq : r'.hooks.ready = r.hooks.ready
  waiting_eq : r'.hooks.waiting = r.hooks.waiting
  outputs_eq : r'.outputs = r.outputs

namespace Run

variable {r r' r'' : Run}

/-- A run to which nothing was done is what it was. -/
theorem Becomes.refl (r : Run) : r.Becomes r := ⟨rfl, rfl, fun h => h, Nat.le_refl _⟩

/-- What a run has become goes on from what it had become before. -/
theorem Becomes.trans (h : r.Becomes r') (h' : r'.Becomes r'') : r.Becomes r'' where
  id_eq := h'.id_eq.trans h.id_eq
  injectors_eq := h'.injectors_eq.trans h.injectors_eq
  running running := h.running (h'.running running)
  polls_le := Nat.le_trans h'.polls_le h.polls_le

/-- A change of hooks alone. -/
theorem Becomes.of_hooks (r : Run) (hooks : Hooks Owner PopulationId) :
    r.Becomes { r with hooks } := ⟨rfl, rfl, fun h => h, Nat.le_refl _⟩

/-- A run that gets a listener is what it was. -/
theorem becomes_addListener (r : Run) (step : String) (id : PopulationId) :
    r.Becomes (r.addListener step id) := ⟨rfl, rfl, fun h => h, Nat.le_refl _⟩

/-- A run that is asked keeps all who are tied to it; it loses a poll, or it stops for want of one.
-/
theorem keepsTies_ask (r : Run) : r.KeepsTies r.ask.1 := by
  unfold ask
  split
  · rename_i running
    split
    · exact ⟨⟨rfl, rfl, fun _ => running, Nat.le_refl _⟩, rfl, rfl, rfl⟩
    · rename_i n polls
      refine ⟨⟨rfl, rfl, fun h => h, ?_⟩, rfl, rfl, rfl⟩
      rw [polls]
      exact Nat.le_succ n
  · exact ⟨.refl r, rfl, rfl, rfl⟩

/-- A run that was asked and not found running has stopped. -/
theorem running_ask_of_false {r : Run} (stopped : r.ask.2 = false) : r.ask.1.running = false := by
  unfold ask at stopped ⊢
  cases running : r.running with
  | false =>
    rw [if_neg Bool.false_ne_true]
    exact running
  | true =>
    rw [running, if_pos rfl] at stopped
    cases polls : r.polls with
    | zero => rfl
    | succ n =>
      rw [polls] at stopped
      cases stopped

/-- A run is not found running if it has stopped or has no polls left. -/
theorem ask_eq_false_iff (r : Run) : r.ask.2 = false ↔ r.running = false ∨ r.polls = 0 := by
  unfold ask
  cases running : r.running with
  | false => simp
  | true =>
    cases polls : r.polls with
    | zero => simp
    | succ n => simp

/-- A run that is not found running will not be found running later. -/
theorem Becomes.ask_eq_false (h : r.Becomes r') (stopped : r.ask.2 = false) :
    r'.ask.2 = false := by
  rw [ask_eq_false_iff] at stopped ⊢
  rcases stopped with stopped | spent
  · refine .inl (Bool.eq_false_iff.2 fun running => ?_)
    rw [h.running running] at stopped
    cases stopped
  · have polls_le := h.polls_le
    rw [spent] at polls_le
    exact .inr (Nat.le_zero.1 polls_le)

/-- The listeners of an output after one has been added to a step. -/
theorem get?_addListener (r : Run) (step : String) (id : PopulationId) (name : String) :
    (r.addListener step id).outputs.get? name =
      if name = step then
        (r.outputs.get? name).map fun o => { o with listeners := o.listeners ++ [id] }
      else r.outputs.get? name := by
  unfold addListener
  rw [Table.get?_modify]
  simp only [beq_iff_eq]

end Run

namespace Deployment

variable {σ : Type} {d d' d'' : Deployment σ}

/-! ## Runs by identity -/

/-- A run is there if the latest one that came up under its name is that very run. -/
theorem run?_eq_some_iff {id : RunId} {r : Run} :
    d.run? id = some r ↔ d.runs.get? id.name = some r ∧ r.id = id := by
  unfold run?
  rw [Option.filter_eq_some_iff, decide_eq_true_eq]

/-- A change of one run, by which it keeps its identity, leaves the others alone. -/
theorem run?_modifyRun {id : RunId} {f : Run → Run} (same_id : ∀ r, (f r).id = r.id) (j : RunId) :
    (d.modifyRun id f).run? j = if j = id then (d.run? j).map f else d.run? j := by
  have at_name : (d.modifyRun id f).runs.get? j.name =
      if j.name = id.name then
        (d.runs.get? j.name).map fun r => if r.id = id then f r else r
      else d.runs.get? j.name := by
    unfold modifyRun
    rw [Table.get?_modify]
    simp only [beq_iff_eq]
  unfold run?
  rw [at_name]
  by_cases same : j = id
  · rw [if_pos (congrArg RunId.name same), if_pos same]
    cases d.runs.get? j.name with
    | none => rfl
    | some r =>
      by_cases own : r.id = id
      · simp [Option.filter_some, own, same, same_id]
      · simp [Option.filter_some, own, same]
  · rw [if_neg same]
    by_cases name_eq : j.name = id.name
    · rw [if_pos name_eq]
      cases d.runs.get? j.name with
      | none => rfl
      | some r =>
        by_cases own : r.id = id
        · have other : ¬id = j := fun h => same h.symm
          simp [Option.filter_some, own, same_id, other]
        · simp [own]
    · rw [if_neg name_eq]

/-- A run that is changed is there as it was changed. -/
theorem run?_modifyRun_self {id : RunId} {f : Run → Run} {r : Run} (here : d.run? id = some r)
    (same_id : ∀ r, (f r).id = r.id) : (d.modifyRun id f).run? id = some (f r) := by
  rw [run?_modifyRun same_id, if_pos rfl, here]
  rfl

/-- A run of the changed deployment is one that the deployment had, changed if it is the one. -/
theorem exists_run?_of_modifyRun {id : RunId} {f : Run → Run} (same_id : ∀ r, (f r).id = r.id)
    {j : RunId} {r' : Run} (there : (d.modifyRun id f).run? j = some r') :
    ∃ r, d.run? j = some r ∧ r' = if j = id then f r else r := by
  rw [run?_modifyRun same_id] at there
  by_cases same : j = id
  · rw [if_pos same] at there
    obtain ⟨r, here, rfl⟩ := Option.map_eq_some_iff.1 there
    exact ⟨r, here, by rw [if_pos same]⟩
  · rw [if_neg same] at there
    exact ⟨r', there, by rw [if_neg same]⟩

/-- A new run has an identity of its own, and takes the name from the run that had it. -/
theorem run?_addRun (d : Deployment σ) (name : String) (outputs : Table String StepOutput)
    (injectors : List String) (polls : Nat) (offers : List Offer) (j : RunId) :
    (d.addRun name outputs injectors polls offers).1.run? j =
      if j.name = name then
        if j.serial = d.serial then
          some { id := ⟨name, d.serial⟩, polls, outputs, injectors, offers }
        else none
      else d.run? j := by
  unfold run? addRun
  dsimp only
  rw [Table.get?_put]
  by_cases same : j.name = name
  · obtain ⟨_, serial⟩ := j
    cases same
    rw [if_pos (beq_self_eq_true _), if_pos rfl, Option.filter_some]
    by_cases own : serial = d.serial
    · simp [own]
    · have other : ¬d.serial = serial := fun h => own h.symm
      simp [own, other]
  · rw [if_neg (mt beq_iff_eq.1 same), if_neg same]

/-- To drop the run of a name takes away that run and no other. -/
theorem run?_dropRun (d : Deployment σ) (name : String) (j : RunId) :
    (d.dropRun name).run? j = if j.name = name then none else d.run? j := by
  unfold run? dropRun
  dsimp only
  rw [Table.get?_erase]
  by_cases same : j.name = name
  · rw [if_pos (beq_iff_eq.2 same), if_pos same]
    rfl
  · rw [if_neg (mt beq_iff_eq.1 same), if_neg same]

/-! ## Collecting and installing -/

section

variable {id : PopulationId} {run : RunId} {p : Population} {r : Run}

/-- A population that has not started is called back by its run to collect at its output step. -/
theorem collect_of_created (here : d.population? id = some p) (there : d.run? run = some r)
    (output : r.outputs.contains p.outputStep = true) (created : p.phase = .created) :
    d.collect id run =
      (d.modifyPopulation id fun p => { p with phase := .collecting }).modifyRun run
        fun r => r.addListener p.outputStep id := by
  unfold collect
  rw [here, there]
  dsimp only
  rw [if_pos output, if_pos created]

/-- A population that has started already is called back in vain. -/
theorem collect_of_started (here : d.population? id = some p) (there : d.run? run = some r)
    (output : r.outputs.contains p.outputStep = true) (started : p.phase ≠ .created) :
    d.collect id run = d := by
  unfold collect
  rw [here, there]
  dsimp only
  rw [if_pos output, if_neg started]

/-- A population whose run lacks the output step ends with a configuration error. -/
theorem collect_of_no_output (here : d.population? id = some p) (there : d.run? run = some r)
    (missing : r.outputs.contains p.outputStep = false) :
    d.collect id run = d.resolve id (.error (.configuration (.noOutputStep p.outputStep))) := by
  unfold collect
  rw [here, there]
  dsimp only
  rw [missing, if_neg Bool.false_ne_true]

end

/-- A population that is called back by a run starts to listen, fails for want of its output step,
or has started before. -/
theorem collect_cases (d : Deployment σ) (id : PopulationId) (run : RunId) :
    (d.collect id run = d ∧
      ∀ p r, d.population? id = some p → d.run? run = some r → p.phase ≠ .created) ∨
    (∃ p r, d.population? id = some p ∧ d.run? run = some r ∧ p.phase = .created ∧
      d.collect id run =
        (d.modifyPopulation id fun p => { p with phase := .collecting }).modifyRun run
          fun r => r.addListener p.outputStep id) ∨
    ∃ p failure, d.population? id = some p ∧ d.collect id run = d.resolve id (.error failure) := by
  cases here : d.population? id with
  | none =>
    refine .inl ⟨?_, by simp⟩
    unfold collect
    rw [here]
  | some p =>
    cases there : d.run? run with
    | none =>
      refine .inl ⟨?_, by simp⟩
      unfold collect
      rw [here, there]
    | some r =>
      cases output : r.outputs.contains p.outputStep with
      | false => exact .inr (.inr ⟨p, _, rfl, collect_of_no_output here there output⟩)
      | true =>
        by_cases created : p.phase = .created
        · exact .inr (.inl ⟨p, r, rfl, rfl, created, collect_of_created here there output created⟩)
        · refine .inl ⟨collect_of_started here there output created, ?_⟩
          rintro _ _ ⟨⟩ -
          exact created

/-- A claim changes no callbacks. -/
theorem claim_keeps {hooks claimed : Hooks Owner PopulationId} {owner : Owner}
    (granted : hooks.claim owner = .ok claimed) :
    claimed.ready = hooks.ready ∧ claimed.waiting = hooks.waiting := by
  unfold Hooks.claim at granted
  split at granted
  · split at granted
    · cases granted
      exact ⟨rfl, rfl⟩
    · cases granted
  · cases granted
    exact ⟨rfl, rfl⟩

/-- The deployment when a population has been placed on a run that has the given hooks. -/
def place (d : Deployment σ) (id : PopulationId) (run : RunId) (hooks : Hooks Owner PopulationId) :
    Deployment σ :=
  (d.modifyRun run fun r => { r with hooks }).modifyPopulation id fun p => { p with run := some run }

section

variable {id : PopulationId} {run : RunId} {p : Population} {r : Run}
  {claimed : Hooks Owner PopulationId}

/-- A population that is installed on a claimed run ends with the name of the holder as its error.
-/
theorem install_of_refused (here : d.population? id = some p) (there : d.run? run = some r)
    {holder : Owner} (refused : r.hooks.claim (.population id p.label) = .error holder) :
    d.install id run = (d.modifyPopulation id (·.refuse (.alreadyTracked holder.text))).resolve id
      (.error (.alreadyTracked holder.text)) := by
  unfold install
  rw [here, there]
  dsimp only
  rw [refused]

/-- A population that is installed on a run before it is ready waits on its hooks. -/
theorem install_of_unready (here : d.population? id = some p) (there : d.run? run = some r)
    (granted : r.hooks.claim (.population id p.label) = .ok claimed)
    (unready : claimed.ready = false) :
    d.install id run = d.place id run { claimed with waiting := claimed.waiting ++ [id] } := by
  unfold install
  rw [here, there]
  dsimp only
  rw [granted]
  simp only [Hooks.onReady, unready, Bool.false_eq_true, if_false]
  rfl

/-- A population that is installed on a ready run is called back at once. -/
theorem install_of_ready (here : d.population? id = some p) (there : d.run? run = some r)
    (granted : r.hooks.claim (.population id p.label) = .ok claimed)
    (ready : claimed.ready = true) :
    d.install id run = (d.place id run claimed).collect id run := by
  unfold install
  rw [here, there]
  dsimp only
  rw [granted]
  simp only [Hooks.onReady, ready, if_true]
  rfl

end

/-- A population that is installed on a run is refused, waits for the run, or is called back at once
by a run that is ready. -/
theorem install_cases (d : Deployment σ) (id : PopulationId) (run : RunId) :
    d.install id run = d ∨
    (∃ failure, d.install id run =
        (d.modifyPopulation id (·.refuse failure)).resolve id (.error failure)) ∨
    (∃ p r claimed, d.population? id = some p ∧ d.run? run = some r ∧
      r.hooks.claim (.population id p.label) = .ok claimed ∧
      (claimed.ready = false ∧ d.install id run =
          d.place id run { claimed with waiting := claimed.waiting ++ [id] } ∨
        claimed.ready = true ∧ d.install id run = (d.place id run claimed).collect id run)) := by
  cases here : d.population? id with
  | none =>
    refine .inl ?_
    unfold install
    rw [here]
  | some p =>
    cases there : d.run? run with
    | none =>
      refine .inl ?_
      unfold install
      rw [here, there]
    | some r =>
      cases granted : r.hooks.claim (.population id p.label) with
      | error holder => exact .inr (.inl ⟨_, install_of_refused here there granted⟩)
      | ok claimed =>
        refine .inr (.inr ⟨p, r, claimed, rfl, rfl, granted, ?_⟩)
        cases ready : claimed.ready with
        | false =>
          refine .inl ⟨rfl, ?_⟩
          rw [install_of_unready here there granted ready, ready]
        | true => exact .inr ⟨rfl, install_of_ready here there granted ready⟩

/-! ## All runs together -/

/-- A step of a population gives out no identity. -/
theorem serial_advance (d : Deployment σ) (id : PopulationId)
    (take : Population → Population × List Waiter) : (d.advance id take).serial = d.serial := by
  unfold advance
  split
  · rfl
  · dsimp only
    split
    · rfl
    · rw [serial_informAll]
      rfl

/-- Every run that is there has been there before, unless it is new, and has become what it is. -/
structure RunsGoOn (d d' : Deployment σ) : Prop where
  serial_le : d.serial ≤ d'.serial
  becomes : ∀ id r', id.serial < d.serial → d'.run? id = some r' →
    ∃ r, d.run? id = some r ∧ r.Becomes r'

/-- Runs that go on and go on further go on. -/
theorem RunsGoOn.trans (h : d.RunsGoOn d') (h' : d'.RunsGoOn d'') : d.RunsGoOn d'' where
  serial_le := Nat.le_trans h.serial_le h'.serial_le
  becomes id r'' old there := by
    obtain ⟨r', here', becomes'⟩ := h'.becomes id r'' (Nat.lt_of_lt_of_le old h.serial_le) there
    obtain ⟨r, here, becomes⟩ := h.becomes id r' old here'
    exact ⟨r, here, becomes.trans becomes'⟩

/-- Runs that are left as they are go on. -/
theorem RunsGoOn.of_runs_eq (runs_eq : d'.runs = d.runs) (serial_le : d.serial ≤ d'.serial) :
    d.RunsGoOn d' := by
  refine ⟨serial_le, fun id r' _ there => ⟨r', ?_, .refl r'⟩⟩
  unfold run? at there ⊢
  rwa [← runs_eq]

/-- If one run is changed to what it may become, all runs go on. -/
theorem runsGoOn_modifyRun {id : RunId} {f : Run → Run} (same_id : ∀ r, (f r).id = r.id)
    (becomes : ∀ r, d.run? id = some r → r.Becomes (f r)) : d.RunsGoOn (d.modifyRun id f) := by
  refine ⟨Nat.le_refl _, fun j r' _ there => ?_⟩
  obtain ⟨r, here, rfl⟩ := exists_run?_of_modifyRun same_id there
  refine ⟨r, here, ?_⟩
  by_cases same : j = id
  · rw [if_pos same]
    rw [same] at here
    exact becomes r here
  · rw [if_neg same]
    exact .refl r

/-- A callback adds a listener at most, so all runs go on. -/
theorem runsGoOn_collect (d : Deployment σ) (id : PopulationId) (run : RunId) :
    d.RunsGoOn (d.collect id run) := by
  rcases d.collect_cases id run with ⟨same, -⟩ | ⟨p, r, -, -, -, same⟩ | ⟨p, failure, -, same⟩
  · rw [same]
    exact .of_runs_eq rfl (Nat.le_refl _)
  · rw [same]
    have starting : d.RunsGoOn (d.modifyPopulation id fun p => { p with phase := .collecting }) :=
      .of_runs_eq rfl (Nat.le_refl _)
    refine starting.trans (runsGoOn_modifyRun (fun _ => rfl) fun r _ => ?_)
    exact r.becomes_addListener p.outputStep id
  · rw [same]
    exact .of_runs_eq (runs_advance d id _) (Nat.le_of_eq (d.serial_advance id _).symm)

/-- To put a population on a run changes its hooks alone, so all runs go on. -/
theorem runsGoOn_place (d : Deployment σ) (id : PopulationId) (run : RunId)
    (hooks : Hooks Owner PopulationId) : d.RunsGoOn (d.place id run hooks) := by
  have hooked : d.RunsGoOn (d.modifyRun run fun r => { r with hooks }) :=
    runsGoOn_modifyRun (fun _ => rfl) fun r _ => .of_hooks r hooks
  exact hooked.trans (.of_runs_eq rfl (Nat.le_refl _))

/-- All runs go on when a population is installed on one of them. -/
theorem runsGoOn_install (d : Deployment σ) (id : PopulationId) (run : RunId) :
    d.RunsGoOn (d.install id run) := by
  rcases d.install_cases id run with same | ⟨failure, same⟩ |
    ⟨p, r, claimed, -, -, -, ⟨-, same⟩ | ⟨-, same⟩⟩
  · rw [same]
    exact .of_runs_eq rfl (Nat.le_refl _)
  · rw [same]
    let refused := d.modifyPopulation id (·.refuse failure)
    exact .of_runs_eq (runs_advance refused id _) (Nat.le_of_eq (refused.serial_advance id _).symm)
  · rw [same]
    exact d.runsGoOn_place id run _
  · rw [same]
    exact (d.runsGoOn_place id run claimed).trans (runsGoOn_collect _ id run)

/-- All runs go on when several populations are called back. -/
theorem runsGoOn_foldl_collect (callbacks : List PopulationId) (run : RunId) (d : Deployment σ) :
    d.RunsGoOn (callbacks.foldl (·.collect · run) d) := by
  induction callbacks generalizing d with
  | nil => exact .of_runs_eq rfl (Nat.le_refl _)
  | cons id rest ih => exact (d.runsGoOn_collect id run).trans (ih (d.collect id run))

/-- All runs go on when one of them becomes ready. -/
theorem runsGoOn_ready (d : Deployment σ) (r : Run) : d.RunsGoOn (d.ready r) := by
  have fired : d.RunsGoOn (d.modifyRun r.id fun r' => { r' with hooks := r.hooks.fire.1 }) :=
    runsGoOn_modifyRun (fun _ => rfl) fun r' _ => .of_hooks r' _
  exact fired.trans (runsGoOn_foldl_collect r.hooks.fire.2 r.id _)

/-- All runs go on when another one comes up, since that has a new identity. -/
theorem runsGoOn_addRun (d : Deployment σ) (name : String) (outputs : Table String StepOutput)
    (injectors : List String) (polls : Nat) (offers : List Offer) :
    d.RunsGoOn (d.addRun name outputs injectors polls offers).1 := by
  refine ⟨Nat.le_succ _, fun j r' old there => ⟨r', ?_, .refl r'⟩⟩
  rw [run?_addRun] at there
  split at there
  · rw [if_neg (Nat.ne_of_lt old)] at there
    cases there
  · exact there

/-- All runs that are left go on when one is dropped. -/
theorem runsGoOn_dropRun (d : Deployment σ) (name : String) : d.RunsGoOn (d.dropRun name) := by
  refine ⟨Nat.le_refl _, fun j r' _ there => ⟨r', ?_, .refl r'⟩⟩
  rw [run?_dropRun] at there
  split at there
  · cases there
  · exact there

/-- The answer to whether a run is running is that of the run, and no for one that is gone. -/
theorem snd_ask (d : Deployment σ) (id : RunId) :
    (d.ask id).2 = (d.run? id).any (·.ask.2) := by
  unfold ask
  cases d.run? id <;> rfl

/-- A run that is not found running is not found running later. -/
theorem RunsGoOn.ask_eq_false (h : d.RunsGoOn d') {id : RunId} (old : id.serial < d.serial)
    (stopped : (d.ask id).2 = false) : (d'.ask id).2 = false := by
  rw [snd_ask] at stopped ⊢
  cases there : d'.run? id with
  | none => rfl
  | some r' =>
    obtain ⟨r, here, becomes⟩ := h.becomes id r' old there
    rw [here, Option.any_some] at stopped
    exact becomes.ask_eq_false stopped

end Deployment

end DataService
