import DataService.Proofs.Deployment.Placement
import DataService.Proofs.Population.Captured
import DataService.Proofs.Store.Keyed

/-!
# What is captured of a run

A population that is installed on a run listens to its output step once the run is ready, and it
listens once: its run hands it every row of the step and every end of the step a single time
(`Hears`). From then on it captures what `Population.captured` says: rows up to the first call that
decides, and then the outcome that this call calls for, whatever is told later
(`captures_until_decided`).
-/

set_option autoImplicit false

namespace DataService

/-- The operation by which a run makes a call to those who listen to a step. -/
def ListenerCall.operation {σ : Type} (run step : String) : ListenerCall → Operation σ
  | .row cells => .engine (.emit run step cells)
  | .finished errors stoppedEarly => .engine (.finish run step errors stoppedEarly)

namespace Deployment

variable {σ : Type} {d d' : Deployment σ} {id : PopulationId} {p : Population} {run : RunId}
  {step : String} {fields : List String} {times : Nat}

/-- The output of a step of a run. -/
def output? (d : Deployment σ) (run : RunId) (step : String) : Option StepOutput :=
  (d.run? run).bind (·.outputs.get? step)

/-- The population is told so many times of each thing that happens at a step of a run. -/
structure Hears (d : Deployment σ) (id : PopulationId) (p : Population) (run : RunId)
    (step : String) (fields : List String) (times : Nat) : Prop where
  here : d.population? id = some p
  listens : ∃ output, d.output? run step = some output ∧ output.fields = fields ∧
    output.listeners.count id = times

/-! ## Starting to listen -/

/-- The output of a step depends on the runs only. -/
theorem output?_congr (same : d'.runs = d.runs) (run : RunId) (step : String) :
    d'.output? run step = d.output? run step := by
  unfold output? run?
  rw [same]

/-- A run that has an output of a step is there, and has the step. -/
theorem exists_run_of_output? {output : StepOutput} (at_step : d.output? run step = some output) :
    ∃ r, d.run? run = some r ∧ r.outputs.contains step = true := by
  obtain ⟨r, there, found⟩ := Option.bind_eq_some_iff.1 at_step
  refine ⟨r, there, ?_⟩
  unfold Table.contains
  rw [found]
  rfl

/-- A listener that is added is the last one on its own step, and on no other. -/
theorem output?_addListener (d : Deployment σ) (run : RunId) (name : String) (id : PopulationId)
    (j : RunId) (step : String) :
    (d.modifyRun run fun r => r.addListener name id).output? j step =
      if j = run ∧ step = name then
        (d.output? j step).map fun o => { o with listeners := o.listeners ++ [id] }
      else d.output? j step := by
  have at_run : (d.modifyRun run fun r => r.addListener name id).run? j =
      if j = run then (d.run? j).map fun r => r.addListener name id else d.run? j := by
    have same_id (r : Run) : (r.addListener name id).id = r.id := rfl
    exact run?_modifyRun same_id j
  unfold output?
  rw [at_run]
  by_cases same_run : j = run
  · rw [if_pos same_run]
    cases d.run? j with
    | none => simp
    | some r =>
      rw [Option.map_some, Option.bind_some, Option.bind_some, Run.get?_addListener]
      simp only [same_run, true_and]
  · rw [if_neg same_run, if_neg fun h => same_run h.1]

/-- Another population that is called back changes nothing for this one. -/
theorem Hears.collect_other (h : d.Hears id p run step fields times) {j : PopulationId}
    (other : j ≠ id) (run' : RunId) : (d.collect j run').Hears id p run step fields times := by
  obtain ⟨here, output, at_step, fields_eq, count_eq⟩ := h
  refine ⟨(d.population?_collect_of_ne other run').trans here, ?_⟩
  rcases d.collect_cases j run' with ⟨same, -⟩ | ⟨q, r, -, -, -, same⟩ | ⟨q, failure, -, same⟩
  · rw [same]
    exact ⟨output, at_step, fields_eq, count_eq⟩
  · have before : (d.modifyPopulation j fun p => { p with phase := .collecting }).output? run step =
        some output := at_step
    rw [same, output?_addListener, before]
    split
    · refine ⟨_, rfl, fields_eq, ?_⟩
      rw [List.count_append, List.count_singleton, count_eq]
      simp [other]
    · exact ⟨output, rfl, fields_eq, count_eq⟩
  · rw [same]
    exact ⟨output, (output?_congr (runs_advance d j _) run step).trans at_step, fields_eq, count_eq⟩

/-- A population that is called back by a run with its output step, for the first time, listens to it
and collects. -/
theorem Hears.collect_own (h : d.Hears id p run p.outputStep fields 0)
    (created : p.phase = .created) :
    (d.collect id run).Hears id { p with phase := .collecting } run p.outputStep fields 1 := by
  obtain ⟨here, output, at_step, fields_eq, count_eq⟩ := h
  obtain ⟨r, there, found⟩ := exists_run_of_output? at_step
  have before : (d.modifyPopulation id fun p => { p with phase := .collecting }).output? run
      p.outputStep = some output := at_step
  rw [collect_of_created here there found created]
  refine ⟨population?_modifyPopulation_self here _, ?_⟩
  rw [output?_addListener, before, if_pos ⟨rfl, rfl⟩]
  refine ⟨_, rfl, fields_eq, ?_⟩
  rw [List.count_append, count_eq, List.count_singleton_self]

/-- A population that has started does not listen a second time. -/
theorem Hears.collect_again (h : d.Hears id p run p.outputStep fields times)
    (started : p.phase ≠ .created) :
    (d.collect id run).Hears id p run p.outputStep fields times := by
  obtain ⟨output, at_step, -⟩ := h.listens
  obtain ⟨r, there, found⟩ := exists_run_of_output? at_step
  rw [collect_of_started h.here there found started]
  exact h

/-- A population that has started is not put on its output again, however often it is called back.
-/
theorem Hears.foldl_collect_again (h : d.Hears id p run p.outputStep fields times)
    (started : p.phase ≠ .created) (callbacks : List PopulationId) :
    (callbacks.foldl (·.collect · run) d).Hears id p run p.outputStep fields times := by
  induction callbacks generalizing d with
  | nil => exact h
  | cons j rest ih =>
    by_cases own : j = id
    · rw [own]
      exact ih (h.collect_again started)
    · exact ih (h.collect_other own run)

/-- However often a population is called back, it listens once. -/
theorem Hears.foldl_collect (h : d.Hears id p run p.outputStep fields 0)
    (created : p.phase = .created) {callbacks : List PopulationId} (member : id ∈ callbacks) :
    (callbacks.foldl (·.collect · run) d).Hears id { p with phase := .collecting } run p.outputStep
      fields 1 := by
  induction callbacks generalizing d with
  | nil => cases member
  | cons j rest ih =>
    by_cases own : j = id
    · rw [own]
      have started : Phase.collecting ≠ .created := by decide
      exact (h.collect_own created).foldl_collect_again started rest
    · rcases List.mem_cons.1 member with now | later
      · exact absurd now.symm own
      · exact ih (h.collect_other own run) later

/-! ## Being told -/

/-- What the engine does is to make a call to each listener of a step. -/
theorem apply_operation [ResultStore σ] {output : StepOutput}
    (at_step : d.output? run step = some output) (call : ListenerCall) :
    d.apply (call.operation run.name step) =
      output.listeners.foldl (·.handle · (call.event ⟨step, output.fields⟩)) d := by
  obtain ⟨r, there, at_step'⟩ := Option.bind_eq_some_iff.1 at_step
  have found : d.outputOf run.name step = .ok (r, output) := by
    unfold outputOf
    rw [(run?_eq_some_iff.1 there).1]
    dsimp only
    rw [at_step']
  cases call with
  | row cells =>
    have row_eq : handRow ⟨step, output.fields⟩ cells = fun (d : Deployment σ) id =>
        d.handle id ((ListenerCall.row cells).event ⟨step, output.fields⟩) := by
      unfold handRow ListenerCall.event
      dsimp only
      cases Row.capture ⟨step, output.fields⟩ cells with
      | ok row => rfl
      | error fault => rfl
    show d.engine _ = _
    unfold engine
    simp only [perform, found, bind, Except.bind, pure, Except.pure]
    rw [row_eq]
  | finished errors stoppedEarly =>
    show d.engine _ = _
    unfold engine
    simp only [perform, found, bind, Except.bind, pure, Except.pure]
    rfl

/-- What happens at an output leaves those alone who do not listen on it. -/
theorem population?_foldl_handle_of_notMem {ids : List PopulationId} (out : id ∉ ids)
    (event : PopulationEvent) (d : Deployment σ) :
    (ids.foldl (·.handle · event) d).population? id = d.population? id := by
  induction ids generalizing d with
  | nil => rfl
  | cons j rest ih =>
    obtain ⟨other, out⟩ := not_or.1 (mt List.mem_cons.2 out)
    rw [List.foldl_cons, ih out, d.population?_handle_of_ne (Ne.symm other)]

/-- An event that comes to several populations comes once to one that is named once. -/
theorem population?_foldl_handle {ids : List PopulationId} (once : ids.count id = 1)
    (event : PopulationEvent) (d : Deployment σ) (here : d.population? id = some p) :
    (ids.foldl (·.handle · event) d).population? id = some (p.handle event).1 := by
  induction ids generalizing d with
  | nil => cases once
  | cons j rest ih =>
    rw [List.foldl_cons]
    by_cases own : j = id
    · rw [own, List.count_cons_self] at once
      have out : id ∉ rest := List.count_eq_zero.1 (Nat.succ.inj once)
      rw [population?_foldl_handle_of_notMem out, own]
      unfold handle
      rw [population?_advance, if_pos rfl, here]
      rfl
    · rw [List.count_cons_of_ne own] at once
      exact ih once _ ((d.population?_handle_of_ne own event).trans here)

/-! ## From the start on -/

/-- A population that has not started does not listen. -/
theorem Placed.hears (placed : d.Placed []) (here : d.population? id = some p)
    (created : p.phase = .created) {output : StepOutput} (at_step : d.output? run step = some output) :
    d.Hears id p run step output.fields 0 := by
  refine ⟨here, output, at_step, rfl, List.count_eq_zero.2 fun listening => ?_⟩
  obtain ⟨r, there, at_step'⟩ := Option.bind_eq_some_iff.1 at_step
  obtain ⟨q, here', started⟩ := placed.listens run r step output there at_step' id listening
  obtain rfl : p = q := Option.some.inj (here.symm.trans here')
  exact started created

/-- A change of hooks changes nothing at the outputs. -/
theorem output?_hooks (d : Deployment σ) (run : RunId) (hooks : Hooks Owner PopulationId) (j : RunId)
    (step : String) :
    (d.modifyRun run fun r => { r with hooks }).output? j step = d.output? j step := by
  have same_id (r : Run) : ({ r with hooks } : Run).id = r.id := rfl
  unfold output?
  rw [run?_modifyRun same_id]
  split
  · cases d.run? j with
    | none => rfl
    | some r => rfl
  · rfl

/-- A population that was installed on a run listens when the run becomes ready. -/
theorem Placed.hears_start (placed : d.Placed []) {r : Run} {output : StepOutput}
    (here : d.population? id = some p) (created : p.phase = .created) (there : d.run? run = some r)
    (unready : r.hooks.ready = false) (installed : p.run = some run ∨ id ∈ r.hooks.waiting)
    (at_step : d.output? run p.outputStep = some output) :
    (d.engine (.start run.name)).Hears id { p with phase := .collecting } run p.outputStep
      output.fields 1 := by
  obtain ⟨found, id_eq⟩ := run?_eq_some_iff.1 there
  have started : d.engine (.start run.name) = d.ready r := by
    unfold engine
    simp only [perform, found]
  -- nothing is due between operations, so the population waits for the run
  have waits : id ∈ r.hooks.waiting := by
    rcases installed with on_run | waiting
    · rcases placed.waits id p run r here created on_run there with ⟨-, waiting⟩ | called
      · exact waiting
      · cases called
    · exact waiting
  have called : id ∈ r.hooks.fire.2 := by
    rw [Hooks.fire, unready]
    exact waits
  obtain ⟨-, listens⟩ := placed.hears here created at_step
  have hears : (d.modifyRun run fun old => { old with hooks := r.hooks.fire.1 }).Hears id p run
      p.outputStep output.fields 0 := by
    refine ⟨here, ?_⟩
    rw [output?_hooks]
    exact listens
  rw [started]
  unfold Deployment.ready
  rw [id_eq]
  exact hears.foldl_collect created called

/-- A population that is installed on a run that is ready listens at once. -/
theorem Placed.hears_install (placed : d.Placed []) {r : Run} {output : StepOutput}
    (here : d.population? id = some p) (created : p.phase = .created) (there : d.run? run = some r)
    (ready : r.hooks.ready = true) {claimed : Hooks Owner PopulationId}
    (granted : r.hooks.claim (.population id p.label) = .ok claimed)
    (at_step : d.output? run p.outputStep = some output) :
    (d.install id run).Hears id { p with phase := .collecting, run := some run } run p.outputStep
      output.fields 1 := by
  obtain ⟨-, listens⟩ := placed.hears here created at_step
  have ready_now : claimed.ready = true := (claim_keeps granted).1.trans ready
  have placed_here : (d.place id run claimed).population? id = some { p with run := some run } :=
    population?_modifyPopulation_self here _
  have same_output : (d.place id run claimed).output? run p.outputStep =
      d.output? run p.outputStep := d.output?_hooks run claimed run p.outputStep
  have hears : (d.place id run claimed).Hears id { p with run := some run } run p.outputStep
      output.fields 0 := by
    refine ⟨placed_here, ?_⟩
    rw [same_output]
    exact listens
  rw [install_of_ready here there granted ready_now]
  exact hears.collect_own created

/-- A population that may not be installed on a run notes why. -/
theorem refusal_install {r : Run} (here : d.population? id = some p) (there : d.run? run = some r)
    (unrefused : p.refusal = none) {holder : Owner}
    (refused : r.hooks.claim (.population id p.label) = .error holder) :
    ((d.install id run).population? id).bind (·.refusal) =
      some (.alreadyTracked holder.text) := by
  have noted : (d.modifyPopulation id (·.refuse (.alreadyTracked holder.text))).population? id =
      some (p.refuse (.alreadyTracked holder.text)) := population?_modifyPopulation_self here _
  rw [install_of_refused here there refused]
  unfold resolve
  rw [population?_advance, if_pos rfl, noted, Option.map_some, Option.bind_some,
    Population.refusal_resolve]
  unfold Population.refuse
  rw [unrefused]
  rfl

/-- A service learns whether a population that it starts was refused, and why. -/
theorem snd_startPopulation (d : Deployment σ) (s : Service) (q : Query) (key : CacheKey)
    (run : RunId) (label : String) (displaced : Option PopulationId) :
    (d.startPopulation s q key run label displaced).2 =
      ((((d.entered s q key label).install ⟨d.serial⟩ run).population? ⟨d.serial⟩).bind
        (·.refusal)).elim (.ok (.started ⟨d.serial⟩)) .error := by
  unfold startPopulation entered
  dsimp only [addPopulation]
  split
  · rename_i refused
    rw [refused, Option.elim_some]
  · rename_i unrefused
    rw [unrefused, Option.elim_none]

/-- A waiter that comes does not keep a population from being told. -/
theorem Hears.onResolved (h : d.Hears id p run step fields times) (unresolved : p.outcome = none)
    (waiter : Waiter) :
    (d.onResolved id waiter).Hears id { p with waiters := p.waiters ++ [waiter] } run step fields
      times := by
  obtain ⟨here, output, at_step, told⟩ := h
  refine ⟨?_, output, ?_, told⟩
  · unfold Deployment.onResolved
    rw [population?_advance, if_pos rfl, here, Option.map_some]
    unfold Population.onResolved
    rw [unresolved]
  · rw [output?_congr (d.rests_onResolved id waiter).runs_eq]
    exact at_step

/-- A population that a service starts on a run that is ready listens at once. -/
theorem Placed.hears_populate (placed : d.Placed []) (kept : d.WellKept) {s : Service} {q : Query}
    {label : String} (started : (d.populate s q run label).2 = .ok (.started id)) {r : Run}
    (there : d.run? run = some r) (ready : r.hooks.ready = true) {output : StepOutput}
    (at_step : d.output? run s.definition.outputStep = some output) :
    ∃ p, (d.populate s q run label).1.Hears id p run s.definition.outputStep output.fields 1 ∧
      p.phase = .collecting ∧ p.outcome = none ∧ p.rows = [] ∧ p.query = q := by
  rcases d.populate_cases s q run label with ⟨d₁, answer, same, -, other⟩ | ⟨key, -, start⟩
  · rw [same] at started
    exact absurd started (other id)
  let fresh : Population := { label, key, query := q, outputStep := s.definition.outputStep }
  have new : fresh.IsNew := ⟨rfl, fun _ => ⟨rfl, rfl⟩⟩
  have rests : d.Rests (d.entered s q key label) :=
    (rests_addPopulation kept new).trans (.of_eq rfl rfl (Nat.le_refl _))
  have here : (d.entered s q key label).population? ⟨d.serial⟩ = some fresh :=
    Table.get?_put_self _ _ _
  have there' : (d.entered s q key label).run? run = some r := there
  rw [start] at started ⊢
  -- a claim that is refused is one that the service learns of
  cases granted : r.hooks.claim (.population ⟨d.serial⟩ fresh.label) with
  | error holder =>
    rw [snd_startPopulation, refusal_install here there' rfl granted, Option.elim_some] at started
    cases started
  | ok claimed =>
    have hears := (rests.placed placed).hears_install here rfl there' ready granted at_step
    rcases d.startPopulation_cases s q key run label (d.flight? s.board key) with
      ⟨failure, failed⟩ | begun
    · rw [failed] at started
      cases started
    · rw [begun] at started ⊢
      cases started
      have reported : (((d.entered s q key label).install ⟨d.serial⟩ run).reportFlights s).Hears
          ⟨d.serial⟩ _ run fresh.outputStep output.fields 1 := ⟨hears.here, hears.listens⟩
      exact ⟨_, reported.onResolved rfl _, rfl, rfl, rfl, rfl⟩

variable [ResultStore σ]

/-- The calls of a step that a population listens to do to it what it makes of them, one after the
other. -/
theorem Hears.after_calls (h : d.Hears id p run step fields 1) (calls : List ListenerCall) :
    (d.after (calls.map (·.operation run.name step))).population? id =
      some (calls.foldl (fun p call => (p.handle (call.event ⟨step, fields⟩)).1) p) := by
  induction calls generalizing d p with
  | nil => exact h.here
  | cons call rest ih =>
    obtain ⟨here, output, at_step, fields_eq, once⟩ := h
    have told := apply_operation at_step call
    rw [List.map_cons, after_cons, List.foldl_cons]
    refine ih ⟨?_, output, ?_, fields_eq, once⟩
    · rw [told, fields_eq]
      exact population?_foldl_handle once _ d here
    · have rests : d.Rests (output.listeners.foldl
          (·.handle · (call.event ⟨step, output.fields⟩)) d) :=
        .foldl (fun d id => d.rests_handle id _) _ d
      rw [told, output?_congr rests.runs_eq]
      exact at_step

/-! ## What is captured -/

/-- An operation by which a population for a query comes to listen to a step of a run: the run on
which it was installed becomes ready, or it is installed on a run that is ready, by itself or by a
service that starts it. -/
inductive Attaches (d : Deployment σ) (id : PopulationId) (run : RunId) :
    Query → String → Operation σ → Prop
  | started {p : Population} {r : Run} (here : d.population? id = some p)
    (created : p.phase = .created) (there : d.run? run = some r) (unready : r.hooks.ready = false)
    (installed : p.run = some run ∨ id ∈ r.hooks.waiting) :
    Attaches d id run p.query p.outputStep (.engine (.start run.name))
  | installed {p : Population} {r : Run} {claimed : Hooks Owner PopulationId}
    (here : d.population? id = some p) (created : p.phase = .created) (there : d.run? run = some r)
    (ready : r.hooks.ready = true) (granted : r.hooks.claim (.population id p.label) = .ok claimed) :
    Attaches d id run p.query p.outputStep (.install id run)
  | populated {s : Service} {q : Query} {label : String} {r : Run}
    (there : d.run? run = some r) (ready : r.hooks.ready = true)
    (started : (d.populate s q run label).2 = .ok (.started id)) :
    Attaches d id run q s.definition.outputStep (.populate s q run label)

/-- A population that comes to listen has captured nothing yet. -/
theorem Placed.hears_attached (placed : d.Placed []) (kept : d.WellKept) {q : Query}
    {op : Operation σ} (attaches : d.Attaches id run q step op) {output : StepOutput}
    (at_step : d.output? run step = some output) :
    ∃ p, (d.apply op).Hears id p run step output.fields 1 ∧ p.phase = .collecting ∧
      p.outcome = none ∧ p.rows = [] ∧ p.query = q := by
  cases attaches with
  | started here created there unready installed =>
    obtain ⟨outcome_eq, rows_eq⟩ := placed.blank id _ here created
    exact ⟨_, placed.hears_start here created there unready installed at_step, rfl, outcome_eq,
      rows_eq, rfl⟩
  | installed here created there ready granted =>
    obtain ⟨outcome_eq, rows_eq⟩ := placed.blank id _ here created
    exact ⟨_, placed.hears_install here created there ready granted at_step, rfl, outcome_eq,
      rows_eq, rfl⟩
  | populated there ready started => exact placed.hears_populate kept started there ready at_step

/-- **A run is captured exactly.** Let a population come to listen to a step of a run. As long as no
call decides, it collects, and its rows are those that left the step, in their order. The first call
that decides gives it the outcome that this call says, about the rows that left the step before it;
and no later call changes anything. -/
theorem captures_until_decided (ops : List (Operation σ)) {op : Operation σ} {q : Query}
    {output : StepOutput}
    (attaches : (({} : Deployment σ).after ops).Attaches id run q step op)
    (at_step : (({} : Deployment σ).after ops).output? run step = some output) :
    let layout : Layout := ⟨step, output.fields⟩
    let told (calls : List ListenerCall) : Option Population :=
      (({} : Deployment σ).after (ops ++ op :: calls.map (·.operation run.name step))).population? id
    (∀ calls, (∀ call ∈ calls, call.decides layout = false) →
      ∃ p, told calls = some p ∧ p.phase = .collecting ∧ p.outcome = none ∧
        p.rows = calls.filterMap ListenerCall.row?) ∧
    (∀ before call, (∀ call ∈ before, call.decides layout = false) →
      call.decides layout = true →
      let verdict := call.verdict q layout (before.filterMap ListenerCall.row?)
      (∃ p, (∀ later, told (before ++ call :: later) = some p) ∧ p.outcome = some verdict ∧
        p.phase = verdict.phase ∧ p.rows = before.filterMap ListenerCall.row?) ∧
      ∀ errors stoppedEarly, call = .finished errors stoppedEarly → errors ≠ [] →
        ∃ failure, verdict = .error failure ∧
          failure.message = "population failed: " ++ String.intercalate "; " errors) := by
  intro layout told
  have kept := Deployment.wellKept_after Deployment.wellKept_empty ops
  obtain ⟨p, hears, collecting, unresolved, no_rows, query_eq⟩ :=
    (placed_after ops).hears_attached kept attaches at_step
  have consistent := ((Deployment.apply_changes _ op).wellKept kept).consistent id p hears.here
  have listening : p.Listening := by
    refine ⟨collecting, ?_, unresolved⟩
    rw [consistent.closed_eq, unresolved]
    rfl
  have told_eq (calls : List ListenerCall) : told calls = some (p.captured layout calls) := by
    rw [← Population.foldl_handle_eq_captured listening calls, ← hears.after_calls calls]
    show (({} : Deployment σ).after (ops ++ op :: _)).population? id = _
    rw [after_append, after_cons]
  refine ⟨?_, ?_⟩
  · intro calls undecided
    refine ⟨_, told_eq calls, ?_⟩
    rw [Population.captured_of_undecided p undecided, no_rows]
    exact ⟨collecting, unresolved, List.nil_append _⟩
  · intro before call undecided decides verdict
    refine ⟨⟨Population.ended { p with rows := before.filterMap ListenerCall.row? } verdict,
      fun later => ?_, rfl, rfl, rfl⟩, ?_⟩
    · rw [told_eq, Population.captured_append_cons p undecided decides, no_rows, query_eq,
        List.nil_append]
    · rintro errors stoppedEarly rfl reported
      have verdict_eq : verdict = .error (.populationFailed errors) := if_pos reported
      exact ⟨_, verdict_eq, rfl⟩

/-- A population is installed on a run that is not ready yet. -/
def installedOnRun : List (Operation KeyedMap) :=
  [.addRun "run" [("out", ["n"])] [] 0 [],
    .addPopulation "population" { pipelineVersion := 7 } { fingerprint := some 7 } "out",
    .install ⟨1⟩ ⟨"run", 0⟩]

/-- A row that does not fit ends the capture, and the end of the step comes too late. -/
theorem captures_until_misfit :
    let calls : List ListenerCall :=
      [.row [.integer 1], .row [.integer 2, .integer 3], .finished [] false]
    ∃ p, (({} : Deployment KeyedMap).after (installedOnRun ++ .engine (.start "run") ::
        calls.map (·.operation "run" "out"))).population? ⟨1⟩ = some p ∧
      p.outcome = some (.error (.rowConversion "out" (.arity 1 2))) ∧ p.phase = .failed ∧
      p.rows.length = 1 := by
  intro calls
  let installed : Population :=
    { label := "population", key := { pipelineVersion := 7 }, query := { fingerprint := some 7 }
      outputStep := "out", run := some ⟨"run", 0⟩ }
  have here : (({} : Deployment KeyedMap).after installedOnRun).population? ⟨1⟩ = some installed :=
    rfl
  have attaches : (({} : Deployment KeyedMap).after installedOnRun).Attaches ⟨1⟩ ⟨"run", 0⟩
      installed.query installed.outputStep (.engine (.start "run")) :=
    .started here rfl rfl rfl (.inl rfl)
  have fits : ∀ call ∈ [ListenerCall.row [.integer 1]], call.decides ⟨"out", ["n"]⟩ = false := by
    intro call member
    rw [List.mem_singleton.1 member]
    rfl
  obtain ⟨-, decided⟩ := captures_until_decided installedOnRun attaches rfl
  obtain ⟨⟨p, told, outcome_eq, phase_eq, rows_eq⟩, -⟩ :=
    decided [.row [.integer 1]] (.row [.integer 2, .integer 3]) fits rfl
  refine ⟨p, told [.finished [] false], outcome_eq, phase_eq, ?_⟩
  rw [rows_eq]
  rfl

end Deployment

end DataService
