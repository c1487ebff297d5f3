import DataService.Proofs.Deployment.Stirring

/-!
# How populations are placed on runs

What ties populations to runs are the callbacks that wait for a run to become ready and the
listeners of its outputs. A population that is placed on a run and has not started waits for that
run, which is not ready; and a population listens to no run before it has started. This is so in
every course of operations (`placed_after`).

In the middle of an operation it may be otherwise: a run has become ready, and its callbacks have
not run yet. `Placed` names the populations that are due to be called back; each of them is due no
longer when it has been (`Placed.collect`).
-/

set_option autoImplicit false

namespace DataService

/-- What a table made of pairs has under a key is one of the pairs. -/
theorem Table.mem_of_get?_ofList {κ ν : Type} [BEq κ] [LawfulBEq κ] {pairs : List (κ × ν)} {k : κ}
    {v : ν} (found : (Table.ofList pairs).get? k = some v) : (k, v) ∈ pairs := by
  have later (pairs : List (κ × ν)) (t : Table κ ν)
      (found : (pairs.foldl (fun t p => t.put p.1 p.2) t).get? k = some v) :
      (k, v) ∈ pairs ∨ t.get? k = some v := by
    induction pairs generalizing t with
    | nil => exact .inr found
    | cons pair rest ih =>
      rcases ih (t.put pair.1 pair.2) found with member | before
      · exact .inl (List.mem_cons_of_mem pair member)
      · rw [Table.get?_put] at before
        split at before
        · rename_i same
          cases before
          rw [eq_of_beq same]
          exact .inl List.mem_cons_self
        · exact .inr before
  rcases later pairs .empty found with member | before
  · exact member
  · cases before

namespace Deployment

variable {σ : Type} {d d' : Deployment σ}

/-! ## How populations are tied to runs -/

/-- Populations that have not started wait for their run, and do not listen. Those that are `due`
are about to be called back by a run that is ready. -/
structure Placed (d : Deployment σ) (due : List (PopulationId × RunId)) : Prop where
  named : ∀ name r, d.runs.get? name = some r → r.id.name = name
  fresh : ∀ name r, d.runs.get? name = some r → r.id.serial < d.serial
  known : ∀ id p run, d.population? id = some p → p.run = some run → run.serial < d.serial
  blank : ∀ id p, d.population? id = some p → p.phase = .created → p.outcome = none ∧ p.rows = []
  waits : ∀ id p run r, d.population? id = some p → p.phase = .created → p.run = some run →
    d.run? run = some r → (r.hooks.ready = false ∧ id ∈ r.hooks.waiting) ∨ (id, run) ∈ due
  listens : ∀ run r step output, d.run? run = some r → r.outputs.get? step = some output →
    ∀ id ∈ output.listeners, ∃ p, d.population? id = some p ∧ p.phase ≠ .created

variable {due due' : List (PopulationId × RunId)}

theorem placed_empty : ({} : Deployment σ).Placed [] := by
  have no_run (run : RunId) : ({} : Deployment σ).run? run = none := rfl
  refine ⟨by simp, by simp, by simp [population?], by simp [population?], by simp [population?], ?_⟩
  intro run r step output there
  rw [no_run] at there
  cases there

/-- A run that is there under a name is found by its own id. -/
theorem Placed.run?_of_get? (placed : d.Placed due) {name : String} {r : Run}
    (there : d.runs.get? name = some r) : d.run? r.id = some r := by
  rw [run?_eq_some_iff, placed.named name r there]
  exact ⟨there, rfl⟩

/-- More populations may be said to be due. -/
theorem Placed.mono (placed : d.Placed due) (more : ∀ pair ∈ due, pair ∈ due') :
    d.Placed due' where
  named := placed.named
  fresh := placed.fresh
  known := placed.known
  blank := placed.blank
  waits id p run r here created on_run there := by
    rcases placed.waits id p run r here created on_run there with waiting | called
    · exact .inl waiting
    · exact .inr (more _ called)
  listens := placed.listens

/-- Populations stay placed while deployments rest. -/
theorem Rests.placed (h : d.Rests d') (placed : d.Placed due) : d'.Placed due := by
  have run?_eq (run : RunId) : d'.run? run = d.run? run := by
    unfold run?
    rw [h.runs_eq]
  -- a population is one that was there before or a new one, which is on no run
  have origin {id : PopulationId} {p' : Population} (there : d'.population? id = some p') :
      (∃ p, d.population? id = some p ∧ p.Stays p') ∨ p'.IsNew := by
    rcases h.comes id p' there with ⟨p, here⟩ | new
    · obtain ⟨q, at_id, stays⟩ := h.stays id p here
      obtain rfl : q = p' := Option.some.inj (at_id.symm.trans there)
      exact .inl ⟨p, here, stays⟩
    · exact .inr new
  refine ⟨?_, ?_, ?_, ?_, ?_, ?_⟩
  · rw [h.runs_eq]
    exact placed.named
  · intro name r there
    rw [h.runs_eq] at there
    exact Nat.lt_of_lt_of_le (placed.fresh name r there) h.serial_le
  · intro id p' run there on_run
    rcases origin there with ⟨p, here, stays⟩ | new
    · rw [stays.run_eq] at on_run
      exact Nat.lt_of_lt_of_le (placed.known id p run here on_run) h.serial_le
    · rw [new.run_eq] at on_run
      cases on_run
  · intro id p' there created
    rcases origin there with ⟨p, here, stays⟩ | new
    · obtain ⟨created, outcome_eq, rows_eq⟩ := stays.unstarted created
      rw [outcome_eq, rows_eq]
      exact placed.blank id p here created
    · exact new.unstarted created
  · intro id p' run r there created on_run at_run
    rw [run?_eq] at at_run
    rcases origin there with ⟨p, here, stays⟩ | new
    · rw [stays.run_eq] at on_run
      exact placed.waits id p run r here (stays.unstarted created).1 on_run at_run
    · rw [new.run_eq] at on_run
      cases on_run
  · intro run r step output at_run at_step id listening
    rw [run?_eq] at at_run
    obtain ⟨p, here, started⟩ := placed.listens run r step output at_run at_step id listening
    obtain ⟨p', there, stays⟩ := h.stays id p here
    exact ⟨p', there, fun created => started (stays.unstarted created).1⟩

/-- A run changes while populations stay as they are. -/
theorem Placed.modifyRun (placed : d.Placed due) {run : RunId} {f : Run → Run}
    (same_id : ∀ r, (f r).id = r.id)
    (waits : ∀ r id p, d.run? run = some r → d.population? id = some p → p.phase = .created →
      p.run = some run → ((f r).hooks.ready = false ∧ id ∈ (f r).hooks.waiting) ∨ (id, run) ∈ due')
    (stays_due : ∀ pair ∈ due, pair.2 = run ∨ pair ∈ due')
    (listens : ∀ r step output', d.run? run = some r → (f r).outputs.get? step = some output' →
      ∀ id ∈ output'.listeners, (∃ p, d.population? id = some p ∧ p.phase ≠ .created)) :
    (d.modifyRun run f).Placed due' := by
  have at_name (name : String) : (d.modifyRun run f).runs.get? name =
      if name = run.name then
        (d.runs.get? name).map fun r => if r.id = run then f r else r
      else d.runs.get? name := by
    unfold Deployment.modifyRun
    rw [Table.get?_modify]
    simp only [beq_iff_eq]
  have id_at_name {name : String} {r' : Run}
      (there : (d.modifyRun run f).runs.get? name = some r') :
      ∃ r, d.runs.get? name = some r ∧ r'.id = r.id := by
    rw [at_name] at there
    split at there
    · obtain ⟨r, here, rfl⟩ := Option.map_eq_some_iff.1 there
      refine ⟨r, here, ?_⟩
      split
      · exact same_id r
      · rfl
    · exact ⟨r', there, rfl⟩
  refine ⟨?_, ?_, placed.known, placed.blank, ?_, ?_⟩
  · intro name r' there
    obtain ⟨r, here, id_eq⟩ := id_at_name there
    rw [id_eq]
    exact placed.named name r here
  · intro name r' there
    obtain ⟨r, here, id_eq⟩ := id_at_name there
    rw [id_eq]
    exact placed.fresh name r here
  · intro id p j r' here created on_run there
    obtain ⟨r, at_j, r'_eq⟩ := exists_run?_of_modifyRun same_id there
    by_cases same : j = run
    · rw [if_pos same] at r'_eq
      rw [r'_eq, same]
      rw [same] at at_j on_run
      exact waits r id p at_j here created on_run
    · rw [if_neg same] at r'_eq
      rw [r'_eq]
      rcases placed.waits id p j r here created on_run at_j with waiting | called
      · exact .inl waiting
      · rcases stays_due _ called with own | later
        · exact absurd own same
        · exact .inr later
  · intro j r' step output' there at_step id listening
    obtain ⟨r, at_j, r'_eq⟩ := exists_run?_of_modifyRun same_id there
    by_cases same : j = run
    · rw [if_pos same] at r'_eq
      rw [r'_eq] at at_step
      rw [same] at at_j
      exact listens r step output' at_j at_step id listening
    · rw [if_neg same] at r'_eq
      rw [r'_eq] at at_step
      exact placed.listens j r step output' at_j at_step id listening

/-- A population changes while runs stay as they are. -/
theorem Placed.modifyPopulation (placed : d.Placed due) {id : PopulationId}
    {f : Population → Population}
    (known : ∀ p run, d.population? id = some p → (f p).run = some run → run.serial < d.serial)
    (blank : ∀ p, d.population? id = some p → (f p).phase = .created →
      (f p).outcome = none ∧ (f p).rows = [])
    (waits : ∀ p run r, d.population? id = some p → (f p).phase = .created → (f p).run = some run →
      d.run? run = some r → (r.hooks.ready = false ∧ id ∈ r.hooks.waiting) ∨ (id, run) ∈ due')
    (stays_due : ∀ pair ∈ due, pair.1 = id ∨ pair ∈ due')
    (started : ∀ p, d.population? id = some p → p.phase ≠ .created → (f p).phase ≠ .created) :
    (d.modifyPopulation id f).Placed due' := by
  have there (j : PopulationId) := d.population?_modifyPopulation id f j
  refine ⟨placed.named, placed.fresh, ?_, ?_, ?_, ?_⟩
  · intro j q run at_j on_run
    rw [there] at at_j
    split at at_j
    · rename_i same
      obtain ⟨p, here, rfl⟩ := Option.map_eq_some_iff.1 at_j
      rw [same] at here
      exact known p run here on_run
    · exact placed.known j q run at_j on_run
  · intro j q at_j created
    rw [there] at at_j
    split at at_j
    · rename_i same
      obtain ⟨p, here, rfl⟩ := Option.map_eq_some_iff.1 at_j
      rw [same] at here
      exact blank p here created
    · exact placed.blank j q at_j created
  · intro j q run r at_j created on_run at_run
    rw [there] at at_j
    split at at_j
    · rename_i same
      obtain ⟨p, here, rfl⟩ := Option.map_eq_some_iff.1 at_j
      rw [same] at here ⊢
      exact waits p run r here created on_run at_run
    · rename_i other
      rcases placed.waits j q run r at_j created on_run at_run with waiting | called
      · exact .inl waiting
      · rcases stays_due _ called with own | later
        · exact absurd own other
        · exact .inr later
  · intro run r step output at_run at_step j listening
    obtain ⟨p, here, has_started⟩ := placed.listens run r step output at_run at_step j listening
    rw [there]
    split
    · rename_i same
      rw [here]
      rw [same] at here
      exact ⟨f p, rfl, started p here has_started⟩
    · exact ⟨p, here, has_started⟩

/-- A population that is called back by a run is due no longer. -/
theorem Placed.collect {id : PopulationId} {run : RunId} (placed : d.Placed ((id, run) :: due)) :
    (d.collect id run).Placed due := by
  rcases d.collect_cases id run with ⟨same, started⟩ |
    ⟨p, r, here, there, created, same⟩ | ⟨p, failure, here, same⟩
  · rw [same]
    refine { placed with waits := ?_ }
    intro j p run' r here created on_run there
    rcases placed.waits j p run' r here created on_run there with waiting | called
    · exact .inl waiting
    · rcases List.mem_cons.1 called with now | later
      · cases now
        exact absurd created (started p r here there)
      · exact .inr later
  · -- it becomes one that has started first, so that those who listen have started throughout
    rw [same]
    have listening : (d.modifyPopulation id fun p => { p with phase := .collecting }).Placed
        due := by
      refine placed.modifyPopulation ?_ ?_ ?_ ?_ ?_
      · exact fun q run' at_id on_run => placed.known id q run' at_id on_run
      · intro q _ unstarted
        cases unstarted
      · intro q run' r' _ unstarted
        cases unstarted
      · intro pair member
        rcases List.mem_cons.1 member with rfl | later
        · exact .inl rfl
        · exact .inr later
      · intro q _ _ unstarted
        cases unstarted
    refine listening.modifyRun (fun _ => rfl) ?_ (fun _ member => .inr member) ?_
    · exact fun r' j q at_run at_j unstarted on_run =>
        listening.waits j q run r' at_j unstarted on_run at_run
    · intro r' step output' at_run at_step j member
      rw [Run.get?_addListener] at at_step
      split at at_step
      · obtain ⟨o, old, rfl⟩ := Option.map_eq_some_iff.1 at_step
        rcases List.mem_append.1 member with before | now
        · exact listening.listens run r' step o at_run old j before
        · rw [List.mem_singleton.1 now]
          refine ⟨_, population?_modifyPopulation_self here _, ?_⟩
          intro unstarted
          cases unstarted
      · exact listening.listens run r' step output' at_run at_step j member
  · rw [same]
    have failed := (d.rests_resolve id (.error failure)).placed placed
    refine { failed with waits := ?_ }
    intro j q run' r' at_j created on_run at_run
    rcases failed.waits j q run' r' at_j created on_run at_run with waiting | called
    · exact .inl waiting
    · rcases List.mem_cons.1 called with now | later
      · -- one that had not started has failed now
        cases now
        unfold resolve at at_j
        rw [population?_advance, if_pos rfl, here] at at_j
        obtain rfl : (p.resolve _).1 = q := Option.some.inj at_j
        obtain ⟨unstarted, -, -⟩ := (p.stays_resolve _).unstarted created
        rw [Population.resolve_eq (placed.blank id p here unstarted).1] at created
        cases created
      · exact .inr later

/-- The callbacks of a run that is ready leave none of their populations due. -/
theorem Placed.foldl_collect {run : RunId} {callbacks : List PopulationId}
    (placed : d.Placed (callbacks.map (fun id => (id, run)) ++ due)) :
    (callbacks.foldl (·.collect · run) d).Placed due := by
  induction callbacks generalizing d with
  | nil => exact placed
  | cons id rest ih => exact ih placed.collect

/-- A run that becomes ready calls back all that waited for it, so that none is left due. -/
theorem Placed.ready (placed : d.Placed due) {name : String} {r : Run}
    (there : d.runs.get? name = some r) : (d.ready r).Placed due := by
  have at_run := placed.run?_of_get? there
  unfold Deployment.ready
  dsimp only
  refine Placed.foldl_collect (placed.modifyRun (fun _ => rfl) ?_ ?_ ?_)
  · intro r' id p here' at_id created on_run
    obtain rfl : r = r' := Option.some.inj (at_run.symm.trans here')
    rcases placed.waits id p r.id r at_id created on_run here' with ⟨unready, waiting⟩ | called
    · refine .inr (List.mem_append_left _ ?_)
      rw [Hooks.fire, unready]
      exact List.mem_map.2 ⟨id, waiting, rfl⟩
    · exact .inr (List.mem_append_right _ called)
  · exact fun _ member => .inr (List.mem_append_right _ member)
  · exact fun r' step output at_run at_step => placed.listens r.id r' step output at_run at_step

/-- A population is placed on a run whose hooks keep their callbacks, or have one more. -/
theorem Placed.place (placed : d.Placed due) {id : PopulationId} {run : RunId} {r : Run}
    (there : d.run? run = some r) {hooks : Hooks Owner PopulationId}
    (ready_eq : hooks.ready = r.hooks.ready)
    (waiting : ∀ j ∈ r.hooks.waiting, j ∈ hooks.waiting)
    (waits : (hooks.ready = false ∧ id ∈ hooks.waiting) ∨ (id, run) ∈ due')
    (more : ∀ pair ∈ due, pair ∈ due') : (d.place id run hooks).Placed due' := by
  have hooked : (d.modifyRun run fun r => { r with hooks }).Placed due' := by
    refine placed.modifyRun (fun _ => rfl) ?_ (fun pair member => .inr (more pair member)) ?_
    · intro r' j p there' here created on_run
      obtain rfl : r = r' := Option.some.inj (there.symm.trans there')
      rcases placed.waits j p run r here created on_run there with ⟨unready, member⟩ | called
      · exact .inl ⟨ready_eq.trans unready, waiting j member⟩
      · exact .inr (more _ called)
    · exact fun r' step output at_run at_step => placed.listens run r' step output at_run at_step
  have at_run : (d.modifyRun run fun r => { r with hooks }).run? run = some { r with hooks } :=
    run?_modifyRun_self there fun _ => rfl
  refine hooked.modifyPopulation ?_ ?_ ?_ (fun _ member => .inr member) fun _ _ started => started
  · intro p run' _ on_run
    cases on_run
    obtain ⟨at_name, id_eq⟩ := run?_eq_some_iff.1 there
    rw [← id_eq]
    exact placed.fresh _ r at_name
  · exact fun p here created => placed.blank id p here created
  · intro p run' r' _ _ on_run there'
    cases on_run
    obtain rfl : { r with hooks } = r' := Option.some.inj (at_run.symm.trans there')
    exact waits

/-- A population is installed to wait for a run, or listens on one that is ready. -/
theorem Placed.install (placed : d.Placed due) (id : PopulationId) (run : RunId) :
    (d.install id run).Placed due := by
  rcases d.install_cases id run with same | ⟨failure, same⟩ |
    ⟨p, r, claimed, here, there, granted, ⟨unready, same⟩ | ⟨ready, same⟩⟩
  · rw [same]
    exact placed
  · rw [same]
    have refused : d.Rests (d.modifyPopulation id (·.refuse failure)) :=
      rests_modifyPopulation fun _ => ⟨rfl, fun created => ⟨created, rfl, rfl⟩⟩
    exact (refused.trans (rests_resolve _ id _)).placed placed
  · rw [same]
    obtain ⟨ready_eq, waiting_eq⟩ := claim_keeps granted
    refine placed.place there ready_eq ?_ (.inl ⟨unready, ?_⟩) fun _ member => member
    · intro j member
      rw [waiting_eq]
      exact List.mem_append_left _ member
    · exact List.mem_append_right _ (List.mem_singleton_self id)
  · rw [same]
    obtain ⟨ready_eq, waiting_eq⟩ := claim_keeps granted
    refine Placed.collect (placed.place there ready_eq ?_ (.inr List.mem_cons_self) ?_)
    · intro j member
      rw [waiting_eq]
      exact member
    · exact fun _ member => List.mem_cons_of_mem _ member

/-- A run that is added has nobody that waits or listens. -/
theorem Placed.addRun (placed : d.Placed due) (name : String) (steps : List (String × List String))
    (injectors : List String) (polls : Nat) (offers : List Offer) :
    (d.addRun name (.ofList (steps.map fun s => (s.1, { fields := s.2 }))) injectors polls
      offers).1.Placed due := by
  let outputs : Table String StepOutput := .ofList (steps.map fun s => (s.1, { fields := s.2 }))
  let d' := (d.addRun name outputs injectors polls offers).1
  have at_name (j : String) : d'.runs.get? j =
      if j = name then some { id := ⟨name, d.serial⟩, polls, outputs, injectors, offers }
      else d.runs.get? j := by
    show (d.runs.put name _).get? j = _
    rw [Table.get?_put]
    simp only [beq_iff_eq]
  refine ⟨?_, ?_, ?_, placed.blank, ?_, ?_⟩
  · intro j r there
    rw [at_name] at there
    split at there
    · rename_i same
      cases there
      exact same.symm
    · exact placed.named j r there
  · intro j r there
    rw [at_name] at there
    split at there
    · cases there
      exact Nat.lt_succ_self _
    · exact Nat.lt_succ_of_lt (placed.fresh j r there)
  · exact fun id p run here on_run => Nat.lt_succ_of_lt (placed.known id p run here on_run)
  · intro id p run r here created on_run there
    rw [run?_addRun] at there
    split at there
    · -- no population is on the new run
      rw [if_neg (Nat.ne_of_lt (placed.known id p run here on_run))] at there
      cases there
    · exact placed.waits id p run r here created on_run there
  · intro run r step output there at_step id listening
    rw [run?_addRun] at there
    split at there
    · split at there
      · cases there
        obtain ⟨s, -, same⟩ := List.mem_map.1 (Table.mem_of_get?_ofList at_step)
        cases same
        cases listening
      · cases there
    · exact placed.listens run r step output there at_step id listening

/-- Nobody waits for a run that has been dropped. -/
theorem Placed.dropRun (placed : d.Placed due) (name : String) : (d.dropRun name).Placed due := by
  have before {j : String} {r : Run} (there : (d.dropRun name).runs.get? j = some r) :
      d.runs.get? j = some r := by
    unfold Deployment.dropRun at there
    rw [Table.get?_erase] at there
    split at there
    · cases there
    · exact there
  have run?_before {run : RunId} {r : Run} (there : (d.dropRun name).run? run = some r) :
      d.run? run = some r := by
    rw [run?_eq_some_iff] at there ⊢
    exact ⟨before there.1, there.2⟩
  refine ⟨?_, ?_, placed.known, placed.blank, ?_, ?_⟩
  · exact fun j r there => placed.named j r (before there)
  · exact fun j r there => placed.fresh j r (before there)
  · exact fun id p run r here created on_run there =>
      placed.waits id p run r here created on_run (run?_before there)
  · exact fun run r step output there => placed.listens run r step output (run?_before there)

/-! ## Every operation -/

/-- Whatever stirs a deployment leaves its populations placed. -/
theorem Stirs.placed (h : d.Stirs d') (placed : d.Placed due) : d'.Placed due := by
  induction h with
  | rests rests => exact rests.placed placed
  | @goesBy d id f keeps same_id =>
    refine placed.modifyRun same_id ?_ (fun _ member => .inr member) ?_
    · intro r j p there here created on_run
      have ties := keeps r there
      rw [ties.ready_eq, ties.waiting_eq]
      exact placed.waits j p id r here created on_run there
    · intro r step output' there at_step
      rw [(keeps r there).outputs_eq] at at_step
      exact placed.listens id r step output' there at_step
  | comes d name steps injectors polls offers => exact placed.addRun name steps injectors polls offers
  | goes d name => exact placed.dropRun name
  | installs d id run => exact placed.install id run
  | collects d id run =>
    exact (placed.mono fun _ member => List.mem_cons_of_mem (id, run) member).collect
  | starts there => exact placed.ready there
  | trans _ _ ih ih' => exact ih' (ih placed)

variable [ResultStore σ]

/-- In every course of operations populations that have not started wait for their runs. -/
theorem placed_after (ops : List (Operation σ)) : (({} : Deployment σ).after ops).Placed [] := by
  have both : (({} : Deployment σ).after ops).WellKept ∧ (({} : Deployment σ).after ops).Placed [] := by
    refine after_induction (P := fun d => d.WellKept ∧ d.Placed []) ?_
      ⟨wellKept_empty, placed_empty⟩ ops
    rintro d op ⟨kept, placed⟩
    exact ⟨(d.apply_changes op).wellKept kept, (apply_stirs kept op).placed placed⟩
  exact both.2

end Deployment

end DataService
