import DataService.Proofs.Deployment.Resolution
import DataService.Proofs.Deployment.Errands
import DataService.Proofs.Population.Captured

/-!
# The acts of an operation

One operation may concern several populations: a row that leaves a step comes to everyone who
listens there, and while a row is offered to a run the engine may do whatever its script says. This
module takes operations apart into acts, each of which concerns one population, or none.

`Operation.acts` lists them in their order, and `apply_eq_proceed` says that an operation comes to
the same as its acts, one after the other. None but the acts that have a population for their
subject decide about that population (`Act.Lawful.outcome?_act`), and every act leaves populations in
order (`Act.Lawful.wellKept`).
-/

set_option autoImplicit false

namespace DataService

/-- One thing that is done in the course of an operation. -/
inductive Act (σ : Type) where
  /-- Something that decides about no population. -/
  | aside (change : Deployment σ → Deployment σ)
  | handle (population : PopulationId) (event : PopulationEvent)
  | collect (population : PopulationId) (run : RunId)
  | install (population : PopulationId) (run : RunId)
  | register (population : PopulationId) (waiter : Waiter)

/-- The population to which something is done. -/
def Act.subject? {σ : Type} : Act σ → Option PopulationId
  | .aside _ => none
  | .handle id _ | .collect id _ | .install id _ | .register id _ => some id

namespace Deployment

variable {σ : Type}

/-- What an act makes of a deployment. -/
def act (d : Deployment σ) : Act σ → Deployment σ
  | .aside change => change d
  | .handle id event => d.handle id event
  | .collect id run => d.collect id run
  | .install id run => d.install id run
  | .register id waiter => d.onResolved id waiter

/-- What acts make of a deployment, one after the other. -/
def proceed (d : Deployment σ) (acts : List (Act σ)) : Deployment σ := acts.foldl act d

/-- Acts in two parts come to the first part and then the second. -/
theorem proceed_append (d : Deployment σ) (acts acts' : List (Act σ)) :
    d.proceed (acts ++ acts') = (d.proceed acts).proceed acts' := List.foldl_append

/-- Acts begin with the first of them. -/
theorem proceed_cons (d : Deployment σ) (a : Act σ) (acts : List (Act σ)) :
    d.proceed (a :: acts) = (d.act a).proceed acts := rfl

end Deployment

/-! ## What operations consist of -/

variable {σ : Type}

/-- The acts of an engine step: it calls back those who wait for a run, or tells everyone who listens
to a step. -/
def EngineStep.acts (d : Deployment σ) : EngineStep → List (Act σ)
  | .start run =>
    match d.runs.get? run with
    | none => []
    | some r =>
      .aside (·.modifyRun r.id fun old => { old with hooks := r.hooks.fire.1 }) ::
        r.hooks.fire.2.map (.collect · r.id)
  | .stop run =>
    match d.runs.get? run with
    | none => []
    | some r => [.aside (·.modifyRun r.id fun old => { old with running := false })]
  | .emit run step cells =>
    match d.outputOf run step with
    | .error _ => []
    | .ok (_, output) =>
      output.listeners.map (.handle · ((ListenerCall.row cells).event ⟨step, output.fields⟩))
  | .finish run step errors stoppedEarly =>
    match d.outputOf run step with
    | .error _ => []
    | .ok (_, output) => output.listeners.map (.handle · (Deployment.endEvent errors stoppedEarly))

namespace Deployment

/-- The acts of a line of a script. -/
def lineActs (d : Deployment σ) : Option EngineStep → List (Act σ)
  | none => [.aside (·.log .stepImpossible)]
  | some step =>
    match d.perform step with
    | .error _ => [.aside (·.log .stepImpossible)]
    | .ok _ => step.acts d

/-- The acts of a script. -/
def scriptActs (d : Deployment σ) : List (Option EngineStep) → List (Act σ)
  | [] => []
  | line :: rest => d.lineActs line ++ (d.performScript [line]).scriptActs rest

/-- The acts of an offer of a row. -/
def offerActs (d : Deployment σ) (id : RunId) (milliseconds : UInt64) (row : Row) : List (Act σ) :=
  match (d.run? id).map (·.offers) with
  | none | some [] => [.aside (·.log (.rowOffered id milliseconds row true))]
  | some (o :: rest) =>
    let take (d : Deployment σ) : Deployment σ :=
      (d.modifyRun id fun r => { r with offers := rest }).log
        (.rowOffered id milliseconds row o.accepted)
    .aside take :: (take d).scriptActs o.meanwhile

/-- The acts by which a service starts a population. -/
def startActs (d : Deployment σ) (s : Service) (q : Query) (key : CacheKey) (run : RunId)
    (label : String) (displaced : Option PopulationId) : List (Act σ) :=
  let id : PopulationId := ⟨d.serial⟩
  .aside (·.entered s q key label) :: .install id run ::
    match (((d.entered s q key label).install id run).population? id).bind (·.refusal) with
    | some _ => [.aside fun d => (d.withdraw s.board key id displaced).reportFlights s]
    | none =>
      [.aside (·.reportFlights s),
        .register id (.deliver
          { service := s.name, cache := s.cacheName, key, population := id
            store := s.store, board := s.board })]

/-- The acts by which a service populates its cache. -/
def populateActs (d : Deployment σ) (s : Service) (q : Query) (run : RunId) (label : String) :
    List (Act σ) :=
  match s.definition.resultCache?, CacheKey.ofQuery q with
  | some _, .ok key =>
    match d.flight? s.board key with
    | none => d.startActs s q key run label none
    | some current =>
      if d.canAnswer current q then [.aside (·.measure (·.add (.attachments s.name) 1))]
      else d.startActs s q key run label (some current)
  | _, _ => []

end Deployment

/-- The acts of a step of a replay. -/
def Replay.acts (r : Replay) (d : Deployment σ) : Stage → List (Act σ)
  | .offering _ row => d.offerActs r.target r.putTimeout row
  | stage => [.aside fun d => (r.step d stage).1]

/-- What an operation consists of. -/
def Operation.acts [ResultStore σ] (d : Deployment σ) : Operation σ → List (Act σ)
  | .engine step => step.acts d
  | .install id run => [.install id run]
  | .collect id run => [.collect id run]
  | .handle id event => [.handle id event]
  | .onResolved id waiter _ => [.register id waiter]
  | .populate s q run label => d.populateActs s q run label
  | .replay r stage => r.acts d stage
  | op => [.aside (·.apply op)]

namespace Deployment

/-- Acts of one kind for all items of a list come to a fold over the items. -/
theorem proceed_map {α : Type} (f : α → Act σ) (items : List α) (d : Deployment σ) :
    d.proceed (items.map f) = items.foldl (fun d a => d.act (f a)) d := List.foldl_map

/-- A step of an engine comes to its acts, which are none if it cannot be done. -/
theorem engine_eq_proceed (d : Deployment σ) (step : EngineStep) :
    d.engine step = d.proceed (step.acts d) := by
  unfold engine
  cases step with
  | start run =>
    simp only [perform, EngineStep.acts]
    cases d.runs.get? run with
    | none => rfl
    | some r =>
      dsimp only
      rw [proceed_cons, proceed_map]
      rfl
  | stop run =>
    simp only [perform, EngineStep.acts]
    cases d.runs.get? run <;> rfl
  | emit run step cells =>
    simp only [perform, EngineStep.acts]
    cases d.outputOf run step with
    | error fault => rfl
    | ok found =>
      obtain ⟨r, output⟩ := found
      dsimp only [bind, Except.bind, pure, Except.pure]
      rw [proceed_map]
      refine congrArg (fun f => output.listeners.foldl f d) ?_
      funext d id
      show handRow _ cells d id = d.handle id _
      unfold handRow ListenerCall.event
      dsimp only
      cases Row.capture ⟨step, output.fields⟩ cells <;> rfl
  | finish run step errors stoppedEarly =>
    simp only [perform, EngineStep.acts]
    cases d.outputOf run step with
    | error fault => rfl
    | ok found =>
      obtain ⟨r, output⟩ := found
      dsimp only [bind, Except.bind, pure, Except.pure]
      rw [proceed_map]
      rfl

/-- A script begins with its first line. -/
theorem performScript_cons (d : Deployment σ) (line : Option EngineStep)
    (rest : List (Option EngineStep)) :
    d.performScript (line :: rest) = (d.performScript [line]).performScript rest := rfl

/-- A line of a script comes to its acts, one that cannot be done to a line in the log. -/
theorem line_eq_proceed (d : Deployment σ) (line : Option EngineStep) :
    d.performScript [line] = d.proceed (d.lineActs line) := by
  cases line with
  | none => rfl
  | some step =>
    have engine_eq := d.engine_eq_proceed step
    unfold engine at engine_eq
    unfold performScript lineActs
    rw [List.foldl_cons, List.foldl_nil]
    dsimp only [Option.map_some]
    cases performed : d.perform step with
    | error fault => rfl
    | ok d' =>
      rw [performed] at engine_eq
      exact engine_eq

/-- A script comes to its acts, those of every line read off what the lines before have made. -/
theorem performScript_eq_proceed (d : Deployment σ) (script : List (Option EngineStep)) :
    d.performScript script = d.proceed (d.scriptActs script) := by
  induction script generalizing d with
  | nil => rfl
  | cons line rest ih =>
    rw [scriptActs, proceed_append, ← line_eq_proceed, ← ih, performScript_cons]

/-- The offer of a row comes to its acts, those of the script meanwhile included. -/
theorem offer_eq_proceed (d : Deployment σ) (id : RunId) (milliseconds : UInt64) (row : Row) :
    (d.offer id milliseconds row).1 = d.proceed (d.offerActs id milliseconds row) := by
  unfold offer offerActs
  generalize (d.run? id).map (·.offers) = offers
  rcases offers with - | - | ⟨o, rest⟩
  · rfl
  · rfl
  · dsimp only
    rw [proceed_cons, performScript_eq_proceed]
    rfl

/-- To start a population comes to its acts: it is entered, installed, and registered or withdrawn.
-/
theorem startPopulation_eq_proceed (d : Deployment σ) (s : Service) (q : Query) (key : CacheKey)
    (run : RunId) (label : String) (displaced : Option PopulationId) :
    (d.startPopulation s q key run label displaced).1 =
      d.proceed (d.startActs s q key run label displaced) := by
  let installed := (d.entered s q key label).install ⟨d.serial⟩ run
  have started : d.startPopulation s q key run label displaced =
      match (installed.population? ⟨d.serial⟩).bind (·.refusal) with
      | some failure =>
        ((installed.withdraw s.board key ⟨d.serial⟩ displaced).reportFlights s, .error failure)
      | none =>
        ((installed.reportFlights s).onResolved ⟨d.serial⟩ (.deliver
          { service := s.name, cache := s.cacheName, key, population := ⟨d.serial⟩
            store := s.store, board := s.board }), .ok (.started ⟨d.serial⟩)) := rfl
  rw [started]
  unfold startActs
  dsimp only
  rw [proceed_cons, proceed_cons]
  show _ = installed.proceed (match (installed.population? ⟨d.serial⟩).bind (·.refusal) with
    | some _ => _
    | none => _)
  cases (installed.population? ⟨d.serial⟩).bind (·.refusal) <;> rfl

/-- A call to populate comes to its acts, of which there are none for a population that is attached
but a count. -/
theorem populate_eq_proceed (d : Deployment σ) (s : Service) (q : Query) (run : RunId)
    (label : String) :
    (d.populate s q run label).1 = d.proceed (d.populateActs s q run label) := by
  unfold populate populateActs
  cases s.definition.resultCache? with
  | none => rfl
  | some cache =>
    cases CacheKey.ofQuery q with
    | error failure => rfl
    | ok key =>
      dsimp only
      unfold flight?
      cases (d.board s.board).get? key with
      | none => exact d.startPopulation_eq_proceed s q key run label none
      | some current =>
        dsimp only
        split
        · rfl
        · exact d.startPopulation_eq_proceed s q key run label (some current)

/-- An operation comes to the same as its acts, one after the other. -/
theorem apply_eq_proceed [ResultStore σ] (d : Deployment σ) (op : Operation σ) :
    d.apply op = d.proceed (op.acts d) := by
  cases op with
  | engine step => exact d.engine_eq_proceed step
  | populate s q run label => exact d.populate_eq_proceed s q run label
  | replay r stage =>
    cases stage with
    | offering delivered row =>
      show (r.step d (.offering delivered row)).1 = d.proceed (d.offerActs r.target r.putTimeout row)
      rw [← offer_eq_proceed]
      simp only [Replay.step]
      split <;> rename_i offered <;> rw [offered]
    | _ => rfl
  | _ => rfl

/-! ## Laws of acts -/

/-- Populations are in order, and those that were there are as they were. At most new ones came. -/
structure Spares (d d' : Deployment σ) : Prop where
  wellKept : d'.WellKept
  stays : ∀ id p, d.population? id = some p → d'.population? id = some p
  outcome?_eq : ∀ id, d'.outcome? id = d.outcome? id

variable {d d' : Deployment σ} {id : PopulationId} {p : Population}

/-- What touches no population spares them all. -/
theorem spares_of_populations_eq (kept' : d'.WellKept) (same : d'.populations = d.populations) :
    d.Spares d' := by
  have same_at (id : PopulationId) : d'.population? id = d.population? id := by
    unfold population?
    rw [same]
  refine ⟨kept', fun id p here => (same_at id).trans here, fun id => ?_⟩
  unfold outcome?
  rw [same_at]

/-- What leaves all alike spares all populations. -/
theorem Alike.spares (alike : d.Alike d') (kept : d.WellKept) : d.Spares d' := by
  have moves : Moves Anyone d d' := .alike alike
  exact spares_of_populations_eq (moves.wellKept kept) alike.populations_eq

/-- A population that is made spares those that are there. -/
theorem spares_addPopulation (kept : d.WellKept) (label : String) (key : CacheKey) (query : Query)
    (outputStep : String) :
    d.Spares (d.addPopulation { label, key, query, outputStep }).1 where
  wellKept := (Changes.adds d label key query outputStep).wellKept kept
  stays _ _ here := kept.population?_addPopulation here _
  outcome?_eq id := outcome?_addPopulation kept rfl id

/-- A population that a service enters on its board spares those that are there. -/
theorem spares_entered (kept : d.WellKept) (s : Service) (q : Query) (key : CacheKey)
    (label : String) : d.Spares (d.entered s q key label) where
  wellKept := kept.entered s q key label
  stays _ _ here := (population?_entered_of_some s q key label kept here).2
  outcome?_eq id := outcome?_addPopulation kept rfl id

end Deployment

open Deployment

/-- What is done aside spares the populations, and whoever is registered with a population brings no
errand after another one. -/
def Act.Lawful : Act σ → Prop
  | .aside change => ∀ d : Deployment σ, d.WellKept → d.Spares (change d)
  | .register id waiter => ∀ errand ∈ errandsAll [waiter], errand.population = id
  | .handle .. | .collect .. | .install .. => True

/-- The acts of an engine step are lawful. -/
theorem EngineStep.lawful_acts (d : Deployment σ) (step : EngineStep) :
    ∀ a ∈ (step.acts d : List (Act σ)), a.Lawful := by
  have on_run (id : RunId) (f : Run → Run) : (Act.aside (·.modifyRun id f) : Act σ).Lawful :=
    fun d kept => (d.modifyRun_alike id f).spares kept
  have each (f : PopulationId → Act σ) (lawful : ∀ id, (f id).Lawful) (ids : List PopulationId) :
      ∀ a ∈ ids.map f, a.Lawful := by
    intro a member
    obtain ⟨id, -, rfl⟩ := List.mem_map.1 member
    exact lawful id
  cases step with
  | start run =>
    simp only [EngineStep.acts]
    cases d.runs.get? run with
    | none => exact List.forall_mem_nil _
    | some r =>
      exact List.forall_mem_cons.2 ⟨on_run _ _, each (.collect · r.id) (fun _ => trivial) _⟩
  | stop run =>
    simp only [EngineStep.acts]
    cases d.runs.get? run with
    | none => exact List.forall_mem_nil _
    | some r => exact List.forall_mem_singleton.2 (on_run _ _)
  | emit run step cells =>
    simp only [EngineStep.acts]
    cases d.outputOf run step with
    | error fault => exact List.forall_mem_nil _
    | ok found => exact each (.handle · _) (fun _ => trivial) found.2.listeners
  | finish run step errors stoppedEarly =>
    simp only [EngineStep.acts]
    cases d.outputOf run step with
    | error fault => exact List.forall_mem_nil _
    | ok found => exact each (.handle · _) (fun _ => trivial) found.2.listeners

namespace Deployment

/-- To log what is no announcement is a lawful act. -/
theorem lawful_log {event : Event} (silent : event.announcement? = none) :
    (Act.aside (·.log event) : Act σ).Lawful := fun d kept => (d.log_alike event silent).spares kept

/-- The acts of a script are lawful. -/
theorem lawful_scriptActs (d : Deployment σ) (script : List (Option EngineStep)) :
    ∀ a ∈ d.scriptActs script, a.Lawful := by
  induction script generalizing d with
  | nil => exact List.forall_mem_nil _
  | cons line rest ih =>
    refine List.forall_mem_append.2 ⟨?_, ih _⟩
    cases line with
    | none => exact List.forall_mem_singleton.2 (lawful_log rfl)
    | some step =>
      unfold lineActs
      dsimp only
      split
      · exact List.forall_mem_singleton.2 (lawful_log rfl)
      · exact step.lawful_acts d

/-- The acts of an offer are lawful. -/
theorem lawful_offerActs (d : Deployment σ) (id : RunId) (milliseconds : UInt64) (row : Row) :
    ∀ a ∈ d.offerActs id milliseconds row, a.Lawful := by
  unfold offerActs
  split
  · exact List.forall_mem_singleton.2 (lawful_log rfl)
  · exact List.forall_mem_singleton.2 (lawful_log rfl)
  · refine List.forall_mem_cons.2 ⟨fun d kept => ?_, lawful_scriptActs _ _⟩
    exact ((d.modifyRun_alike id _).trans (log_alike _ _ rfl)).spares kept

/-- The acts by which a population is started are lawful, its withdrawal after a refusal included.
-/
theorem lawful_startActs (d : Deployment σ) (s : Service) (q : Query) (key : CacheKey)
    (run : RunId) (label : String) (displaced : Option PopulationId) :
    ∀ a ∈ d.startActs s q key run label displaced, a.Lawful := by
  have noted {d d' : Deployment σ} (kept : d.WellKept) (populations : d'.populations = d.populations)
      (serial : d'.serial = d.serial) (pending : d'.pending = d.pending) : d.Spares d' := by
    refine spares_of_populations_eq (kept.congr populations (Nat.le_of_eq serial.symm) ?_) populations
    rw [pending]
    exact fun _ waits => waits
  unfold startActs
  refine List.forall_mem_cons.2 ⟨fun d kept => spares_entered kept s q key label, ?_⟩
  refine List.forall_mem_cons.2 ⟨trivial, ?_⟩
  split
  · exact List.forall_mem_singleton.2 fun d kept => noted kept rfl rfl rfl
  · refine List.forall_mem_cons.2 ⟨fun d kept => noted kept rfl rfl rfl, ?_⟩
    refine List.forall_mem_singleton.2 fun errand on_errand => ?_
    rw [errandsAll_deliver, List.mem_singleton] at on_errand
    rw [on_errand]

/-- The acts of a call to populate are lawful. -/
theorem lawful_populateActs (d : Deployment σ) (s : Service) (q : Query) (run : RunId)
    (label : String) : ∀ a ∈ d.populateActs s q run label, a.Lawful := by
  unfold populateActs
  split
  · split
    · exact d.lawful_startActs s q _ run label _
    · split
      · exact List.forall_mem_singleton.2 fun d kept => (d.measure_alike _).spares kept
      · exact d.lawful_startActs s q _ run label _
  · exact List.forall_mem_nil _

end Deployment

/-- The acts of a step of a replay are lawful. -/
theorem Replay.lawful_acts (r : Replay) (d : Deployment σ) (stage : Stage) :
    ∀ a ∈ r.acts d stage, a.Lawful := by
  have aside {stage : Stage} (other : ∀ delivered row, stage ≠ .offering delivered row) :
      (Act.aside fun d => (r.step d stage).1 : Act σ).Lawful := by
    intro d kept
    show d.Spares (r.step d stage).1
    rcases r.fst_step_cases d stage with
      same | wires | ⟨run, asks⟩ | ⟨delivered, row, offering, -⟩ | ⟨delivered, -, -, ends⟩
    · rw [same]
      exact (Alike.refl d).spares kept
    · rw [wires]
      exact (r.wire_alike d).spares kept
    · rw [asks]
      exact (d.ask_alike run).spares kept
    · exact absurd offering (other delivered row)
    · rw [ends]
      exact ((d.log_alike _ rfl).trans (measure_alike _ _)).spares kept
  cases stage with
  | offering delivered row => exact d.lawful_offerActs r.target r.putTimeout row
  | _ => exact List.forall_mem_singleton.2 (aside fun _ _ => nofun)

/-- Operations consist of lawful acts. -/
theorem Operation.lawful_acts [ResultStore σ] (d : Deployment σ) (op : Operation σ) :
    ∀ a ∈ op.acts d, a.Lawful := by
  have alone {op : Operation σ}
      (same : ∀ d : Deployment σ, (d.apply op).populations = d.populations) :
      ∀ a ∈ [(Act.aside (·.apply op) : Act σ)], a.Lawful :=
    List.forall_mem_singleton.2 fun d kept =>
      spares_of_populations_eq ((d.apply_changes op).wellKept kept) (same d)
  cases op with
  | engine step => exact step.lawful_acts d
  | install id run => exact List.forall_mem_singleton.2 trivial
  | collect id run => exact List.forall_mem_singleton.2 trivial
  | handle id event => exact List.forall_mem_singleton.2 trivial
  | onResolved id waiter outside =>
    refine List.forall_mem_singleton.2 fun errand on_errand => ?_
    rw [outside] at on_errand
    cases on_errand
  | populate s q run label => exact d.lawful_populateActs s q run label
  | replay r stage => exact r.lawful_acts d stage
  | addPopulation label key query outputStep =>
    exact List.forall_mem_singleton.2 fun d kept =>
      spares_addPopulation kept label key query outputStep
  | claim run owner => exact alone fun d => (d.claim_alike run owner).populations_eq
  | ask run => exact alone fun d => (d.ask_alike run).populations_eq
  | lookup s q => exact alone fun d => (d.lookup_alike s q).populations_eq
  | settleAt position => exact alone fun d => d.populations_settleAt position
  | addRun | dropRun | addStore | alterStore | pushDown => exact alone fun _ => rfl

/-- Only its subject is different after an act. -/
theorem Deployment.population?_act {d : Deployment σ} {a : Act σ} {id j : PopulationId}
    (about : a.subject? = some j) (other : id ≠ j) :
    (d.act a).population? id = d.population? id := by
  cases a with
  | aside change => cases about
  | handle i event =>
    cases about
    exact (d.handle_moves j event).population?_eq other
  | collect i run =>
    cases about
    exact (d.collect_moves j run).population?_eq other
  | install i run =>
    cases about
    exact (d.install_moves j run).population?_eq other
  | register i waiter =>
    cases about
    show (d.advance j _).population? id = d.population? id
    rw [population?_advance, if_neg other]

namespace Act.Lawful

variable {a : Act σ} {acts : List (Act σ)} {d : Deployment σ} {id : PopulationId} {p : Population}

/-- What is done to a population is a change of the deployment. -/
theorem exists_changes (lawful : a.Lawful) {j : PopulationId} (about : a.subject? = some j) :
    ∃ tags, d.Changes tags (d.act a) := by
  cases a with
  | aside change => cases about
  | handle j event => exact ⟨[], .moves ((d.handle_moves j event).mono fun _ _ => trivial)⟩
  | collect j run => exact ⟨[], .moves ((d.collect_moves j run).mono fun _ _ => trivial)⟩
  | install j run => exact ⟨[], .moves ((d.install_moves j run).mono fun _ _ => trivial)⟩
  | register j waiter =>
    cases here : d.population? j with
    | none =>
      refine ⟨[], .moves ?_⟩
      show Moves Anyone d (d.onResolved j waiter)
      rw [onResolved_of_missing here]
      exact .refl d
    | some p => exact ⟨_, .registers here lawful⟩

/-- A lawful act leaves populations in order. -/
theorem wellKept (lawful : a.Lawful) (kept : d.WellKept) : (d.act a).WellKept := by
  cases about : a.subject? with
  | none =>
    cases a with
    | aside change => exact (lawful d kept).wellKept
    | _ => cases about
  | some j =>
    obtain ⟨tags, changes⟩ := lawful.exists_changes (d := d) about
    exact changes.wellKept kept

/-- A population goes on through a lawful act, of which it may be the subject or not. -/
theorem exists_grows (lawful : a.Lawful) (kept : d.WellKept) (here : d.population? id = some p) :
    ∃ p', (d.act a).population? id = some p' ∧ p.Grows p' := by
  cases about : a.subject? with
  | none =>
    cases a with
    | aside change => exact ⟨p, (lawful d kept).stays id p here, .refl p⟩
    | _ => cases about
  | some j =>
    obtain ⟨tags, changes⟩ := lawful.exists_changes (d := d) about
    exact changes.exists_grows kept here

/-- An act decides about its subject and about no other population. -/
theorem outcome?_act (lawful : a.Lawful) (kept : d.WellKept) (other : a.subject? ≠ some id) :
    (d.act a).outcome? id = d.outcome? id := by
  cases about : a.subject? with
  | none =>
    cases a with
    | aside change => exact (lawful d kept).outcome?_eq id
    | _ => cases about
  | some j =>
    have differs : id ≠ j := fun same => other (by rw [about, same])
    unfold outcome?
    rw [population?_act about differs]

/-- Acts that follow each other leave populations in order. -/
theorem wellKept_proceed (lawful : ∀ a ∈ acts, a.Lawful) (kept : d.WellKept) :
    (d.proceed acts).WellKept := by
  induction acts generalizing d with
  | nil => exact kept
  | cons a rest ih =>
    obtain ⟨now, later⟩ := List.forall_mem_cons.1 lawful
    exact ih later (now.wellKept kept)

/-- A population goes on through any number of lawful acts. -/
theorem exists_grows_proceed (lawful : ∀ a ∈ acts, a.Lawful) (kept : d.WellKept)
    (here : d.population? id = some p) :
    ∃ p', (d.proceed acts).population? id = some p' ∧ p.Grows p' := by
  induction acts generalizing d p with
  | nil => exact ⟨p, here, .refl p⟩
  | cons a rest ih =>
    obtain ⟨now, later⟩ := List.forall_mem_cons.1 lawful
    obtain ⟨p', here', grows⟩ := now.exists_grows kept here
    obtain ⟨p'', here'', grows'⟩ := ih later (now.wellKept kept) here'
    exact ⟨p'', here'', grows.trans grows'⟩

end Act.Lawful

end DataService
