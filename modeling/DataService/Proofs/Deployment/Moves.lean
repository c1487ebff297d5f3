import DataService.Proofs.Deployment.Operations
import DataService.Proofs.Population.Growth

/-!
# What runs and populations do

Whatever an engine does, whoever reads along and however a replay proceeds, a deployment changes by
three kinds of moves (`Moves`): nothing happens to what services have to do with (`Alike`), one
population goes on, or one ends and its waiters are informed. A law that holds of each move holds of
all operations that are made of moves, and the theorems below say that of every operation on runs
and populations. Only the operations that make a population, register a waiter, populate a cache or
deposit a result are more than moves; `Operation.isMove` tells them apart.

`Moves` also bounds which populations take part, so that an operation on one population is seen to
leave the others alone (`Moves.population?_eq`). What runs and populations do is quiet besides: no
metric tells of it but those that a service sets when it is informed of an end (`QuietMoves`).
-/

set_option autoImplicit false

namespace DataService

/-- The operation is one on runs and populations, or leaves both of them alone. -/
def Operation.isMove {σ : Type} : Operation σ → Bool
  | .addPopulation .. | .onResolved .. | .populate .. | .settleAt _ => false
  | _ => true

/-- No metric tells of the operation itself, as one does of a look-up, of a filter that is pushed
down and of the end of a replay. -/
def Operation.isQuiet {σ : Type} : Operation σ → Bool
  | .lookup .. | .pushDown .. | .replay _ (.finishing ..) => false
  | op => op.isMove

namespace Deployment

variable {σ : Type}

/-- Nothing is different about populations, boards, results that wait and announcements. -/
structure Alike (d d' : Deployment σ) : Prop where
  populations_eq : d'.populations = d.populations
  boards_eq : d'.boards = d.boards
  pending_eq : d'.pending = d.pending
  announcements_eq : d'.announcements = d.announcements
  serial_le : d.serial ≤ d'.serial

/-- Moves of a deployment in which no populations take part but those in reach. -/
inductive Moves (reach : PopulationId → Prop) : Deployment σ → Deployment σ → Prop
  | alike {d d' : Deployment σ} : d.Alike d' → Moves reach d d'
  | goesOn {d : Deployment σ} {id : PopulationId} {f : Population → Population} : reach id →
    (∀ p, d.population? id = some p → p.GoesOn (f p)) → Moves reach d (d.modifyPopulation id f)
  | ends {d : Deployment σ} {id : PopulationId} {p : Population} {outcome : Outcome} : reach id →
    d.population? id = some p → p.outcome = none → p.Fits outcome →
    Moves reach d (informAll outcome p.waiters (d.modifyPopulation id fun _ => p.ended outcome))
  | trans {d d' d'' : Deployment σ} : Moves reach d d' → Moves reach d' d'' → Moves reach d d''

/-- Moves that no metric tells of, unless a service is informed that a population ended. -/
inductive QuietMoves (reach : PopulationId → Prop) : Deployment σ → Deployment σ → Prop
  | alike {d d' : Deployment σ} : d.Alike d' → d'.metrics = d.metrics → QuietMoves reach d d'
  | goesOn {d : Deployment σ} {id : PopulationId} {f : Population → Population} : reach id →
    (∀ p, d.population? id = some p → p.GoesOn (f p)) → QuietMoves reach d (d.modifyPopulation id f)
  | ends {d : Deployment σ} {id : PopulationId} {p : Population} {outcome : Outcome} : reach id →
    d.population? id = some p → p.outcome = none → p.Fits outcome →
    QuietMoves reach d
      (informAll outcome p.waiters (d.modifyPopulation id fun _ => p.ended outcome))
  | trans {d d' d'' : Deployment σ} :
    QuietMoves reach d d' → QuietMoves reach d' d'' → QuietMoves reach d d''

variable {reach reach' : PopulationId → Prop} {d d' d'' : Deployment σ}

/-- Nothing is different about a deployment to which nothing was done. -/
theorem Alike.refl (d : Deployment σ) : d.Alike d := ⟨rfl, rfl, rfl, rfl, Nat.le_refl _⟩

/-- What leaves populations, boards, results that wait and announcements as they are can be followed
by more of the kind. -/
theorem Alike.trans (h : d.Alike d') (h' : d'.Alike d'') : d.Alike d'' where
  populations_eq := h'.populations_eq.trans h.populations_eq
  boards_eq := h'.boards_eq.trans h.boards_eq
  pending_eq := h'.pending_eq.trans h.pending_eq
  announcements_eq := h'.announcements_eq.trans h.announcements_eq
  serial_le := Nat.le_trans h.serial_le h'.serial_le

/-- A population is found, or not, as it was before. -/
theorem Alike.population?_eq (h : d.Alike d') (id : PopulationId) :
    d'.population? id = d.population? id := by
  unfold population?
  rw [h.populations_eq]

/-- To do nothing is a move, whoever is in reach. -/
theorem Moves.refl (d : Deployment σ) : Moves reach d d := .alike (.refl d)

/-- Moves within one reach are moves within any wider one. -/
theorem Moves.mono (wider : ∀ id, reach id → reach' id) (h : Moves reach d d') :
    Moves reach' d d' := by
  induction h with
  | alike same => exact .alike same
  | goesOn within goes_on => exact .goesOn (wider _ within) goes_on
  | ends within here unresolved fits => exact .ends (wider _ within) here unresolved fits
  | trans _ _ ih ih' => exact .trans ih ih'

/-- Whatever is known of moves is known of quiet ones. -/
theorem QuietMoves.moves (h : QuietMoves reach d d') : Moves reach d d' := by
  induction h with
  | alike same _ => exact .alike same
  | goesOn within goes_on => exact .goesOn within goes_on
  | ends within here unresolved fits => exact .ends within here unresolved fits
  | trans _ _ ih ih' => exact .trans ih ih'

/-- To do nothing is a quiet move. -/
theorem QuietMoves.refl (d : Deployment σ) : QuietMoves reach d d := .alike (.refl d) rfl

/-- Quiet moves within one reach are quiet moves within any wider one. -/
theorem QuietMoves.mono (wider : ∀ id, reach id → reach' id) (h : QuietMoves reach d d') :
    QuietMoves reach' d d' := by
  induction h with
  | alike same quiet => exact .alike same quiet
  | goesOn within goes_on => exact .goesOn (wider _ within) goes_on
  | ends within here unresolved fits => exact .ends (wider _ within) here unresolved fits
  | trans _ _ ih ih' => exact .trans ih ih'

/-- An operation that is made of moves is made of moves when it is done for all items of a list. -/
theorem QuietMoves.foldl {α : Type} {f : Deployment σ → α → Deployment σ} {items : List α}
    (each : ∀ d, ∀ a ∈ items, QuietMoves reach d (f d a)) (d : Deployment σ) :
    QuietMoves reach d (items.foldl f d) := by
  induction items generalizing d with
  | nil => exact .refl d
  | cons a rest ih =>
    have first := each d a List.mem_cons_self
    exact first.trans (ih (fun d b later => each d b (List.mem_cons_of_mem a later)) (f d a))

/-! ## Populations out of reach -/

/-- Waiters that are informed change no population. -/
theorem population?_informAll (outcome : Outcome) (ws : List Waiter) (d : Deployment σ)
    (id : PopulationId) : (informAll outcome ws d).population? id = d.population? id := by
  unfold population?
  rw [populations_informAll]

/-- Moves leave the populations alone that are out of reach. -/
theorem Moves.population?_eq (h : Moves reach d d') {j : PopulationId} (out : ¬reach j) :
    d'.population? j = d.population? j := by
  induction h with
  | alike same => exact same.population?_eq j
  | goesOn within _ =>
    refine population?_modifyPopulation_of_ne _ ?_ _
    rintro rfl
    exact out within
  | ends within _ _ _ =>
    rw [population?_informAll]
    refine population?_modifyPopulation_of_ne _ ?_ _
    rintro rfl
    exact out within
  | trans _ _ ih ih' => exact ih'.trans ih

/-! ## Populations -/

/-- A step of a population changes the population alone, unless it gives it an outcome; then those
who are handed out by the step are informed. -/
theorem advance_eq {id : PopulationId} {p : Population} (here : d.population? id = some p)
    (take : Population → Population × List Waiter) :
    d.advance id take =
      match (take p).1.outcome with
      | none => d.modifyPopulation id fun _ => (take p).1
      | some outcome => informAll outcome (take p).2 (d.modifyPopulation id fun _ => (take p).1) := by
  unfold advance
  generalize d.population? id = found at here
  subst here
  rfl

/-- A step by which a population can respond to what happens is a quiet move of that population. -/
theorem advance_quiet {id : PopulationId} {take : Population → Population × List Waiter}
    (responds : ∀ p : Population, p.Response (take p)) (d : Deployment σ) :
    QuietMoves (· = id) d (d.advance id take) := by
  cases here : d.population? id with
  | none =>
    have same : d.advance id take = d := by
      unfold advance
      rw [here]
    rw [same]
    exact .refl d
  | some p =>
    rw [advance_eq here]
    have response := responds p
    -- what the population answers is all that is known of it from here on
    generalize take p = after at response
    cases response with
    | @goesOn p' goes_on =>
      have quiet : QuietMoves (· = id) d (d.modifyPopulation id fun _ => p') := by
        refine .goesOn rfl fun q there => ?_
        rw [here] at there
        cases there
        exact goes_on
      cases p'.outcome with
      | none => exact quiet
      | some outcome => exact quiet
    | ends outcome unresolved fits => exact .ends rfl here unresolved fits

/-- An event from the run is handled by a quiet move of the population that listens. -/
theorem handle_quiet (d : Deployment σ) (id : PopulationId) (event : PopulationEvent) :
    QuietMoves (· = id) d (d.handle id event) :=
  advance_quiet (fun p => p.handle_response event) d

/-- An event from the run is handled by a move of the population that listens. -/
theorem handle_moves (d : Deployment σ) (id : PopulationId) (event : PopulationEvent) :
    Moves (· = id) d (d.handle id event) := (d.handle_quiet id event).moves

/-- To end a population with a failure is a quiet move of that population. -/
theorem resolve_quiet (d : Deployment σ) (id : PopulationId) (failure : Failure) :
    QuietMoves (· = id) d (d.resolve id (.error failure)) :=
  advance_quiet (fun p => Population.resolve_response (p.fits_error failure)) d

/-- A change of a run is none that services have to do with. -/
theorem modifyRun_alike (d : Deployment σ) (id : RunId) (f : Run → Run) :
    d.Alike (d.modifyRun id f) := ⟨rfl, rfl, rfl, rfl, Nat.le_refl _⟩

/-- A change of a run is a quiet move in which no population takes part. -/
theorem modifyRun_quiet (d : Deployment σ) (id : RunId) (f : Run → Run) :
    QuietMoves reach d (d.modifyRun id f) := .alike (d.modifyRun_alike id f) rfl

/-- To be called back by a run is a quiet move of the population: it begins to collect, or it ends
for want of an output step. -/
theorem collect_quiet (d : Deployment σ) (id : PopulationId) (runId : RunId) :
    QuietMoves (· = id) d (d.collect id runId) := by
  unfold collect
  split
  case h_2 => exact .refl d
  case h_1 p run here _ =>
    split
    · split
      · rename_i created
        refine .trans (.goesOn rfl fun q there => ?_) (modifyRun_quiet _ _ _)
        rw [here] at there
        cases there
        exact .started created
      · exact .refl d
    · exact d.resolve_quiet id _

/-- To be called back by a run is a move of the population. -/
theorem collect_moves (d : Deployment σ) (id : PopulationId) (runId : RunId) :
    Moves (· = id) d (d.collect id runId) := (d.collect_quiet id runId).moves

/-- To be installed on a run is a quiet move of the population, the callback by a ready run and a
refusal included. -/
theorem install_quiet (d : Deployment σ) (id : PopulationId) (runId : RunId) :
    QuietMoves (· = id) d (d.install id runId) := by
  unfold install
  split
  case h_2 => exact .refl d
  case h_1 p run here _ =>
    split
    · rename_i holder _
      have refused : QuietMoves (· = id) d
          (d.modifyPopulation id (·.refuse (.alreadyTracked holder.text))) :=
        .goesOn rfl fun q _ => .placed q.run _
      exact refused.trans (resolve_quiet _ id _)
    · rename_i claimed _
      have placed (hooks : Hooks Owner PopulationId) : QuietMoves (· = id) d
          ((d.modifyRun runId fun r => { r with hooks }).modifyPopulation id
            fun p => { p with run := some runId }) :=
        .trans (modifyRun_quiet _ _ _) (.goesOn rfl fun q _ => .placed _ q.refusal)
      -- a run that is ready already calls back at once
      cases ready : claimed.ready with
      | false =>
        simp only [Hooks.onReady, ready, Bool.false_eq_true, if_false]
        exact placed _
      | true =>
        simp only [Hooks.onReady, ready, if_true]
        exact (placed _).trans (collect_quiet _ id runId)

/-- To be installed on a run is a move of the population. -/
theorem install_moves (d : Deployment σ) (id : PopulationId) (runId : RunId) :
    Moves (· = id) d (d.install id runId) := (d.install_quiet id runId).moves

/-! ## Engines -/

/-- Every population may take part. -/
abbrev Anyone : PopulationId → Prop := fun _ => True

/-- Quiet moves with any reach are quiet moves in which anyone may take part. -/
theorem QuietMoves.anyone (h : QuietMoves reach d d') : QuietMoves Anyone d d' :=
  h.mono fun _ _ => trivial

/-- A run becomes ready by quiet moves: the populations that wait for it are called back one after
the other. -/
theorem ready_quiet (d : Deployment σ) (run : Run) : QuietMoves Anyone d (d.ready run) := by
  have collects : ∀ d : Deployment σ, ∀ id ∈ run.hooks.fire.2,
      QuietMoves Anyone d (d.collect id run.id) := fun d id _ => (d.collect_quiet id run.id).anyone
  exact .trans (modifyRun_quiet _ _ _) (.foldl collects _)

/-- A run becomes ready by moves of the populations that wait for it. -/
theorem ready_moves (d : Deployment σ) (run : Run) : Moves Anyone d (d.ready run) :=
  (d.ready_quiet run).moves

/-- An event is handed to all listeners by quiet moves. -/
theorem foldl_handle_quiet (ids : List PopulationId) (event : PopulationEvent)
    (d : Deployment σ) : QuietMoves Anyone d (ids.foldl (·.handle · event) d) :=
  .foldl (fun d id _ => (d.handle_quiet id event).anyone) d

/-- A step that an engine can do is made of quiet moves. -/
theorem perform_quiet {step : EngineStep} (h : d.perform step = .ok d') :
    QuietMoves Anyone d d' := by
  rcases perform_cases h with ⟨-, r, -, rfl⟩ | ⟨r, rfl⟩ | ⟨ids, event, rfl⟩
  · exact d.ready_quiet r
  · exact modifyRun_quiet _ _ _
  · exact d.foldl_handle_quiet ids event

/-- A step of an engine is made of quiet moves, whether it can be done or not. -/
theorem engine_quiet (d : Deployment σ) (step : EngineStep) :
    QuietMoves Anyone d (d.engine step) := by
  unfold engine
  split
  · exact perform_quiet ‹_›
  · exact .refl d

/-- An event that announces nothing is of no interest. -/
theorem log_alike (d : Deployment σ) (event : Event) (silent : event.announcement? = none) :
    d.Alike (d.log event) := by
  refine ⟨rfl, rfl, rfl, ?_, Nat.le_refl _⟩
  unfold announcements log
  rw [List.filterMap_append, List.filterMap_cons_none silent, List.filterMap_nil, List.append_nil]

/-- A script of an engine is made of quiet moves. -/
theorem performScript_quiet (d : Deployment σ) (script : List (Option EngineStep)) :
    QuietMoves Anyone d (d.performScript script) := by
  refine .foldl (fun d line _ => ?_) d
  cases line with
  | none => exact .alike (d.log_alike _ rfl) rfl
  | some step =>
    dsimp only [Option.map_some]
    split
    · rename_i performed
      exact perform_quiet (Option.some.inj performed)
    · exact .alike (d.log_alike _ rfl) rfl
    · exact .alike (d.log_alike _ rfl) rfl

/-! ## Replays and readers -/

/-- Metrics are none of what makes deployments alike. -/
theorem measure_alike (d : Deployment σ) (f : Metrics → Metrics) : d.Alike (d.measure f) :=
  ⟨rfl, rfl, rfl, rfl, Nat.le_refl _⟩

/-- To ask a run whether it is running is a quiet move in which no population takes part. -/
theorem ask_quiet (d : Deployment σ) (id : RunId) : QuietMoves reach d (d.ask id).1 := by
  unfold ask
  split
  · exact .refl d
  · exact modifyRun_quiet _ _ _

/-- To ask a run whether it is running leaves all alike that services have to do with. -/
theorem ask_alike (d : Deployment σ) (id : RunId) : d.Alike (d.ask id).1 := by
  unfold ask
  split
  · exact .refl d
  · exact modifyRun_alike _ _ _

/-- To look for a row asks a run at most, so it leaves all alike. -/
theorem look_alike (d : Deployment σ) (id : PopulationId) (position : Nat) :
    d.Alike (d.look id position).1 := by
  rcases d.fst_look_cases id position with same | ⟨run, asks⟩
  · rw [same]
    exact .refl d
  · rw [asks]
    exact d.ask_alike run

/-- What is found at a position of a population. -/
theorem look_cases {id : PopulationId} {p : Population} (here : d.population? id = some p)
    (position : Nat) :
    (∃ row, p.rows[position]? = some row ∧ d.look id position = (d, .row row)) ∨
    (p.rows[position]? = none ∧ p.closed = true ∧ d.look id position = (d, .ended)) ∨
    (p.rows[position]? = none ∧ p.closed = false ∧
      ∃ d', d.isLive id = (d', true) ∧ d.look id position = (d', .waiting) ∨
        d.isLive id = (d', false) ∧ d.look id position = (d', .ended)) := by
  unfold look
  rw [here]
  dsimp only
  cases p.rows[position]? with
  | some row => exact .inl ⟨row, rfl, rfl⟩
  | none =>
    dsimp only
    cases p.closed with
    | true => exact .inr (.inl ⟨rfl, rfl, rfl⟩)
    | false =>
      refine .inr (.inr ⟨rfl, rfl, ?_⟩)
      rw [if_neg Bool.false_ne_true]
      rcases d.isLive id with ⟨d', is_live⟩
      cases is_live with
      | true => exact ⟨d', .inl ⟨rfl, rfl⟩⟩
      | false => exact ⟨d', .inr ⟨rfl, rfl⟩⟩

/-- A row that is found is one of the population, and the look changes nothing. -/
theorem row_of_look {id : PopulationId} {position : Nat} {row : Row}
    (look : d.look id position = (d', .row row)) :
    d' = d ∧ (d.population? id).bind (·.rows[position]?) = some row := by
  cases here : d.population? id with
  | none =>
    unfold Deployment.look at look
    rw [here] at look
    cases look
  | some p =>
    rw [Option.bind_some]
    rcases d.look_cases here position with
      ⟨row', at_position, found⟩ | ⟨-, -, found⟩ | ⟨-, -, d'', ⟨-, found⟩ | ⟨-, found⟩⟩
    all_goals
      rw [look] at found
      cases found
    exact ⟨rfl, at_position⟩

/-- To offer a row to a run is made of quiet moves, since the engine may do steps meanwhile. -/
theorem offer_quiet (d : Deployment σ) (id : RunId) (milliseconds : UInt64) (row : Row) :
    QuietMoves Anyone d (d.offer id milliseconds row).1 := by
  unfold offer
  split
  · exact .alike (d.log_alike _ rfl) rfl
  · exact .alike (d.log_alike _ rfl) rfl
  · rename_i offer rest _
    have taken := d.modifyRun_alike id fun r => { r with offers := rest }
    have noted := (d.modifyRun id fun r => { r with offers := rest }).log_alike
      (.rowOffered id milliseconds row offer.accepted) rfl
    exact .trans (.alike (taken.trans noted) rfl) (performScript_quiet _ _)

end Deployment

namespace Replay

open Deployment

variable {σ : Type}

/-- To wire a replay to its target leaves all alike. -/
theorem wire_alike (r : Replay) (d : Deployment σ) : d.Alike (r.wire d) :=
  (d.log_alike _ rfl).trans (log_alike _ _ rfl)

/-- A replay proceeds by moves that no metric tells of, until it has come to its end. -/
theorem step_quiet (r : Replay) (d : Deployment σ) {stage : Stage}
    (under_way : ∀ delivered failure, stage ≠ .finishing delivered failure) :
    QuietMoves Anyone d (r.step d stage).1 := by
  rcases r.fst_step_cases d stage with
    same | wires | ⟨run, asks⟩ | ⟨-, row, -, offers⟩ | ⟨delivered, failure, ends, -⟩
  · rw [same]
    exact .refl d
  · rw [wires]
    exact .alike (r.wire_alike d) rfl
  · rw [asks]
    exact d.ask_quiet run
  · rw [offers]
    exact d.offer_quiet r.target r.putTimeout row
  · exact absurd ends (under_way delivered failure)

/-- The last step of a replay only logs and counts. -/
theorem step_finishing_alike (r : Replay) (d : Deployment σ) (delivered : Nat)
    (failure : Option Failure) : d.Alike (r.step d (.finishing delivered failure)).1 :=
  (d.log_alike (.feedEnded r.target) rfl).trans
    (measure_alike _ (·.addReplay delivered (r.dropped delivered)))

/-- A replay proceeds by moves. -/
theorem step_moves (r : Replay) (d : Deployment σ) (stage : Stage) :
    Moves Anyone d (r.step d stage).1 := by
  cases stage with
  | finishing delivered failure => exact .alike (r.step_finishing_alike d delivered failure)
  | _ =>
    refine (r.step_quiet d ?_).moves
    intro _ _ same
    cases same

end Replay

namespace Deployment

variable {σ : Type}

/-! ## Services -/

/-- Calls on stores and their log leave all alike that moves are about. -/
theorem events_alike (d : Deployment σ) (stores : Table StoreId σ) (id : StoreId)
    (calls : List StoreCall) :
    d.Alike { d with stores, events := d.events ++ calls.map (.storeCalled id) } := by
  refine ⟨rfl, rfl, rfl, ?_, Nat.le_refl _⟩
  have silent : (calls.map (Event.storeCalled id)).filterMap Event.announcement? = [] := by
    rw [List.filterMap_map, List.filterMap_eq_nil_iff]
    intro call _
    rfl
  unfold announcements
  rw [List.filterMap_append, silent, List.append_nil]

/-- Work on a store leaves all alike, whatever is done there. -/
theorem withStore_alike {α : Type} (d : Deployment σ) (id : StoreId) (otherwise : α)
    (work : Watched σ → Watched σ × α) : d.Alike (d.withStore id otherwise work).1 := by
  unfold withStore
  split
  · exact .refl d
  · exact d.events_alike _ id _

/-- No metric tells of work on a store. -/
theorem metrics_withStore {α : Type} (d : Deployment σ) (id : StoreId) (otherwise : α)
    (work : Watched σ → Watched σ × α) :
    (d.withStore id otherwise work).1.metrics = d.metrics := by
  unfold withStore
  split <;> rfl

/-- A claim of a run by somebody else leaves all alike. -/
theorem claim_alike (d : Deployment σ) (run : RunId) (owner : String) :
    d.Alike (d.claim run owner) := by
  unfold claim
  split
  · exact .refl d
  · split
    · exact modifyRun_alike _ _ _
    · exact .refl d

/-- No metric tells of a claim. -/
theorem metrics_claim (d : Deployment σ) (run : RunId) (owner : String) :
    (d.claim run owner).metrics = d.metrics := by
  unfold claim
  split
  · rfl
  · split <;> rfl

variable [ResultStore σ]

/-- A look-up works on a store and counts its outcome, so it leaves all alike. -/
theorem lookup_alike (d : Deployment σ) (s : Service) (q : Query) : d.Alike (d.lookup s q).1 := by
  have works := d.withStore_alike s.store (.ok none) (s.lookup q)
  unfold lookup
  split
  case h_1 d' failure found =>
    rw [found] at works
    exact works
  case h_2 d' found =>
    rw [found] at works
    exact works
  case h_3 d' answer found =>
    rw [found] at works
    exact works.trans (d'.measure_alike (·.add (.lookups s.name answer.outcome) 1))

/-- Every operation that is quiet is made of quiet moves. -/
theorem apply_quiet (d : Deployment σ) {op : Operation σ} (h : op.isQuiet = true) :
    QuietMoves Anyone d (d.apply op) := by
  cases op with
  | addRun name steps injectors polls offers =>
    exact .alike ⟨rfl, rfl, rfl, rfl, Nat.le_succ _⟩ rfl
  | dropRun name => exact .alike ⟨rfl, rfl, rfl, rfl, Nat.le_refl _⟩ rfl
  | claim run owner => exact .alike (d.claim_alike run owner) (d.metrics_claim run owner)
  | engine step => exact d.engine_quiet step
  | ask run => exact d.ask_quiet run
  | addStore store => exact .alike ⟨rfl, rfl, rfl, rfl, Nat.le_succ _⟩ rfl
  | alterStore store change => exact .alike ⟨rfl, rfl, rfl, rfl, Nat.le_refl _⟩ rfl
  | install id run => exact (d.install_quiet id run).anyone
  | collect id run => exact (d.collect_quiet id run).anyone
  | handle id event => exact (d.handle_quiet id event).anyone
  | replay r stage =>
    refine r.step_quiet d fun delivered failure ends => ?_
    rw [ends] at h
    cases h
  | lookup | pushDown | addPopulation | onResolved | populate | settleAt => cases h

/-- An operation that neither makes a population nor registers a waiter, and by which no service
notes anything, is made of moves. -/
theorem apply_moves (d : Deployment σ) {op : Operation σ} (h : op.isMove = true) :
    Moves Anyone d (d.apply op) := by
  cases op with
  | lookup s q => exact .alike (d.lookup_alike s q)
  | pushDown s f step =>
    let pushed := s.definition.pushFor f step
    exact .alike (d.measure_alike (·.add (.pushDowns s.name step pushed.isSome) 1))
  | replay r stage => exact r.step_moves d stage
  | addPopulation | onResolved | populate | settleAt => cases h
  | _ => exact (d.apply_quiet rfl).moves

end Deployment

end DataService
