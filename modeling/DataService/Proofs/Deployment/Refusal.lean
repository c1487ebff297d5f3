import DataService.Proofs.Deployment.Capturing
import DataService.Proofs.Deployment.Errands
import DataService.Proofs.Deployment.Touching

/-!
# Populations that are refused

A service notes a new population on its board before it knows whether the run will have it. If the run
refuses the population, the note is to be undone, and it may stand in the place of another one.

A run refuses for one reason only, which is that it has an owner (`exists_holder_of_failed`). What is
left of the attempt is the refused population alone (`NoTrace`), which has failed and which no run
knows. The place of a displaced population is given back only if that one is unresolved; it always is,
as long as no result waits to be deposited (`exists_unresolved_of_flight?`).
-/

set_option autoImplicit false

namespace DataService.Deployment

variable {σ : Type} {d d' : Deployment σ} {id : PopulationId} {p : Population} {run : RunId}
  {key : CacheKey} {failure : Failure}

/-- Nothing that was there has changed, and the boards name what they named. -/
structure NoTrace (d d' : Deployment σ) : Prop where
  boards : ∀ board, d'.board board = d.board board
  stores : d'.stores = d.stores
  runs : d'.runs = d.runs
  pending : d'.pending = d.pending
  events : d'.events = d.events
  populations : ∀ id p, d.population? id = some p → d'.population? id = some p

theorem noTrace_refl (d : Deployment σ) : d.NoTrace d :=
  ⟨fun _ => rfl, rfl, rfl, rfl, rfl, fun _ _ here => here⟩

/-- What is counted is no trace. -/
theorem NoTrace.measure (h : d.NoTrace d') (f : Metrics → Metrics) : d.NoTrace (d'.measure f) :=
  ⟨h.boards, h.stores, h.runs, h.pending, h.events, h.populations⟩

/-! ## Why a run refuses -/

/-- A claim that fails names the owner. -/
theorem claim_eq_error {hooks : Hooks Owner PopulationId} {owner holder : Owner}
    (refused : hooks.claim owner = .error holder) : hooks.owner = some holder := by
  unfold Hooks.claim at refused
  split at refused
  · rename_i held
    split at refused
    · cases refused
    · cases refused
      exact held
  · cases refused

/-- A population that is called back is not refused for that. -/
theorem refusal_collect (here : d.population? id = some p) (run : RunId) :
    ((d.collect id run).population? id).bind (·.refusal) = p.refusal := by
  rcases d.collect_cases id run with ⟨same, -⟩ | ⟨q, r, -, -, -, same⟩ | ⟨q, failure, -, same⟩
  · rw [same, here]
    rfl
  · have collecting : (d.modifyPopulation id fun p => { p with phase := .collecting }).population? id =
        some { p with phase := .collecting } := population?_modifyPopulation_self here _
    rw [same]
    exact congrArg (Option.bind · _) collecting
  · rw [same]
    unfold resolve
    rw [population?_advance, if_pos rfl, here]
    exact p.refusal_resolve _

/-- A population is refused by a run that exists and has another owner. -/
theorem exists_holder_of_refusal (here : d.population? id = some p) (unrefused : p.refusal = none)
    (refused : ((d.install id run).population? id).bind (·.refusal) = some failure) :
    ∃ r holder, d.run? run = some r ∧ r.hooks.claim (.population id p.label) = .error holder ∧
      failure = .alreadyTracked holder.text := by
  cases there : d.run? run with
  | none =>
    have nothing : d.install id run = d := by
      unfold install
      rw [here, there]
    rw [nothing, here, Option.bind_some, unrefused] at refused
    cases refused
  | some r =>
    cases granted : r.hooks.claim (.population id p.label) with
    | error holder =>
      rw [refusal_install here there unrefused granted] at refused
      exact ⟨r, holder, rfl, granted, (Option.some.inj refused).symm⟩
    | ok claimed =>
      have placed (hooks : Hooks Owner PopulationId) :
          (d.place id run hooks).population? id = some { p with run := some run } :=
        population?_modifyPopulation_self (d := d.modifyRun run fun r => { r with hooks }) here _
      cases ready : claimed.ready with
      | false =>
        rw [install_of_unready here there granted ready, placed, Option.bind_some, unrefused]
          at refused
        cases refused
      | true =>
        rw [install_of_ready here there granted ready, refusal_collect (placed claimed), unrefused]
          at refused
        cases refused

/-- If a population is refused for which no one waits, then it alone has changed. -/
theorem install_of_refused_alone {r : Run} (here : d.population? id = some p)
    (there : d.run? run = some r) {holder : Owner}
    (refused : r.hooks.claim (.population id p.label) = .error holder) (unresolved : p.outcome = none)
    (alone : p.waiters = []) :
    d.install id run = (d.modifyPopulation id (·.refuse (.alreadyTracked holder.text))).modifyPopulation
      id fun _ => (p.refuse (.alreadyTracked holder.text)).ended
        (.error (.alreadyTracked holder.text)) := by
  let failure := Failure.alreadyTracked holder.text
  have noted : (d.modifyPopulation id (·.refuse failure)).population? id = some (p.refuse failure) :=
    population?_modifyPopulation_self here _
  have open_still : (p.refuse failure).outcome = none := unresolved
  rw [install_of_refused here there refused]
  unfold resolve
  rw [advance_eq noted, Population.resolve_eq open_still]
  show informAll _ p.waiters _ = _
  rw [alone, informAll]

section

variable (s : Service) (q : Query) (label : String)

/-! ## What is undone -/

/-- The board of a service is as it was when the note of a refused population has been taken back,
unless the population that it displaced has resolved. -/
theorem board_refused (kept : d.WellKept)
    (open_still : ∀ id, d.flight? s.board key = some id →
      ∃ p, d.population? id = some p ∧ p.outcome = none) (board : BoardId) :
    (((d.entered s q key label).install ⟨d.serial⟩ run).withdraw s.board key ⟨d.serial⟩
      (d.flight? s.board key)).board board = d.board board := by
  let installed := (d.entered s q key label).install ⟨d.serial⟩ run
  have noted (board : BoardId) : installed.board board =
      if board = s.board then (d.board s.board).put key ⟨d.serial⟩ else d.board board := by
    unfold Deployment.board
    rw [(installed_quiet s q key run label d).1]
    exact board_modifyBoard _ s.board (·.put key ⟨d.serial⟩) board
  unfold withdraw
  rw [board_modifyBoard]
  by_cases own : board = s.board
  · have found : ((d.board s.board).put key ⟨d.serial⟩).get? key = some ⟨d.serial⟩ :=
      Table.get?_put_self _ _ _
    rw [if_pos own, noted, if_pos rfl, if_pos found, own]
    cases displaced : d.flight? s.board key with
    | none => exact Table.erase_put_of_none displaced _
    | some previous =>
      obtain ⟨p, here, unresolved⟩ := open_still previous displaced
      have unresolved_still : installed.isResolved previous = false := by
        rw [isResolved_eq (population?_installed_of_some s q key run label kept here)
          (kept.consistent previous p here).sound, unresolved]
        rfl
      rw [Option.filter_some, unresolved_still]
      exact Table.put_put_of_some displaced _
  · rw [if_neg own, noted, if_neg own]

/-- A service that fails to start a population has met a run with an owner, and has taken its note
back. -/
theorem exists_holder_of_failed {displaced : Option PopulationId}
    (failed : (d.startPopulation s q key run label displaced).2 = .error failure) :
    ∃ r holder, d.run? run = some r ∧
      r.hooks.claim (.population ⟨d.serial⟩ label) = .error holder ∧
      failure = .alreadyTracked holder.text ∧
      (d.startPopulation s q key run label displaced).1 =
        (((d.entered s q key label).install ⟨d.serial⟩ run).withdraw s.board key ⟨d.serial⟩
          displaced).reportFlights s := by
  have here := (population?_entered s q key label d ⟨d.serial⟩).trans (if_pos rfl)
  have refused : (((d.entered s q key label).install ⟨d.serial⟩ run).population? ⟨d.serial⟩).bind
      (·.refusal) = some failure := by
    rw [snd_startPopulation] at failed
    cases refused : (((d.entered s q key label).install ⟨d.serial⟩ run).population?
        ⟨d.serial⟩).bind (·.refusal) with
    | none =>
      rw [refused, Option.elim_none] at failed
      cases failed
    | some why =>
      rw [refused, Option.elim_some] at failed
      rw [Except.error.inj failed]
  obtain ⟨r, holder, there, claimed, why⟩ := exists_holder_of_refusal here rfl refused
  refine ⟨r, holder, there, claimed, why, ?_⟩
  rcases d.startPopulation_cases s q key run label displaced with ⟨failure', same⟩ | begun
  · exact congrArg Prod.fst same
  · rw [begun] at failed
    cases failed

/-- A refused population is left behind, and nothing else. -/
theorem noTrace_withdraw (kept : d.WellKept)
    (open_still : ∀ id, d.flight? s.board key = some id →
      ∃ p, d.population? id = some p ∧ p.outcome = none)
    {r : Run} (there : d.run? run = some r) {holder : Owner}
    (claimed : r.hooks.claim (.population ⟨d.serial⟩ label) = .error holder) :
    let d' := ((d.entered s q key label).install ⟨d.serial⟩ run).withdraw s.board key ⟨d.serial⟩
      (d.flight? s.board key)
    d.NoTrace d' ∧ d'.metrics = d.metrics ∧
    ∀ id p, d'.population? id = some p → d.population? id = some p ∨
      id = ⟨d.serial⟩ ∧ p.outcome = some (.error (.alreadyTracked holder.text)) ∧ p.run = none ∧
        p.waiters = [] := by
  intro d'
  let fresh : Population := { label, key, query := q, outputStep := s.definition.outputStep }
  let failure := Failure.alreadyTracked holder.text
  let refused := (fresh.refuse failure).ended (.error failure)
  have here : (d.entered s q key label).population? ⟨d.serial⟩ = some fresh :=
    (population?_entered s q key label d ⟨d.serial⟩).trans (if_pos rfl)
  have installed_eq := install_of_refused_alone here there claimed rfl rfl
  obtain ⟨stores, runs, pending, events, metrics⟩ :
      d'.stores = d.stores ∧ d'.runs = d.runs ∧ d'.pending = d.pending ∧ d'.events = d.events ∧
        d'.metrics = d.metrics := by
    rw [show d' = _ from congrArg (withdraw · s.board key _ _) installed_eq]
    exact ⟨rfl, rfl, rfl, rfl, rfl⟩
  refine ⟨⟨board_refused s q label kept open_still, stores, runs, pending, events,
    fun _ _ => population?_installed_of_some s q key run label kept⟩, metrics, fun id p at_id => ?_⟩
  have at_id : ((d.entered s q key label).install ⟨d.serial⟩ run).population? id = some p := at_id
  by_cases new : id = ⟨d.serial⟩
  · have ended : ((d.entered s q key label).install ⟨d.serial⟩ run).population? ⟨d.serial⟩ =
        some refused := by
      rw [installed_eq]
      exact population?_modifyPopulation_self (population?_modifyPopulation_self here _) _
    rw [new, ended] at at_id
    cases at_id
    exact .inr ⟨new, rfl, rfl, rfl⟩
  · have elsewhere := ((d.entered s q key label).install_moves ⟨d.serial⟩ run).population?_eq new
    rw [elsewhere, population?_entered, if_neg new] at at_id
    exact .inl at_id

end

variable [ResultStore σ]

/-- As long as no result waits to be deposited, a board names none but unresolved populations. -/
theorem exists_unresolved_of_flight? {ops : List (Operation σ)} {board : BoardId}
    (settled : (({} : Deployment σ).after ops).pending = [])
    (named : (({} : Deployment σ).after ops).flight? board key = some id) :
    ∃ p, (({} : Deployment σ).after ops).population? id = some p ∧ p.outcome = none := by
  have kept : (({} : Deployment σ).after ops).WellKept := wellKept_after wellKept_empty ops
  have names := (namesLatest_empty board key).after wellKept_empty ops
  obtain ⟨p, here⟩ := names.known id (names.only id named)
  refine ⟨p, here, Classical.byContradiction fun resolved => ?_⟩
  have none_waits : (({} : Deployment σ).after ops).waitingFor id = [] := by
    unfold waitingFor
    rw [settled, List.filter_nil]
  exact not_inFlight kept here resolved none_waits (inFlight_of_flight? named)

/-- A population that was made by an operation which left the runs as they were is known to none of
them, and never will be if no hands are laid on it from outside. -/
theorem untied_after (known : d.KnowsExisting) (kept' : d'.WellKept)
    (runs : d'.runs = d.runs) (new : d.population? id = none) (here : d'.population? id = some p)
    {later : List (Operation σ)} (free : ∀ op ∈ later, op.drives id = false) :
    (∀ run, ¬(d'.after later).TiedTo id run) ∧
      ∃ p', (d'.after later).population? id = some p' ∧ p'.run = p.run ∧ p'.outcome = p.outcome := by
  have untied (run : RunId) : ¬d'.TiedTo id run := by
    intro tied
    obtain ⟨q, there⟩ := known id run ((tiedTo_congr runs).1 tied)
    rw [new] at there
    cases there
  have left := leftToRuns_after kept' here free
  obtain ⟨p', there, run_eq, idle⟩ := left.stays p here
  exact ⟨fun run tied => untied run (left.ties run tied), p', there, run_eq, idle untied⟩

/-- **A population that is refused leaves no trace.** When a service fails to populate its cache in a
deployment in which no result waits to be deposited, then it has no result cache, or the query has no
fingerprint, or the run has an owner, which the failure names. All boards name what they named before
and in the same order, so that a population that had been displaced is back in its place; stores, runs
with their owners, other populations, and all that could be seen from outside are unchanged; and the
metrics at most report anew how many populations are in flight. All that may be new is a population
that has failed for the same reason. No run will call it back and it listens to no step, whatever
comes later, unless hands are laid on it from outside; and the service hands it out to no one. -/
theorem refused_leaves_no_trace (ops : List (Operation σ)) (s : Service) (q : Query) (run : RunId)
    (label : String) (failure : Failure) (settled : (({} : Deployment σ).after ops).pending = [])
    (failed : ((({} : Deployment σ).after ops).populate s q run label).2 = .error failure) :
    let d := ({} : Deployment σ).after ops
    let d' := (d.populate s q run label).1
    (s.definition.resultCache? = none ∧ failure = .configuration (.noResultCache s.name) ∨
      q.fingerprint = none ∧ failure = .configuration .noFingerprint ∨
      ∃ r holder, d.run? run = some r ∧ r.hooks.owner = some holder ∧
        failure = .alreadyTracked holder.text) ∧
    d.NoTrace d' ∧
    (d'.metrics = d.metrics ∨
      d'.metrics = d.metrics.setInFlight s.name (d.board s.board).size) ∧
    ∀ id p, d'.population? id = some p → d.population? id = some p ∨
      d.population? id = none ∧ p.outcome = some (.error failure) ∧ p.waiters = [] ∧
      ∀ later : List (Operation σ), (∀ op ∈ later, op.drives id = false) →
        (∀ run, ¬(d'.after later).TiedTo id run) ∧
        ∃ p', (d'.after later).population? id = some p' ∧ p'.run = none ∧
          p'.outcome = some (.error failure) := by
  intro d d'
  have kept : d.WellKept := wellKept_after wellKept_empty ops
  have kept' : d'.WellKept :=
    (d.apply_changes (.populate s q run label : Operation σ)).wellKept kept
  rcases d.populate_answers s q run label with
    ⟨why, reason, same⟩ | ⟨key, -, ⟨current, -, -, attached⟩ | start⟩
  · obtain rfl : why = failure := Except.error.inj ((congrArg Prod.snd same).symm.trans failed)
    have same : d' = d := congrArg Prod.fst same
    rw [same]
    exact ⟨reason.imp_right .inl, noTrace_refl d, .inl rfl, fun _ _ here => .inl here⟩
  · cases (congrArg Prod.snd attached).symm.trans failed
  · have started : d' = (d.startPopulation s q key run label (d.flight? s.board key)).1 :=
      congrArg Prod.fst start
    obtain ⟨r, holder, there, claimed, rfl, left⟩ :=
      exists_holder_of_failed s q label ((congrArg Prod.snd start).symm.trans failed)
    obtain ⟨withdrawn, metrics, origin⟩ := noTrace_withdraw s q label kept
      (fun id named => exists_unresolved_of_flight? settled named) there claimed
    have no_trace : d.NoTrace d' := by
      rw [started, left]
      exact withdrawn.measure _
    have counted : d'.metrics = d.metrics.setInFlight s.name (d.board s.board).size := by
      rw [started, left, ← withdrawn.boards, ← metrics]
      rfl
    refine ⟨.inr (.inr ⟨r, holder, there, claim_eq_error claimed, rfl⟩), no_trace, .inr counted,
      fun id p here => ?_⟩
    have here' := here
    rw [started, left] at here'
    refine (origin id p here').imp_right ?_
    rintro ⟨rfl, ended, off_run, alone⟩
    have new := kept.population?_serial
    refine ⟨new, ended, alone, fun later free => ?_⟩
    obtain ⟨untied, p', there, run_eq, outcome_eq⟩ :=
      untied_after (knowsExisting_after ops) kept' no_trace.runs new here free
    exact ⟨untied, p', there, run_eq.trans off_run, outcome_eq.trans ended⟩

/-- A population with a cap is in flight on one run, and another run has an owner. -/
def cappedAndOwned : List (Operation KeyedMap) :=
  [.addRun "first" [("out", ["n"])] [] 0 [],
    .addRun "second" [("out", ["n"])] [] 0 [],
    .addStore {},
    .populate numbersService { fingerprint := some 7, rowLimit := some 5 } ⟨"first", 0⟩ "capped",
    .populate numbersService { fingerprint := some 8 } ⟨"second", 1⟩ "owner"]

/-- A query without a cap displaces the capped population and is refused by the second run. The board
names the capped population again, in its old place, and the second run starts and ends without the
one that was refused. -/
theorem refused_leaves_no_trace_displaced :
    let d := ({} : Deployment KeyedMap).after cappedAndOwned
    let refusal := d.populate numbersService { fingerprint := some 7 } ⟨"second", 1⟩ "refused"
    let later : List (Operation KeyedMap) :=
      [.engine (.start "second"), .engine (.finish "second" "out" [] false)]
    refusal.2 = .error (.alreadyTracked "owner") ∧
    (d.board ⟨0⟩).entries =
      [({ pipelineVersion := 7 }, ⟨3⟩), ({ pipelineVersion := 8 }, ⟨4⟩)] ∧
    refusal.1.board ⟨0⟩ = d.board ⟨0⟩ ∧ refusal.1.runs = d.runs ∧
    ∀ run, ¬(refusal.1.after later).TiedTo ⟨5⟩ run := by
  intro d refusal later
  have failed : refusal.2 = .error (.alreadyTracked "owner") := rfl
  obtain ⟨-, no_trace, -, origin⟩ := refused_leaves_no_trace cappedAndOwned numbersService
    { fingerprint := some 7 } ⟨"second", 1⟩ "refused" _ rfl failed
  refine ⟨failed, rfl, no_trace.boards ⟨0⟩, no_trace.runs, ?_⟩
  rcases origin ⟨5⟩ _ rfl with before | ⟨-, -, -, unknown⟩
  · cases before
  · exact (unknown later (by decide)).1

end DataService.Deployment
