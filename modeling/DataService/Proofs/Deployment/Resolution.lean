import DataService.Proofs.Deployment.WellKept
import DataService.Proofs.Store.Keyed

/-!
# A population resolves once

In every course of operations the outcome of a population, its phase and the end of its capture go
together, and once they are there nothing changes them (`resolves_once`). Those who registered with
a population are told its outcome when it resolves, or at once if it has, and never a second time.

The last point is a balance of what was announced (`Announced`). As long as a population is
unresolved, the tags that wait with it are those registered with it, in their order; when it
resolves they are announced, all at once. So the announcements are at all times those that the
registrations with resolved populations call for, each as often as it was registered.
-/

set_option autoImplicit false

namespace DataService

namespace Outcome

/-- The phase of a result is that of a bounded capture if the result is not complete. -/
theorem phase_eq_bounded_iff (outcome : Outcome) :
    Outcome.phase outcome = .bounded ↔
      ∃ result, outcome = .ok result ∧ result.isComplete = false := by
  cases outcome with
  | error failure => simp
  | ok result =>
    rw [phase_ok]
    cases complete : result.isComplete with
    | true => simp [complete]
    | false => simp [complete]

/-- The phase of an outcome is that of a failure if the outcome is one. -/
theorem phase_eq_failed_iff (outcome : Outcome) :
    Outcome.phase outcome = .failed ↔ ∃ failure, outcome = .error failure := by
  cases outcome with
  | error failure => simp
  | ok result =>
    rw [phase_ok]
    cases result.isComplete <;> simp

end Outcome

namespace Population

variable {p : Population}

/-- A phase that only resolved populations are in is that of the outcome. -/
theorem Sound.phase_eq_iff (h : p.Sound) {phase : Phase} (resolved : phase.isResolved = true) :
    p.phase = phase ↔ ∃ outcome, p.outcome = some outcome ∧ Outcome.phase outcome = phase := by
  unfold Sound at h
  cases settled : p.outcome with
  | none =>
    rw [settled] at h
    refine iff_of_false ?_ (by simp)
    intro same
    rw [same, resolved] at h
    cases h
  | some outcome =>
    rw [settled] at h
    rw [h]
    simp

end Population

namespace Deployment

variable {σ : Type} {d d' : Deployment σ}

/-- The outcome of a population, if it has one. -/
def outcome? (d : Deployment σ) (id : PopulationId) : Option Outcome :=
  (d.population? id).bind (·.outcome)

/-- What the registrations with populations call for: each tag with the outcome of its population,
where there is one. -/
def called (d : Deployment σ) (registered : List (PopulationId × String)) :
    List (String × Outcome) :=
  registered.filterMap fun r => (d.outcome? r.1).map fun outcome => (r.2, outcome)

/-- The tags that were registered with a population, in order. -/
def tagsWith (registered : List (PopulationId × String)) (id : PopulationId) : List String :=
  (registered.filter fun r => r.1 = id).map (·.2)

/-- What was announced is what the registrations call for; the rest waits with the populations. -/
structure Announced (d : Deployment σ) (registered : List (PopulationId × String)) : Prop where
  known : ∀ r ∈ registered, ∃ p, d.population? r.1 = some p
  waiting : ∀ id p, d.population? id = some p → p.outcome = none →
    tagsAll p.waiters = tagsWith registered id
  balanced : d.announcements.Perm (d.called registered)

variable {registered : List (PopulationId × String)}

/-- Nothing was registered in an empty deployment, and nothing announced. -/
theorem announced_empty : ({} : Deployment σ).Announced [] :=
  ⟨by simp, by simp [population?], .nil⟩

/-- What registrations call for depends on the outcomes alone. -/
theorem called_congr (same : ∀ id, d'.outcome? id = d.outcome? id)
    (registered : List (PopulationId × String)) : d'.called registered = d.called registered := by
  unfold called
  simp only [same]

/-- The outcome of a population that is there is the one that it has. -/
theorem outcome?_eq {id : PopulationId} {p : Population} (here : d.population? id = some p) :
    d.outcome? id = p.outcome := by
  unfold outcome?
  rw [here]
  rfl

/-- When a population resolves, the tags registered with it are called for. -/
theorem called_perm {id : PopulationId} {outcome : Outcome} (unresolved : d.outcome? id = none)
    (resolved : d'.outcome? id = some outcome)
    (others : ∀ j, j ≠ id → d'.outcome? j = d.outcome? j) :
    (d'.called registered).Perm
      (d.called registered ++ (tagsWith registered id).map fun tag => (tag, outcome)) := by
  unfold called tagsWith
  -- the registrations keep their order, while the announcements come in that of the resolutions
  induction registered with
  | nil => exact .nil
  | cons r rest ih =>
    by_cases own : r.1 = id
    · rw [List.filterMap_cons, List.filterMap_cons, own, unresolved, resolved,
        List.filter_cons_of_pos (by simpa using own)]
      dsimp only [Option.map_some, Option.map_none]
      rw [List.map_cons, List.map_cons]
      exact (ih.cons _).trans List.perm_middle.symm
    · rw [List.filterMap_cons, List.filterMap_cons, others r.1 own,
        List.filter_cons_of_neg (by simpa using own)]
      cases d.outcome? r.1 with
      | none => exact ih
      | some other => exact ih.cons _

/-- The tags of registrations in two parts are those of the one and of the other. -/
theorem tagsWith_append (registered registered' : List (PopulationId × String))
    (id : PopulationId) :
    tagsWith (registered ++ registered') id = tagsWith registered id ++ tagsWith registered' id := by
  unfold tagsWith
  rw [List.filter_append, List.map_append]

/-- The tags that were registered with one population all count for it. -/
theorem tagsWith_own (tags : List String) (id : PopulationId) :
    tagsWith (tags.map fun tag => (id, tag)) id = tags := by
  unfold tagsWith
  induction tags with
  | nil => rfl
  | cons tag tags ih =>
    rw [List.map_cons, List.filter_cons_of_pos (by simp), List.map_cons, ih]

/-- The tags that were registered with one population do not count for another. -/
theorem tagsWith_other (tags : List String) {id j : PopulationId} (other : j ≠ id) :
    tagsWith (tags.map fun tag => (id, tag)) j = [] := by
  unfold tagsWith
  induction tags with
  | nil => rfl
  | cons tag tags ih =>
    rw [List.map_cons, List.filter_cons_of_neg (by simpa using Ne.symm other), ih]

/-- Registrations in two parts call for what each part calls for. -/
theorem called_append (d : Deployment σ) (registered registered' : List (PopulationId × String)) :
    d.called (registered ++ registered') = d.called registered ++ d.called registered' :=
  List.filterMap_append

/-- Registrations with one population call for all of its tags, or for none while it is unresolved.
-/
theorem called_map (d : Deployment σ) (tags : List String) (id : PopulationId) :
    d.called (tags.map fun tag => (id, tag)) =
      match d.outcome? id with
      | none => []
      | some outcome => tags.map fun tag => (tag, outcome) := by
  unfold called
  cases outcome : d.outcome? id with
  | none => simp [outcome]
  | some o =>
    dsimp only
    induction tags with
    | nil => rfl
    | cons tag tags ih =>
      rw [List.map_cons, List.filterMap_cons, ih, outcome]
      rfl

/-! ## Each kind of change -/

/-- The balance depends on populations and announcements alone. -/
theorem Announced.congr (announced : d.Announced registered)
    (populations : ∀ id, d'.population? id = d.population? id)
    (announcements : d'.announcements = d.announcements) : d'.Announced registered := by
  refine ⟨?_, ?_, ?_⟩
  · intro r member
    rw [populations]
    exact announced.known r member
  · intro id p here
    rw [populations] at here
    exact announced.waiting id p here
  · have same (id : PopulationId) : d'.outcome? id = d.outcome? id := by
      unfold outcome?
      rw [populations]
    rw [announcements, called_congr same]
    exact announced.balanced

/-- The balance stays as it is when a population goes on. -/
theorem Announced.goesOn (announced : d.Announced registered) {id : PopulationId}
    {f : Population → Population} (goes_on : ∀ p, d.population? id = some p → p.GoesOn (f p)) :
    (d.modifyPopulation id f).Announced registered := by
  have there (j : PopulationId) := d.population?_modifyPopulation id f j
  have same (j : PopulationId) : (d.modifyPopulation id f).outcome? j = d.outcome? j := by
    unfold outcome?
    rw [there]
    split
    · rename_i own
      cases here : d.population? j with
      | none => rfl
      | some p =>
        rw [own] at here
        exact (goes_on p here).outcome_eq
    · rfl
  refine ⟨?_, ?_, ?_⟩
  · intro r member
    obtain ⟨p, here⟩ := announced.known r member
    rw [there, here]
    split
    · exact ⟨f p, rfl⟩
    · exact ⟨p, rfl⟩
  · intro j q at_j unresolved
    rw [there] at at_j
    split at at_j
    · rename_i own
      obtain ⟨p, here, rfl⟩ := Option.map_eq_some_iff.1 at_j
      rw [own] at here
      rw [(goes_on p here).outcome_eq] at unresolved
      rw [(goes_on p here).waiters_eq, own]
      exact announced.waiting id p here unresolved
    · exact announced.waiting j q at_j unresolved
  · rw [called_congr same]
    exact announced.balanced

/-- When a population ends, those who waited for it are told. -/
theorem Announced.ends (announced : d.Announced registered) {id : PopulationId} {p : Population}
    (here : d.population? id = some p) (unresolved : p.outcome = none) (outcome : Outcome) :
    (informAll outcome p.waiters
      (d.modifyPopulation id fun _ => p.ended outcome)).Announced registered := by
  let d' := informAll outcome p.waiters (d.modifyPopulation id fun _ => p.ended outcome)
  have own : d'.population? id = some (p.ended outcome) := by
    rw [population?_informAll, population?_modifyPopulation_self here]
  have other {j : PopulationId} (differs : j ≠ id) : d'.population? j = d.population? j := by
    rw [population?_informAll, d.population?_modifyPopulation_of_ne differs]
  refine ⟨?_, ?_, ?_⟩
  · intro r member
    by_cases same : r.1 = id
    · exact ⟨p.ended outcome, by rw [same]; exact own⟩
    · obtain ⟨q, there⟩ := announced.known r member
      exact ⟨q, (other same).trans there⟩
  · intro j q there still_open
    by_cases same : j = id
    · have ended : some (p.ended outcome) = some q := by
        rw [← own, ← same]
        exact there
      cases ended
      cases still_open
    · exact announced.waiting j q ((other same).symm.trans there) still_open
  · have told : d'.announcements = d.announcements ++
        (tagsWith registered id).map fun tag => (tag, outcome) := by
      rw [announcements_informAll, announced.waiting id p here unresolved]
      rfl
    have now_called : (d'.called registered).Perm
        (d.called registered ++ (tagsWith registered id).map fun tag => (tag, outcome)) := by
      refine called_perm ?_ (outcome?_eq own) ?_
      · rw [outcome?_eq here, unresolved]
      · intro j differs
        unfold outcome?
        rw [other differs]
    rw [show (informAll outcome p.waiters (d.modifyPopulation id fun _ => p.ended outcome)) = d'
      from rfl, told]
    exact (announced.balanced.append_right _).trans now_called.symm

/-- All moves keep the balance: a population that ends announces what waits with it, all at once. -/
theorem Moves.announced {reach : PopulationId → Prop} (h : Moves reach d d')
    (announced : d.Announced registered) : d'.Announced registered := by
  induction h with
  | alike same => exact announced.congr same.population?_eq same.announcements_eq
  | goesOn _ goes_on => exact announced.goesOn goes_on
  | ends _ here unresolved _ => exact announced.ends here unresolved _
  | trans _ _ ih ih' => exact ih' (ih announced)

/-- A population that comes has no outcome. -/
theorem outcome?_addPopulation (kept : d.WellKept) {p : Population} (unresolved : p.outcome = none)
    (id : PopulationId) : (d.addPopulation p).1.outcome? id = d.outcome? id := by
  unfold outcome?
  rw [population?_addPopulation]
  split
  · rename_i fresh
    rw [fresh, kept.population?_serial]
    exact unresolved
  · rfl

/-- Nothing is registered with a population that is new. -/
theorem Announced.adds (announced : d.Announced registered) (kept : d.WellKept)
    {p : Population} (outcome : p.outcome = none) (waiters : p.waiters = []) :
    (d.addPopulation p).1.Announced registered := by
  have there (j : PopulationId) := d.population?_addPopulation p j
  refine ⟨?_, ?_, ?_⟩
  · intro r member
    obtain ⟨q, here⟩ := announced.known r member
    rw [there]
    split
    · exact ⟨p, rfl⟩
    · exact ⟨q, here⟩
  · intro j q at_j unresolved
    rw [there] at at_j
    split at at_j
    · rename_i fresh
      cases at_j
      -- who registers does so with a population that is there
      have unregistered : registered.filter (fun r => r.1 = j) = [] := by
        rw [List.filter_eq_nil_iff]
        intro r member own
        obtain ⟨q, here⟩ := announced.known r member
        rw [of_decide_eq_true own, fresh, kept.population?_serial] at here
        cases here
      rw [waiters, tagsWith, unregistered]
      rfl
    · exact announced.waiting j q at_j unresolved
  · rw [called_congr (outcome?_addPopulation kept outcome)]
    exact announced.balanced

/-- Tags that are registered with a population that is there. -/
theorem known_append {id : PopulationId} {p : Population} (announced : d.Announced registered)
    (here : d.population? id = some p) (tags : List String) :
    ∀ r ∈ registered ++ tags.map fun tag => (id, tag), ∃ q, d.population? r.1 = some q := by
  intro r member
  rcases List.mem_append.1 member with before | now
  · exact announced.known r before
  · obtain ⟨tag, -, rfl⟩ := List.mem_map.1 now
    exact ⟨p, here⟩

/-- A waiter that joins the others of an unresolved population waits with them. -/
theorem Announced.joined (announced : d.Announced registered) {id : PopulationId} {p : Population}
    (here : d.population? id = some p) (unresolved : p.outcome = none) (waiter : Waiter) :
    (d.modifyPopulation id fun _ => { p with waiters := p.waiters ++ [waiter] }).Announced
      (registered ++ (tagsAll [waiter]).map fun tag => (id, tag)) := by
  let joined : Population := { p with waiters := p.waiters ++ [waiter] }
  have at_id := population?_modifyPopulation_self here fun _ => joined
  have elsewhere {j : PopulationId} (differs : j ≠ id) :=
    d.population?_modifyPopulation_of_ne differs fun _ => joined
  have same (j : PopulationId) :
      (d.modifyPopulation id fun _ => joined).outcome? j = d.outcome? j := by
    by_cases own : j = id
    · rw [own, outcome?_eq at_id, outcome?_eq here]
    · unfold outcome?
      rw [elsewhere own]
  refine ⟨?_, ?_, ?_⟩
  · intro r member
    by_cases own : r.1 = id
    · rw [own]
      exact ⟨joined, at_id⟩
    · rw [elsewhere own]
      exact known_append announced here (tagsAll [waiter]) r member
  · intro j q there open_still
    rw [tagsWith_append]
    by_cases own : j = id
    · rw [own] at there ⊢
      obtain rfl : joined = q := Option.some.inj (at_id.symm.trans there)
      rw [tagsWith_own, ← announced.waiting id p here unresolved]
      exact tagsAll_append p.waiters [waiter]
    · rw [elsewhere own] at there
      rw [tagsWith_other _ own, List.append_nil]
      exact announced.waiting j q there open_still
  · have calls_nothing : d.called ((tagsAll [waiter]).map fun tag => (id, tag)) = [] := by
      rw [called_map, outcome?_eq here, unresolved]
    rw [called_append, called_congr same, called_congr same, calls_nothing, List.append_nil]
    exact announced.balanced

/-- A waiter that comes to a resolved population is told the outcome, once. -/
theorem Announced.told (announced : d.Announced registered) {id : PopulationId} {p : Population}
    {outcome : Outcome} (here : d.population? id = some p) (resolved : p.outcome = some outcome)
    (waiter : Waiter) :
    (informAll outcome [waiter] (d.modifyPopulation id fun _ => p)).Announced
      (registered ++ (tagsAll [waiter]).map fun tag => (id, tag)) := by
  have populations (j : PopulationId) :
      (informAll outcome [waiter] (d.modifyPopulation id fun _ => p)).population? j =
        d.population? j := by
    rw [population?_informAll, population?_modifyPopulation_const here]
  have same (j : PopulationId) :
      (informAll outcome [waiter] (d.modifyPopulation id fun _ => p)).outcome? j =
        d.outcome? j := by
    unfold outcome?
    rw [populations]
  refine ⟨?_, ?_, ?_⟩
  · intro r member
    rw [populations]
    exact known_append announced here (tagsAll [waiter]) r member
  · intro j q there open_still
    rw [populations] at there
    have other : j ≠ id := by
      rintro rfl
      obtain rfl : p = q := Option.some.inj (here.symm.trans there)
      rw [resolved] at open_still
      cases open_still
    rw [tagsWith_append, tagsWith_other _ other, List.append_nil]
    exact announced.waiting j q there open_still
  · have calls : d.called ((tagsAll [waiter]).map fun tag => (id, tag)) =
        (tagsAll [waiter]).map fun tag => (tag, outcome) := by
      rw [called_map, outcome?_eq here, resolved]
    rw [called_append, called_congr same, called_congr same, calls, announcements_informAll]
    exact announced.balanced.append_right _

/-- A waiter that is registered waits with an unresolved population, and is told of a resolved one
at once. -/
theorem Announced.registers (announced : d.Announced registered) {id : PopulationId}
    {p : Population} (here : d.population? id = some p) (waiter : Waiter) :
    (d.onResolved id waiter).Announced
      (registered ++ (tagsAll [waiter]).map fun tag => (id, tag)) := by
  cases settled : p.outcome with
  | none =>
    rw [onResolved_of_unresolved here settled]
    exact announced.joined here settled waiter
  | some outcome =>
    rw [onResolved_of_resolved here settled]
    exact announced.told here settled waiter

/-- Every operation keeps the balance, its own registrations included. -/
theorem Changes.announced {tags : List (PopulationId × String)} (h : d.Changes tags d')
    (kept : d.WellKept) (announced : d.Announced registered) :
    d'.Announced (registered ++ tags) := by
  induction h generalizing registered with
  | moves moves =>
    rw [List.append_nil]
    exact moves.announced announced
  | adds d label key query outputStep =>
    rw [List.append_nil]
    exact announced.adds kept rfl rfl
  | registers here _ => exact announced.registers here _
  | @notes d d' populations_eq announcements_eq _ _ =>
    rw [List.append_nil]
    refine announced.congr (fun id => ?_) announcements_eq
    unfold population?
    rw [populations_eq]
  | trans first _ ih ih' =>
    rw [← List.append_assoc]
    exact ih' (first.wellKept kept) (ih kept announced)

/-! ## Courses of operations -/

variable [ResultStore σ]

/-- The tags registered in a course of operations, each with its population. -/
def registrations (d : Deployment σ) : List (Operation σ) → List (PopulationId × String)
  | [] => []
  | op :: ops => op.registered d ++ registrations (d.apply op) ops

/-- Every course of operations keeps the balance. -/
theorem announced_after (kept : d.WellKept) (announced : d.Announced registered)
    (ops : List (Operation σ)) :
    (d.after ops).Announced (registered ++ registrations d ops) := by
  induction ops generalizing d registered with
  | nil =>
    rw [registrations, List.append_nil]
    exact announced
  | cons op ops ih =>
    have change := d.apply_changes op
    have now := change.announced kept announced
    rw [registrations, ← List.append_assoc]
    exact ih (change.wellKept kept) now

/-- **A population resolves once.** In every course of operations the outcome of a population is
there exactly if its capture is closed and its phase is a resolved one; the phase is that of the
outcome, and a result has the rows that were captured. Further operations never take the phase back,
and once there is an outcome they change neither phase nor rows nor outcome. And whoever registered
has been told the outcome exactly once if there is one, and not at all otherwise. -/
theorem resolves_once (ops more : List (Operation σ)) {id : PopulationId} {p : Population}
    (here : (({} : Deployment σ).after ops).population? id = some p) :
    (p.outcome.isSome = p.closed ∧ p.closed = p.phase.isResolved) ∧
    (p.phase = .completed ↔
      ∃ result, p.outcome = some (.ok result) ∧ result.isComplete = true) ∧
    (p.phase = .bounded ↔
      ∃ result, p.outcome = some (.ok result) ∧ result.isComplete = false) ∧
    (p.phase = .failed ↔ ∃ failure, p.outcome = some (.error failure)) ∧
    (∀ result, p.outcome = some (.ok result) → result.rows = p.rows) ∧
    (∃ p', (({} : Deployment σ).after (ops ++ more)).population? id = some p' ∧
      p.phase.rank ≤ p'.phase.rank ∧
      (p.outcome ≠ none → p'.phase = p.phase ∧ p'.rows = p.rows ∧ p'.closed = p.closed ∧
        p'.outcome = p.outcome)) ∧
    (({} : Deployment σ).after ops).announcements.Perm
      ((({} : Deployment σ).after ops).called (registrations {} ops)) := by
  have kept : (({} : Deployment σ).after ops).WellKept := wellKept_after wellKept_empty ops
  have consistent : p.Consistent := kept.consistent id p here
  obtain ⟨p', here', grows⟩ := exists_grows_after kept here more
  have announced := announced_after (wellKept_empty (σ := σ)) announced_empty ops
  refine ⟨⟨consistent.closed_eq.symm, consistent.isResolved_eq.symm⟩, ?_, ?_, ?_,
    consistent.rows_eq, ?_, announced.balanced⟩
  · exact consistent.sound.phase_eq_completed_iff
  · rw [consistent.sound.phase_eq_iff rfl]
    simp only [Outcome.phase_eq_bounded_iff]
    constructor
    · rintro ⟨_, settled, result, rfl, bounded⟩
      exact ⟨result, settled, bounded⟩
    · rintro ⟨result, settled, bounded⟩
      exact ⟨.ok result, settled, result, rfl, bounded⟩
  · rw [consistent.sound.phase_eq_iff rfl]
    simp only [Outcome.phase_eq_failed_iff]
    constructor
    · rintro ⟨_, settled, failure, rfl⟩
      exact ⟨failure, settled⟩
    · rintro ⟨failure, settled⟩
      exact ⟨.error failure, settled, failure, rfl⟩
  · rw [after_append]
    exact ⟨p', here', grows.rank_le, grows.final⟩

/-- A population captures the only row of a run. One who waits for it registers another waiter when
he is informed, and someone comes too late. -/
def capturedToEnd : List (Operation KeyedMap) :=
  [.addRun "run" [("out", ["n"])] [] 0 [],
    .addPopulation "population" { pipelineVersion := 7, orderBy := [] } {} "out",
    .onResolved ⟨1⟩ (.announce "early" [.announce "nested" []]) rfl,
    .install ⟨1⟩ ⟨"run", 0⟩,
    .engine (.start "run"),
    .engine (.emit "run" "out" [.integer 1]),
    .engine (.finish "run" "out" [] false),
    .onResolved ⟨1⟩ (.announce "late" []) rfl]

/-- All who registered with the population were told once, and a failure that follows, a second
installation and another end of the run change nothing. -/
theorem resolves_once_capturedToEnd :
    let d := ({} : Deployment KeyedMap).after capturedToEnd
    let more : List (Operation KeyedMap) :=
      [.handle ⟨1⟩ (.failed (.populationFailed ["late"])), .install ⟨1⟩ ⟨"run", 0⟩,
        .engine (.finish "run" "out" [] true)]
    (d.announcements.map (·.1)).Perm ["early", "nested", "late"] ∧
      ∃ p p', d.population? ⟨1⟩ = some p ∧ p.closed = true ∧
        (({} : Deployment KeyedMap).after (capturedToEnd ++ more)).population? ⟨1⟩ = some p' ∧
        p'.phase = p.phase ∧ p'.rows = p.rows := by
  intro d more
  obtain ⟨p, here, resolved⟩ : ∃ p, d.population? ⟨1⟩ = some p ∧ p.outcome.isSome = true :=
    ⟨_, rfl, rfl⟩
  obtain ⟨⟨closed_eq, -⟩, -, -, -, -, ⟨p', here', -, final⟩, announced⟩ :=
    resolves_once capturedToEnd more here
  obtain ⟨phase_eq, rows_eq, -⟩ := final (Option.isSome_iff_ne_none.1 resolved)
  refine ⟨?_, p, p', here, closed_eq.symm.trans resolved, here', phase_eq, rows_eq⟩
  have called : (d.called (registrations {} capturedToEnd)).map (·.1) =
      ["early", "nested", "late"] := rfl
  rw [← called]
  exact announced.map _

end Deployment

end DataService
