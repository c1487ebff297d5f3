import DataService.Proofs.Deployment.Acts
import DataService.Proofs.Deployment.Runs
import DataService.Proofs.Deployment.Stores
import Mathlib.Data.List.Basic

/-!
# A failure stays where it is

A population may fail while it is installed, when its run becomes ready, on a row or at the end of the
run, and all the while other populations go on. `Contained` says what may differ after something was
done to a population that fails: that population, its own place on the board, and that its waiters are
told. It holds of every act that has the population for its subject (`contained_act`), whichever
population has taken its place on the board in the meantime and however many services share the board.

`failure_contained` puts this together along a course of operations: nothing is ever lined up to be
deposited for a population that fails, so no store is called on its behalf; no board names it any
more; and whoever registered with it is told the failure.
-/

set_option autoImplicit false

namespace DataService.Deployment

variable {σ : Type} {d d' d'' : Deployment σ} {id : PopulationId} {failure : Failure}
  {p : Population}

/-- Nothing is different but a population that fails, its own entries on boards, and what its waiters
have been told. -/
structure Contained (id : PopulationId) (failure : Failure) (d d' : Deployment σ) : Prop where
  stores_eq : d'.stores = d.stores
  pending_eq : d'.pending = d.pending
  others : ∀ j, j ≠ id → d'.population? j = d.population? j
  flights : ∀ board key, d'.flight? board key = d.flight? board key ∨
    d.flight? board key = some id ∧ d'.flight? board key = none
  told : ∃ tags : List String,
    d'.events = d.events ++ tags.map fun tag => .resolved tag (.error failure)

/-- If nothing is done nothing is different. -/
theorem Contained.refl (d : Deployment σ) : d.Contained id failure d where
  stores_eq := rfl
  pending_eq := rfl
  others _ _ := rfl
  flights _ _ := .inl rfl
  told := ⟨[], (List.append_nil _).symm⟩

/-- What is done to a population that fails is contained in several acts as in each of them. -/
theorem Contained.trans (h : Contained id failure d d') (h' : Contained id failure d' d'') :
    Contained id failure d d'' where
  stores_eq := h'.stores_eq.trans h.stores_eq
  pending_eq := h'.pending_eq.trans h.pending_eq
  others j other := (h'.others j other).trans (h.others j other)
  flights board key := by
    rcases h'.flights board key with same | ⟨named, gone⟩
    · rw [same]
      exact h.flights board key
    · rcases h.flights board key with same | ⟨-, gone'⟩
      · exact .inr ⟨same.symm.trans named, gone⟩
      · rw [gone'] at named
        cases named
  told := by
    obtain ⟨tags, told⟩ := h.told
    obtain ⟨tags', told'⟩ := h'.told
    exact ⟨tags ++ tags', by rw [told', told, List.append_assoc, List.map_append]⟩

/-! ## Single acts -/

/-- A change of the population itself is contained. -/
theorem contained_modifyPopulation (d : Deployment σ) (f : Population → Population) :
    d.Contained id failure (d.modifyPopulation id f) :=
  { Contained.refl d with others := fun _ other => d.population?_modifyPopulation_of_ne other f }

/-- A change of a run is none that other populations, boards or stores would notice. -/
theorem contained_modifyRun (d : Deployment σ) (run : RunId) (f : Run → Run) :
    d.Contained id failure (d.modifyRun run f) := { Contained.refl d with }

/-- Waiters that are informed of a failure take nothing off the boards but the population that their
errands are about. -/
theorem flight?_informAll_error_cases {ws : List Waiter}
    (own : ∀ errand ∈ errandsAll ws, errand.population = id) (board : BoardId) (key : CacheKey) :
    (informAll (.error failure) ws d).flight? board key = d.flight? board key ∨
      d.flight? board key = some id ∧
        (informAll (.error failure) ws d).flight? board key = none := by
  have still := flight?_informAll_error_iff failure ws d board key
  cases after : (informAll (.error failure) ws d).flight? board key with
  | some j => exact .inl ((still j).1 after).1.symm
  | none =>
    cases before : d.flight? board key with
    | none => exact .inl rfl
    | some j =>
      -- it was named before and is not now, so some errand concerns it
      refine .inr ⟨?_, rfl⟩
      by_cases same : j = id
      · rw [same]
      · have spared : ∀ errand ∈ errandsAll ws, errand.concerns board key j = false := by
          intro errand on_errand
          refine Bool.eq_false_iff.2 fun concerns => same ?_
          rw [← Delivery.population_eq_of_concerns concerns, own errand on_errand]
        rw [(still j).2 ⟨before, spared⟩] at after
        cases after

/-- A population that takes a step has no outcome but the failure after it, and hands out no errands
but its own. -/
theorem contained_advance {take : Population → Population × List Waiter}
    (own : ∀ p, d.population? id = some p → ∀ errand ∈ errandsAll (take p).2,
      errand.population = id)
    (fails : ∀ outcome, (d.advance id take).outcome? id = some outcome → outcome = .error failure) :
    d.Contained id failure (d.advance id take) := by
  cases here : d.population? id with
  | none =>
    have same : d.advance id take = d := by
      unfold advance
      rw [here]
    rw [same]
    exact .refl d
  | some p =>
    have after : (d.advance id take).outcome? id = (take p).1.outcome := by
      unfold outcome?
      rw [population?_advance, if_pos rfl, here]
      rfl
    rw [after] at fails
    rw [advance_eq here]
    have changed : d.Contained id failure (d.modifyPopulation id fun _ => (take p).1) :=
      d.contained_modifyPopulation _
    cases settled : (take p).1.outcome with
    | none => exact changed
    | some outcome =>
      obtain rfl := fails outcome settled
      refine changed.trans ⟨stores_informAll _ _ _, pending_informAll_error _ _ _, ?_, ?_, ?_⟩
      · exact fun j _ => population?_informAll _ _ _ j
      · exact flight?_informAll_error_cases (own p here)
      · exact ⟨_, events_informAll _ _ _⟩

/-- The errands that a population hands out are all on its own behalf. -/
theorem own_of_response (kept : d.WellKept) (here : d.population? id = some p)
    {answer : Population × List Waiter} (response : p.Response answer) :
    ∀ errand ∈ errandsAll answer.2, errand.population = id := by
  cases response with
  | goesOn _ =>
    intro errand on_errand
    cases on_errand
  | ends _ _ _ => exact kept.own id p here

/-- An event on which a population fails is contained in it. -/
theorem contained_handle (kept : d.WellKept) (event : PopulationEvent)
    (fails : ∀ outcome, (d.handle id event).outcome? id = some outcome →
      outcome = .error failure) : d.Contained id failure (d.handle id event) :=
  contained_advance (fun p here => own_of_response kept here (p.handle_response event)) fails

/-- A failure with which a population ends is contained in it. -/
theorem contained_resolve (kept : d.WellKept) (failure' : Failure)
    (fails : ∀ outcome, (d.resolve id (.error failure')).outcome? id = some outcome →
      outcome = .error failure) : d.Contained id failure (d.resolve id (.error failure')) :=
  contained_advance (fun p here => own_of_response kept here
    (Population.resolve_response (p.fits_error failure'))) fails

/-- A callback on which a population fails is contained in it. -/
theorem contained_collect (kept : d.WellKept) (run : RunId)
    (fails : ∀ outcome, (d.collect id run).outcome? id = some outcome →
      outcome = .error failure) : d.Contained id failure (d.collect id run) := by
  rcases d.collect_cases id run with ⟨same, -⟩ | ⟨p, r, -, -, -, starts⟩ | ⟨p, failure', -, missing⟩
  · rw [same]
    exact .refl d
  · rw [starts]
    exact (d.contained_modifyPopulation _).trans (contained_modifyRun _ run _)
  · rw [missing] at fails ⊢
    exact contained_resolve kept failure' fails

/-- To put a population on a run is a move of that population. -/
theorem place_moves (d : Deployment σ) (id : PopulationId) (run : RunId)
    (hooks : Hooks Owner PopulationId) : Moves (· = id) d (d.place id run hooks) :=
  .trans (.alike (d.modifyRun_alike run fun r => { r with hooks }))
    (.goesOn rfl fun p _ => .placed (some run) p.refusal)

/-- To put a population on a run is contained in it. -/
theorem contained_place (d : Deployment σ) (run : RunId) (hooks : Hooks Owner PopulationId) :
    d.Contained id failure (d.place id run hooks) :=
  (d.contained_modifyRun run _).trans (contained_modifyPopulation _ _)

/-- Also a population that is refused, or fails at once because its run is ready, fails alone. -/
theorem contained_install (kept : d.WellKept) (run : RunId)
    (fails : ∀ outcome, (d.install id run).outcome? id = some outcome →
      outcome = .error failure) : d.Contained id failure (d.install id run) := by
  rcases d.install_cases id run with
    same | ⟨failure', refused⟩ | ⟨p, r, claimed, -, -, -, ⟨-, waits⟩ | ⟨-, called⟩⟩
  · rw [same]
    exact .refl d
  · rw [refused] at fails ⊢
    have noted : Moves (· = id) d (d.modifyPopulation id (·.refuse failure')) :=
      .goesOn rfl fun p _ => .placed p.run _
    exact (d.contained_modifyPopulation _).trans
      (contained_resolve (noted.wellKept kept) failure' fails)
  · rw [waits]
    exact d.contained_place run _
  · rw [called] at fails ⊢
    exact (d.contained_place run claimed).trans
      (contained_collect ((d.place_moves id run claimed).wellKept kept) run fails)

/-- One who registers with the population brings no errand after another one. -/
theorem contained_register {waiter : Waiter}
    (own : ∀ errand ∈ errandsAll [waiter], errand.population = id)
    (fails : ∀ outcome, (d.onResolved id waiter).outcome? id = some outcome →
      outcome = .error failure) : d.Contained id failure (d.onResolved id waiter) := by
  refine contained_advance (fun p _ errand on_errand => ?_) fails
  cases settled : p.outcome with
  | none =>
    rw [Population.onResolved_of_none settled] at on_errand
    cases on_errand
  | some outcome =>
    rw [Population.onResolved_of_some settled] at on_errand
    exact own errand on_errand

/-- Whatever is done to a population that fails, before it does, when it does and later on, is
contained. -/
theorem contained_act {a : Act σ} (lawful : a.Lawful) (kept : d.WellKept)
    (about : a.subject? = some id)
    (fails : ∀ outcome, (d.act a).outcome? id = some outcome → outcome = .error failure) :
    d.Contained id failure (d.act a) := by
  cases a with
  | aside change => cases about
  | handle j event =>
    cases about
    exact contained_handle kept event fails
  | collect j run =>
    cases about
    exact contained_collect kept run fails
  | install j run =>
    cases about
    exact contained_install kept run fails
  | register j waiter =>
    cases about
    exact contained_register lawful fails

/-! ## Courses of operations -/

/-- An outcome is kept as the population grows. -/
theorem outcome?_of_grows {p' : Population} (here : d.population? id = some p)
    (there : d'.population? id = some p') (grows : p.Grows p') {outcome : Outcome}
    (resolved : d.outcome? id = some outcome) : d'.outcome? id = some outcome := by
  rw [outcome?_eq here] at resolved
  have final := grows.final (by rw [resolved]; exact Option.some_ne_none outcome)
  rw [outcome?_eq there, final.2.2.2, resolved]

/-- An outcome is that of a population which is there. -/
theorem exists_of_outcome? {outcome : Outcome} (resolved : d.outcome? id = some outcome) :
    ∃ p, d.population? id = some p ∧ p.outcome = some outcome := Option.bind_eq_some_iff.1 resolved

/-- The tags registered with a population are called for with its outcome. -/
theorem called_own {outcome : Outcome} (resolved : d.outcome? id = some outcome)
    (registered : List (PopulationId × String)) :
    d.called (registered.filter fun r => r.1 = id) =
      (tagsWith registered id).map fun tag => (tag, outcome) := by
  unfold tagsWith called
  rw [List.map_map, ← List.filterMap_eq_map]
  refine List.filterMap_congr fun r member => ?_
  have about : r.1 = id := of_decide_eq_true (List.mem_filter.1 member).2
  rw [about, resolved]
  rfl

/-- What registrations call for, those with one population apart. -/
theorem called_perm_parted (d : Deployment σ) (id : PopulationId)
    (registered : List (PopulationId × String)) :
    (d.called registered).Perm (d.called (registered.filter fun r => r.1 ≠ id) ++
      d.called (registered.filter fun r => r.1 = id)) := by
  have parted := List.filter_append_perm (fun r : PopulationId × String => decide (r.1 = id)) registered
  simp only [← decide_not] at parted
  rw [← called_append]
  exact (parted.symm.trans List.perm_append_comm).filterMap _

/-- What waits to be deposited is the outcome of its population. -/
theorem outcome?_of_pending (kept : d.WellKept) {waiting : Delivery × CachedResult}
    (waits : waiting ∈ d.pending) :
    d.outcome? waiting.1.population = some (.ok waiting.2) := by
  obtain ⟨p, here, ended⟩ := kept.obtained waiting waits
  exact (outcome?_eq here).trans ended

variable [ResultStore σ]

/-- An outcome is kept in every course of operations. -/
theorem outcome?_after (kept : d.WellKept) {outcome : Outcome}
    (resolved : d.outcome? id = some outcome) (ops : List (Operation σ)) :
    (d.after ops).outcome? id = some outcome := by
  obtain ⟨p, here, -⟩ := exists_of_outcome? resolved
  obtain ⟨p', there, grows⟩ := exists_grows_after kept here ops
  exact outcome?_of_grows here there grows resolved

/-- No operation that touches stores decides about a population. -/
theorem outcome?_apply_of_usesStores (d : Deployment σ) {op : Operation σ}
    (uses : op.usesStores = true) (id : PopulationId) : (d.apply op).outcome? id = d.outcome? id := by
  have of_same {d' : Deployment σ} (same : d'.populations = d.populations) :
      d'.outcome? id = d.outcome? id := by
    unfold outcome? population?
    rw [same]
  cases op with
  | addStore store => rfl
  | alterStore store change => rfl
  | lookup s q => exact of_same (d.lookup_alike s q).populations_eq
  | settleAt position => exact of_same (d.populations_settleAt position)
  | _ => cases uses

/-- In a course in which a population fails, no result ever waits to be deposited for it. -/
theorem not_pending_of_failed (kept : d.WellKept) {ops : List (Operation σ)}
    (failed : (d.after ops).outcome? id = some (.error failure)) :
    ∀ waiting ∈ d.pending, waiting.1.population ≠ id := by
  rintro waiting waits rfl
  have resolved := outcome?_after kept (outcome?_of_pending kept waits) ops
  rw [failed] at resolved
  cases resolved

/-- No board names a population that has failed. -/
theorem flight?_ne_of_failed {ops : List (Operation σ)}
    (failed : (({} : Deployment σ).after ops).outcome? id = some (.error failure)) (board : BoardId)
    (key : CacheKey) : (({} : Deployment σ).after ops).flight? board key ≠ some id := by
  intro named
  have kept : (({} : Deployment σ).after ops).WellKept := wellKept_after wellKept_empty ops
  obtain ⟨p, here, ended⟩ := exists_of_outcome? failed
  have none_waits : (({} : Deployment σ).after ops).waitingFor id = [] := by
    unfold waitingFor
    rw [List.filter_eq_nil_iff]
    rintro waiting waits about
    rw [← of_decide_eq_true about, outcome?_of_pending kept waits] at failed
    cases failed
  refine not_inFlight kept here ?_ none_waits (inFlight_of_flight? named)
  rw [ended]
  exact Option.some_ne_none _

/-- What an operation does in the course of which, or before or after which, a population fails:
taken apart into acts, none but those on the population decide about it, and these are contained. If
it is by the operation that the population fails, the operation touches no store at all. -/
structure FailsAlone (d : Deployment σ) (op : Operation σ) (id : PopulationId) (failure : Failure) :
    Prop where
  apply_eq : d.apply op = d.proceed (op.acts d)
  decided : ∀ acts a acts', op.acts d = acts ++ a :: acts' → a.subject? ≠ some id →
    ((d.proceed acts).act a).outcome? id = (d.proceed acts).outcome? id
  contained : ∀ acts a acts', op.acts d = acts ++ a :: acts' → a.subject? = some id →
    (d.proceed acts).Contained id failure ((d.proceed acts).act a)
  stores_eq : (d.apply op).outcome? id ≠ d.outcome? id → (d.apply op).stores = d.stores

/-- A population that has failed in the end fails alone at each operation on the way. -/
theorem failsAlone_of_failed (kept : d.WellKept) (op : Operation σ) {later : List (Operation σ)}
    (failed : (d.after (op :: later)).outcome? id = some (.error failure)) :
    d.FailsAlone op id failure := by
  have turn {acts acts' : List (Act σ)} {a : Act σ} (consists : op.acts d = acts ++ a :: acts') :
      a.Lawful ∧ (∀ b ∈ acts', b.Lawful) ∧ (d.proceed acts).WellKept := by
    have lawful := op.lawful_acts d
    rw [consists, List.forall_mem_append, List.forall_mem_cons] at lawful
    exact ⟨lawful.2.1, lawful.2.2, Act.Lawful.wellKept_proceed lawful.1 kept⟩
  refine ⟨d.apply_eq_proceed op, ?_, ?_, ?_⟩
  · intro acts a acts' consists other
    obtain ⟨lawful, -, kept_now⟩ := turn consists
    exact lawful.outcome?_act kept_now other
  · intro acts a acts' consists about
    obtain ⟨lawful, lawful', kept_now⟩ := turn consists
    refine contained_act lawful kept_now about fun outcome resolved => ?_
    -- an outcome that is there now is there at the end of the course
    have applied : d.apply op = ((d.proceed acts).act a).proceed acts' := by
      rw [d.apply_eq_proceed op, consists, proceed_append, proceed_cons]
    obtain ⟨p, here, -⟩ := exists_of_outcome? resolved
    obtain ⟨p', there, grows⟩ :=
      Act.Lawful.exists_grows_proceed lawful' (lawful.wellKept kept_now) here
    rw [← applied] at there
    have final := outcome?_after ((d.apply_changes op).wellKept kept)
      (outcome?_of_grows here there grows resolved) later
    exact Option.some.inj (final.symm.trans failed)
  · intro decides
    cases uses : op.usesStores with
    | false => exact d.stores_apply uses
    | true => exact absurd (d.outcome?_apply_of_usesStores uses id) decides

/-- **A population that fails fails alone.** Take any course of operations in which a population
fails, for whatever reason, and in it any operation, act by act: whatever is done to the population
leaves the stores, the results that wait, every other population and every board as they are, but that
its own entry may disappear and its waiters are told the failure; and nothing else decides about it.
At no time does a result wait to be deposited for it, and no board names it but the one that its
service works with, under the key that it was started for. It stays failed and off the boards whatever
follows. And what was announced is what others were told, and the failure for every tag that was
registered with it. -/
theorem failure_contained (ops : List (Operation σ)) {id : PopulationId} {failure : Failure}
    (failed : (({} : Deployment σ).after ops).outcome? id = some (.error failure)) :
    (∀ before op later, ops = before ++ op :: later →
      (({} : Deployment σ).after before).FailsAlone op id failure) ∧
    (∀ before later, ops = before ++ later →
      let d := ({} : Deployment σ).after before
      (∀ waiting ∈ d.pending, waiting.1.population ≠ id) ∧
      ∀ board key, d.flight? board key = some id →
        ∃ u ∈ undertakings ({} : Deployment σ) ops, u.population = id ∧
          u.service.board = board ∧ CacheKey.ofQuery u.query = .ok key ∧
          ∀ u' ∈ undertakings ({} : Deployment σ) ops, u'.population = id → u' = u) ∧
    (∀ more, (({} : Deployment σ).after (ops ++ more)).outcome? id = some (.error failure) ∧
      ∀ board key, (({} : Deployment σ).after (ops ++ more)).flight? board key ≠ some id) ∧
    (({} : Deployment σ).after ops).announcements.Perm
      ((({} : Deployment σ).after ops).called
          ((registrations ({} : Deployment σ) ops).filter fun r => r.1 ≠ id) ++
        (tagsWith (registrations ({} : Deployment σ) ops) id).map fun tag =>
          (tag, .error failure)) := by
  have kept (ops : List (Operation σ)) : (({} : Deployment σ).after ops).WellKept :=
    wellKept_after wellKept_empty ops
  refine ⟨?_, ?_, ?_, ?_⟩
  · rintro before op later rfl
    rw [after_append] at failed
    exact failsAlone_of_failed (kept before) op failed
  · rintro before later rfl
    intro d
    refine ⟨?_, fun board key named => ?_⟩
    · rw [after_append] at failed
      exact not_pending_of_failed (kept before) failed
    · obtain ⟨u, undertaken, about, on_board, exact_key⟩ := exists_undertaking_on_board named
      have undertaken : u ∈ undertakings ({} : Deployment σ) (before ++ later) := by
        rw [undertakings_append]
        exact List.mem_append_left _ undertaken
      refine ⟨u, undertaken, about, on_board, exact_key, fun u' undertaken' about' => ?_⟩
      exact eq_of_mem_undertakings wellKept_empty undertaken' undertaken (about'.trans about.symm)
  · intro more
    have still : (({} : Deployment σ).after (ops ++ more)).outcome? id = some (.error failure) := by
      rw [after_append]
      exact outcome?_after (kept ops) failed more
    exact ⟨still, flight?_ne_of_failed still⟩
  · have announced := announced_after (wellKept_empty (σ := σ)) announced_empty ops
    refine announced.balanced.trans ?_
    rw [List.nil_append, ← called_own failed]
    exact called_perm_parted _ id _

/-- A population for which someone waits is displaced by one with a wider cap, and its run starts. -/
def displacedAndListening : List (Operation KeyedMap) :=
  let capped (rows : UInt64) : Query := { fingerprint := some 7, rowLimit := some rows }
  [.addRun "first" [("out", ["n"])] [] 0 [],
    .addRun "second" [("out", ["n"])] [] 0 [],
    .addStore {},
    .populate numbersService (capped 5) ⟨"first", 0⟩ "displaced",
    .onResolved ⟨3⟩ (.announce "waiter" []) rfl,
    .populate numbersService (capped 9) ⟨"second", 1⟩ "successor",
    .engine (.start "first")]

/-- A row that does not fit fails the population that was displaced. Its successor keeps its place. -/
theorem failure_contained_displaced :
    let d := ({} : Deployment KeyedMap).after displacedAndListening
    let d' := d.apply (.engine (.emit "first" "out" [.integer 1, .integer 2]))
    let misfit : Failure := .rowConversion "out" (.arity 1 2)
    d'.outcome? ⟨3⟩ = some (.error misfit) ∧
      d.flight? ⟨0⟩ { pipelineVersion := 7 } = some ⟨4⟩ ∧ d.Contained ⟨3⟩ misfit d' ∧
      d'.flight? ⟨0⟩ { pipelineVersion := 7 } = some ⟨4⟩ ∧
      d'.announcements.Perm [("waiter", .error misfit)] := by
  intro d d' misfit
  let row : Operation KeyedMap := .engine (.emit "first" "out" [.integer 1, .integer 2])
  have failed : (({} : Deployment KeyedMap).after (displacedAndListening ++ [row])).outcome? ⟨3⟩ =
      some (.error misfit) := rfl
  have named : d.flight? ⟨0⟩ { pipelineVersion := 7 } = some ⟨4⟩ := rfl
  obtain ⟨alone, -, -, announced⟩ := failure_contained (displacedAndListening ++ [row]) failed
  have contained : d.Contained ⟨3⟩ misfit d' :=
    (alone displacedAndListening row [] rfl).contained [] (.handle ⟨3⟩ (.failed misfit)) [] rfl rfl
  refine ⟨failed, named, contained, ?_, announced⟩
  rcases contained.flights ⟨0⟩ { pipelineVersion := 7 } with same | ⟨own, -⟩
  · exact same.trans named
  · rw [named] at own
    cases own

end DataService.Deployment
