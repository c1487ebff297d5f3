import DataService.Proofs.Deployment.Changes

/-!
# Populations in the course of operations

Populations keep in order whatever operations follow each other (`WellKept`). Each has parts that
agree, and all were made before the next serial number, so that a new one takes no other one's
place. A service's errand waits only with the population that it is about, and a result that waits
to be deposited is the outcome of its population. No population disappears, and each one grows
(`exists_grows_after`).
-/

set_option autoImplicit false

namespace DataService.Deployment

variable {σ : Type}

/-- Populations, those who wait for them and the results that wait to be deposited are in order. -/
structure WellKept (d : Deployment σ) : Prop where
  fresh : ∀ id p, d.population? id = some p → id.serial < d.serial
  consistent : ∀ id p, d.population? id = some p → p.Consistent
  own : ∀ id p, d.population? id = some p → ∀ errand ∈ errandsAll p.waiters,
    errand.population = id
  obtained : ∀ waiting ∈ d.pending, ∃ p,
    d.population? waiting.1.population = some p ∧ p.outcome = some (.ok waiting.2)

variable {d d' : Deployment σ} {id : PopulationId} {p : Population}

theorem wellKept_empty : ({} : Deployment σ).WellKept :=
  ⟨by simp [population?], by simp [population?], by simp [population?], by simp⟩

/-- A result waits to be deposited only after its population has an outcome. -/
theorem WellKept.due (kept : d.WellKept) (waiting : Delivery × CachedResult)
    (waits : waiting ∈ d.pending) :
    ∃ p, d.population? waiting.1.population = some p ∧ p.outcome ≠ none := by
  obtain ⟨p, here, outcome_eq⟩ := kept.obtained waiting waits
  exact ⟨p, here, by rw [outcome_eq]; exact Option.some_ne_none _⟩

/-- A population that is there was made before the next serial number. -/
theorem WellKept.ne_serial (kept : d.WellKept) (here : d.population? id = some p) :
    id ≠ ⟨d.serial⟩ := by
  rintro rfl
  exact Nat.lt_irrefl _ (kept.fresh _ p here)

/-- The place of the next population is free. -/
theorem WellKept.population?_serial (kept : d.WellKept) : d.population? ⟨d.serial⟩ = none := by
  rw [Option.eq_none_iff_forall_ne_some]
  intro p here
  exact kept.ne_serial here rfl

/-- A population that is added takes no other one's place. -/
theorem WellKept.population?_addPopulation (kept : d.WellKept) (here : d.population? id = some p)
    (added : Population) : (d.addPopulation added).1.population? id = some p := by
  rw [Deployment.population?_addPopulation, if_neg (kept.ne_serial here), here]

/-- The order depends on the populations, on the serial number and on what is pending. -/
theorem WellKept.congr (kept : d.WellKept) (same : d'.populations = d.populations)
    (serial_le : d.serial ≤ d'.serial) (pending : ∀ waiting ∈ d'.pending, waiting ∈ d.pending) :
    d'.WellKept := by
  have same_at (id : PopulationId) : d'.population? id = d.population? id := by
    unfold population?
    rw [same]
  refine ⟨?_, ?_, ?_, ?_⟩
  · intro id p here
    rw [same_at] at here
    exact Nat.lt_of_lt_of_le (kept.fresh id p here) serial_le
  · intro id p here
    rw [same_at] at here
    exact kept.consistent id p here
  · intro id p here
    rw [same_at] at here
    exact kept.own id p here
  · intro waiting waits
    rw [same_at]
    exact kept.obtained waiting (pending waiting waits)

/-- A population may change as long as its parts agree, its errands are its own and an outcome
stays. -/
theorem WellKept.modifyPopulation (kept : d.WellKept) {f : Population → Population}
    (consistent : ∀ p, d.population? id = some p → (f p).Consistent)
    (own : ∀ p, d.population? id = some p → ∀ errand ∈ errandsAll (f p).waiters,
      errand.population = id)
    (final : ∀ p outcome, d.population? id = some p → p.outcome = some outcome →
      (f p).outcome = some outcome) :
    (d.modifyPopulation id f).WellKept := by
  have at_id : (d.modifyPopulation id f).population? id = (d.population? id).map f := by
    rw [population?_modifyPopulation, if_pos rfl]
  have elsewhere {j : PopulationId} (other : j ≠ id) :=
    d.population?_modifyPopulation_of_ne other f
  refine ⟨?_, ?_, ?_, ?_⟩
  · intro j q there
    by_cases same : j = id
    · rw [same, at_id, Option.map_eq_some_iff] at there
      obtain ⟨p, here, -⟩ := there
      rw [same]
      exact kept.fresh id p here
    · rw [elsewhere same] at there
      exact kept.fresh j q there
  · intro j q there
    by_cases same : j = id
    · rw [same, at_id, Option.map_eq_some_iff] at there
      obtain ⟨p, here, rfl⟩ := there
      exact consistent p here
    · rw [elsewhere same] at there
      exact kept.consistent j q there
  · intro j q there
    by_cases same : j = id
    · rw [same, at_id, Option.map_eq_some_iff] at there
      obtain ⟨p, here, rfl⟩ := there
      rw [same]
      exact own p here
    · rw [elsewhere same] at there
      exact kept.own j q there
  · intro waiting waits
    obtain ⟨q, there, ended⟩ := kept.obtained waiting waits
    by_cases same : waiting.1.population = id
    · rw [same] at there ⊢
      exact ⟨f q, by rw [at_id, there, Option.map_some], final q _ there ended⟩
    · exact ⟨q, by rw [elsewhere same, there], ended⟩

/-- The waiters of a population that has its outcome may be informed of it. -/
theorem WellKept.informed (kept : d.WellKept) (here : d.population? id = some p)
    {outcome : Outcome} (resolved : p.outcome = some outcome) {ws : List Waiter}
    (own : ∀ errand ∈ errandsAll ws, errand.population = id) :
    (informAll outcome ws d).WellKept := by
  have same_at (j : PopulationId) := population?_informAll outcome ws d j
  refine ⟨?_, ?_, ?_, ?_⟩
  · intro j q there
    rw [same_at] at there
    rw [serial_informAll]
    exact kept.fresh j q there
  · intro j q there
    rw [same_at] at there
    exact kept.consistent j q there
  · intro j q there
    rw [same_at] at there
    exact kept.own j q there
  · intro waiting waits
    rw [same_at]
    cases outcome with
    | error failure =>
      rw [pending_informAll_error] at waits
      exact kept.obtained waiting waits
    | ok result =>
      rw [pending_informAll_ok, List.mem_append] at waits
      rcases waits with before | now
      · exact kept.obtained waiting before
      · obtain ⟨errand, on_errand, rfl⟩ := List.mem_map.1 now
        exact ⟨p, by rw [own errand on_errand, here], resolved⟩

/-- A population may end with an outcome that fits it, and inform its waiters. -/
theorem WellKept.ends (kept : d.WellKept) (here : d.population? id = some p)
    (unresolved : p.outcome = none) {outcome : Outcome} (fits : p.Fits outcome) :
    (informAll outcome p.waiters
      (d.modifyPopulation id fun _ => p.ended outcome)).WellKept := by
  have ended : (d.modifyPopulation id fun _ => p.ended outcome).WellKept := by
    refine kept.modifyPopulation ?_ ?_ ?_
    · intro _ _
      exact Population.consistent_ended fits
    · intro _ _ errand on_errand
      cases on_errand
    · intro q _ at_id resolved
      obtain rfl : p = q := Option.some.inj (here.symm.trans at_id)
      rw [unresolved] at resolved
      cases resolved
  have here' := population?_modifyPopulation_self here fun _ => p.ended outcome
  exact ended.informed here' rfl (kept.own id p here)

/-- Every move keeps the populations in order. -/
theorem Moves.wellKept {reach : PopulationId → Prop} (h : Moves reach d d') (kept : d.WellKept) :
    d'.WellKept := by
  induction h with
  | alike same =>
    refine kept.congr same.populations_eq same.serial_le fun waiting waits => ?_
    rw [← same.pending_eq]
    exact waits
  | goesOn _ goes_on =>
    refine kept.modifyPopulation ?_ ?_ ?_
    · intro p here
      exact (goes_on p here).consistent (kept.consistent _ p here)
    · intro p here
      rw [(goes_on p here).waiters_eq]
      exact kept.own _ p here
    · intro p _ here resolved
      rw [(goes_on p here).outcome_eq]
      exact resolved
  | ends _ here unresolved fits => exact kept.ends here unresolved fits
  | trans _ _ ih ih' => exact ih' (ih kept)

/-- Every change keeps populations in order. -/
theorem Changes.wellKept {tags : List (PopulationId × String)} (h : d.Changes tags d')
    (kept : d.WellKept) : d'.WellKept := by
  induction h with
  | moves moves => exact moves.wellKept kept
  | adds d label key query outputStep =>
    let fresh : Population := { label, key, query, outputStep }
    have there (j : PopulationId) := d.population?_addPopulation fresh j
    have consistent : fresh.Consistent := by
      refine ⟨.of_none rfl rfl, rfl, ?_, fun _ => rfl⟩
      intro result ok
      cases ok
    refine ⟨?_, ?_, ?_, ?_⟩
    · intro j q at_j
      rw [there] at at_j
      split at at_j
      · rename_i same
        rw [same]
        exact Nat.lt_succ_self _
      · exact Nat.lt_succ_of_lt (kept.fresh j q at_j)
    · intro j q at_j
      rw [there] at at_j
      split at at_j
      · cases at_j
        exact consistent
      · exact kept.consistent j q at_j
    · intro j q at_j
      rw [there] at at_j
      split at at_j
      · cases at_j
        intro errand on_errand
        cases on_errand
      · exact kept.own j q at_j
    · intro waiting waits
      obtain ⟨q, at_j, ended⟩ := kept.obtained waiting waits
      exact ⟨q, kept.population?_addPopulation at_j fresh, ended⟩
  | @registers d id p waiter here own =>
    -- the waiter joins the others, or is informed of the outcome at once
    cases settled : p.outcome with
    | none =>
      rw [onResolved_of_unresolved here settled]
      refine kept.modifyPopulation ?_ ?_ ?_
      · intro _ _
        exact (kept.consistent id p here).add_waiter settled waiter
      · intro _ _ errand on_errand
        rw [errandsAll_append, List.mem_append] at on_errand
        rcases on_errand with before | now
        · exact kept.own id p here errand before
        · exact own errand now
      · intro q _ at_id resolved
        rw [here] at at_id
        cases at_id
        exact resolved
    | some outcome =>
      rw [onResolved_of_resolved here settled]
      have same : (d.modifyPopulation id fun _ => p).WellKept := by
        refine kept.modifyPopulation ?_ ?_ ?_
        · intro _ _
          exact kept.consistent id p here
        · intro _ _
          exact kept.own id p here
        · intro q _ at_id resolved
          rw [here] at at_id
          cases at_id
          exact resolved
      exact same.informed (population?_modifyPopulation_self here _) settled own
  | notes populations_eq _ serial_eq pending =>
    exact kept.congr populations_eq (Nat.le_of_eq serial_eq.symm) pending
  | trans _ _ ih ih' => exact ih' (ih kept)

/-! ## Growth -/

/-- Through every move a population that is there stays, and at most grows. -/
theorem Moves.exists_grows {reach : PopulationId → Prop} (h : Moves reach d d')
    (kept : d.WellKept) (here : d.population? id = some p) :
    ∃ p', d'.population? id = some p' ∧ p.Grows p' := by
  induction h generalizing p with
  | alike same => exact ⟨p, (same.population?_eq id).trans here, .refl p⟩
  | @goesOn d j f _ goes_on =>
    by_cases same : id = j
    · rw [same] at here
      refine ⟨f p, ?_, (goes_on p here).grows (kept.consistent j p here)⟩
      rw [same]
      exact population?_modifyPopulation_self here f
    · exact ⟨p, (d.population?_modifyPopulation_of_ne same f).trans here, .refl p⟩
  | @ends d j q outcome _ there unresolved fits =>
    rw [population?_informAll]
    by_cases same : id = j
    · rw [same, there] at here
      cases here
      refine ⟨q.ended outcome, ?_, Population.grows_ended unresolved outcome⟩
      rw [same]
      exact population?_modifyPopulation_self there _
    · exact ⟨p, (d.population?_modifyPopulation_of_ne same _).trans here, .refl p⟩
  | trans first _ ih ih' =>
    obtain ⟨p', here', grows⟩ := ih kept here
    obtain ⟨p'', here'', grows'⟩ := ih' (first.wellKept kept) here'
    exact ⟨p'', here'', grows.trans grows'⟩

/-- No population disappears, and every one grows. -/
theorem Changes.exists_grows {tags : List (PopulationId × String)} (h : d.Changes tags d')
    (kept : d.WellKept) (here : d.population? id = some p) :
    ∃ p', d'.population? id = some p' ∧ p.Grows p' := by
  induction h generalizing p with
  | moves moves => exact moves.exists_grows kept here
  | adds d label key query outputStep =>
    exact ⟨p, kept.population?_addPopulation here _, .refl p⟩
  | @registers d j q waiter there own =>
    cases settled : q.outcome with
    | none =>
      rw [onResolved_of_unresolved there settled]
      by_cases same : id = j
      · rw [same, there] at here
        cases here
        refine ⟨{ q with waiters := q.waiters ++ [waiter] }, ?_, { Population.Grows.refl q with }⟩
        rw [same]
        exact population?_modifyPopulation_self there _
      · exact ⟨p, (d.population?_modifyPopulation_of_ne same _).trans here, .refl p⟩
    | some outcome =>
      rw [onResolved_of_resolved there settled]
      refine ⟨p, ?_, .refl p⟩
      rw [population?_informAll, population?_modifyPopulation_const there]
      exact here
  | @notes d d' populations_eq _ _ _ =>
    refine ⟨p, ?_, .refl p⟩
    unfold population?
    rw [populations_eq]
    exact here
  | trans first _ ih ih' =>
    obtain ⟨p', here', grows⟩ := ih kept here
    obtain ⟨p'', here'', grows'⟩ := ih' (first.wellKept kept) here'
    exact ⟨p'', here'', grows.trans grows'⟩

/-! ## Courses of operations -/

variable [ResultStore σ]

/-- Every course of operations keeps the populations in order. -/
theorem wellKept_after (kept : d.WellKept) (ops : List (Operation σ)) : (d.after ops).WellKept :=
  after_induction (fun d op kept => (d.apply_changes op).wellKept kept) kept ops

/-- In every course of operations a population grows. -/
theorem exists_grows_after (kept : d.WellKept) (here : d.population? id = some p)
    (ops : List (Operation σ)) :
    ∃ p', (d.after ops).population? id = some p' ∧ p.Grows p' := by
  induction ops generalizing d p with
  | nil => exact ⟨p, here, .refl p⟩
  | cons op ops ih =>
    have change := d.apply_changes op
    obtain ⟨p', here', grows⟩ := change.exists_grows kept here
    obtain ⟨p'', here'', grows'⟩ := ih (change.wellKept kept) here'
    exact ⟨p'', here'', grows.trans grows'⟩

end DataService.Deployment
