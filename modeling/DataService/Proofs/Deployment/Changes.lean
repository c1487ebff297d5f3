import DataService.Proofs.Deployment.Moves

/-!
# How a deployment changes

`Changes` lists everything that an operation can do to populations and to those who wait for them:
besides the moves of runs and populations a population is added, a waiter is registered with one, or
something is noted that concerns neither. A change carries the tags that were registered by it, each
with its population. Every operation is such a change (`apply_changes`), so that what holds of each
kind of change holds in every course of operations.
-/

set_option autoImplicit false

namespace DataService

/-- The tags that an operation registers, each with its population. -/
def Operation.registered {σ : Type} (d : Deployment σ) :
    Operation σ → List (PopulationId × String)
  | .onResolved id waiter _ =>
    if (d.population? id).isSome then (tagsAll [waiter]).map fun tag => (id, tag) else []
  | _ => []

namespace Deployment

variable {σ : Type}

/-- A change of a deployment, with the tags that were registered by it. -/
inductive Changes : Deployment σ → List (PopulationId × String) → Deployment σ → Prop
  | moves {d d' : Deployment σ} : Moves Anyone d d' → Changes d [] d'
  | adds (d : Deployment σ) (label : String) (key : CacheKey) (query : Query)
    (outputStep : String) : Changes d [] (d.addPopulation { label, key, query, outputStep }).1
  | registers {d : Deployment σ} {id : PopulationId} {p : Population} {waiter : Waiter} :
    d.population? id = some p → (∀ errand ∈ errandsAll [waiter], errand.population = id) →
    Changes d ((tagsAll [waiter]).map fun tag => (id, tag)) (d.onResolved id waiter)
  | notes {d d' : Deployment σ} : d'.populations = d.populations →
    d'.announcements = d.announcements → d'.serial = d.serial →
    (∀ waiting ∈ d'.pending, waiting ∈ d.pending) → Changes d [] d'
  | trans {d d' d'' : Deployment σ} {tags tags' : List (PopulationId × String)} :
    Changes d tags d' → Changes d' tags' d'' → Changes d (tags ++ tags') d''

/-! ## Single operations -/

/-- A population that is added is found under the next serial number. -/
theorem population?_addPopulation (d : Deployment σ) (p : Population) (id : PopulationId) :
    (d.addPopulation p).1.population? id =
      if id = ⟨d.serial⟩ then some p else d.population? id := by
  have put : (d.addPopulation p).1.population? id =
      (d.populations.put ⟨d.serial⟩ p).get? id := rfl
  rw [put, Table.get?_put]
  simp only [beq_iff_eq]
  rfl

/-- A waiter waits with a population that is unresolved. -/
theorem onResolved_of_unresolved {d : Deployment σ} {id : PopulationId} {p : Population}
    (here : d.population? id = some p) (unresolved : p.outcome = none) (waiter : Waiter) :
    d.onResolved id waiter =
      d.modifyPopulation id fun _ => { p with waiters := p.waiters ++ [waiter] } := by
  unfold onResolved
  rw [advance_eq here, Population.onResolved_of_none unresolved]
  dsimp only
  rw [unresolved]

/-- A waiter is informed at once of the outcome that a population has. -/
theorem onResolved_of_resolved {d : Deployment σ} {id : PopulationId} {p : Population}
    {outcome : Outcome} (here : d.population? id = some p) (resolved : p.outcome = some outcome)
    (waiter : Waiter) :
    d.onResolved id waiter = informAll outcome [waiter] (d.modifyPopulation id fun _ => p) := by
  unfold onResolved
  rw [advance_eq here, Population.onResolved_of_some resolved]
  dsimp only
  rw [resolved]

/-- Nobody can wait for a population that is not there. -/
theorem onResolved_of_missing {d : Deployment σ} {id : PopulationId}
    (missing : d.population? id = none) (waiter : Waiter) : d.onResolved id waiter = d := by
  unfold onResolved advance
  rw [missing]

/-- The deployment when a service has made a population and noted it on its board. -/
def entered (d : Deployment σ) (s : Service) (q : Query) (key : CacheKey) (label : String) :
    Deployment σ :=
  (d.addPopulation { label, key, query := q, outputStep := s.definition.outputStep }).1.modifyBoard
    s.board (·.put key ⟨d.serial⟩)

/-- A service that starts a population enters it and installs it on the run. If the run refuses it,
the entry is withdrawn, and otherwise the service registers with the population. -/
theorem startPopulation_cases (d : Deployment σ) (s : Service) (q : Query) (key : CacheKey)
    (run : RunId) (label : String) (displaced : Option PopulationId) :
    let installed := (d.entered s q key label).install ⟨d.serial⟩ run
    (∃ failure, d.startPopulation s q key run label displaced =
      ((installed.withdraw s.board key ⟨d.serial⟩ displaced).reportFlights s, .error failure)) ∨
    d.startPopulation s q key run label displaced =
      ((installed.reportFlights s).onResolved ⟨d.serial⟩ (.deliver
        { service := s.name, cache := s.cacheName, key, population := ⟨d.serial⟩
          store := s.store, board := s.board }), .ok (.started ⟨d.serial⟩)) := by
  intro installed
  unfold startPopulation
  dsimp only [addPopulation]
  split
  · exact .inl ⟨_, rfl⟩
  · exact .inr rfl

/-- What comes of populating a cache. It fails at once for want of a result cache or of a fingerprint,
or the query is attached to the population that the board names for its exact key, if that can answer
it, or a population is started. -/
theorem populate_answers (d : Deployment σ) (s : Service) (q : Query) (run : RunId)
    (label : String) :
    (∃ failure, (s.definition.resultCache? = none ∧
          failure = .configuration (.noResultCache s.name) ∨
        q.fingerprint = none ∧ failure = .configuration .noFingerprint) ∧
      d.populate s q run label = (d, .error failure)) ∨
    ∃ key, CacheKey.ofQuery q = .ok key ∧
      ((∃ current, d.flight? s.board key = some current ∧ d.canAnswer current q = true ∧
        d.populate s q run label =
          (d.measure (·.add (.attachments s.name) 1), .ok (.attached current))) ∨
      d.populate s q run label =
        d.startPopulation s q key run label (d.flight? s.board key)) := by
  unfold populate CacheKey.ofQuery
  cases cached : s.definition.resultCache? with
  | none => exact .inl ⟨_, .inl ⟨rfl, rfl⟩, rfl⟩
  | some cache =>
    cases versioned : q.fingerprint with
    | none => exact .inl ⟨_, .inr ⟨rfl, rfl⟩, rfl⟩
    | some version =>
      refine .inr ⟨_, rfl, ?_⟩
      dsimp only
      unfold flight?
      cases noted : (d.board s.board).get? _ with
      | none => exact .inr rfl
      | some current =>
        by_cases sufficient : d.canAnswer current q = true
        · exact .inl ⟨current, rfl, sufficient, if_pos sufficient⟩
        · exact .inr (if_neg sufficient)

/-- A service that populates its cache starts a population, or changes the metrics at most. -/
theorem populate_cases (d : Deployment σ) (s : Service) (q : Query) (run : RunId)
    (label : String) :
    (∃ d' answer, d.populate s q run label = (d', answer) ∧ d.Alike d' ∧
      ∀ id, answer ≠ .ok (.started id)) ∨
    ∃ key, CacheKey.ofQuery q = .ok key ∧ d.populate s q run label =
      d.startPopulation s q key run label (d.flight? s.board key) := by
  rcases d.populate_answers s q run label with
    ⟨failure, -, failed⟩ | ⟨key, exact_key, ⟨current, -, -, attached⟩ | start⟩
  · exact .inl ⟨d, _, failed, .refl d, by simp⟩
  · exact .inl ⟨_, _, attached, d.measure_alike _, by simp⟩
  · exact .inr ⟨key, exact_key, start⟩

/-- A service that registers with a population announces nothing. -/
theorem deliver_changes {d : Deployment σ} {id : PopulationId} {p : Population} {errand : Delivery}
    (here : d.population? id = some p) (own : errand.population = id) :
    d.Changes [] (d.onResolved id (.deliver errand)) := by
  have registers : d.Changes ((tagsAll [.deliver errand]).map fun tag => (id, tag))
      (d.onResolved id (.deliver errand)) := by
    refine .registers here fun errand' on_errand => ?_
    rw [errandsAll_deliver, List.mem_singleton] at on_errand
    rw [on_errand, own]
  exact registers

/-- A population that is started, or refused, is a change by which no tag is registered. -/
theorem startPopulation_changes (d : Deployment σ) (s : Service) (q : Query) (key : CacheKey)
    (run : RunId) (label : String) (displaced : Option PopulationId) :
    d.Changes [] (d.startPopulation s q key run label displaced).1 := by
  have same_pending {d : Deployment σ} : ∀ waiting ∈ d.pending, waiting ∈ d.pending :=
    fun _ waits => waits
  let installed := (d.entered s q key label).install ⟨d.serial⟩ run
  have begun : d.Changes [] installed := by
    have adding : d.Changes [] (d.addPopulation
        { label, key, query := q, outputStep := s.definition.outputStep }).1 :=
      .adds d label key q s.definition.outputStep
    have entering : d.Changes [] (d.entered s q key label) :=
      adding.trans (.notes rfl rfl rfl same_pending)
    have installing := (d.entered s q key label).install_moves ⟨d.serial⟩ run
    exact entering.trans (.moves (installing.mono fun _ _ => trivial))
  rcases d.startPopulation_cases s q key run label displaced with ⟨failure, refused⟩ | started
  · rw [refused]
    exact begun.trans (.notes rfl rfl rfl same_pending)
  · rw [started]
    have reporting : installed.Changes [] (installed.reportFlights s) :=
      .notes rfl rfl rfl same_pending
    cases here : (installed.reportFlights s).population? ⟨d.serial⟩ with
    | none =>
      rw [onResolved_of_missing here]
      exact begun.trans reporting
    | some p => exact (begun.trans reporting).trans (deliver_changes here rfl)

variable [ResultStore σ]

/-- A deposit is a change by which no tag is registered. -/
theorem settleAt_changes (d : Deployment σ) (position : Nat) :
    d.Changes [] (d.settleAt position) := by
  rcases d.settleAt_cases position with same | ⟨errand, result, -, deposits⟩
  · rw [same]
    exact .moves (.refl d)
  · rw [deposits]
    let rest : Deployment σ := { d with pending := d.pending.eraseIdx position }
    have stores := rest.withStore_alike errand.store ()
      fun w => (w.deposit errand.cache errand.key result, ())
    have taken : d.Changes [] rest :=
      .notes rfl rfl rfl fun _ waits => List.mem_of_mem_eraseIdx waits
    exact (taken.trans (.moves (.alike stores))).trans
      (.notes rfl rfl rfl fun _ waits => waits)

/-- Every operation is a change that registers what the operation does. -/
theorem apply_changes (d : Deployment σ) (op : Operation σ) :
    d.Changes (op.registered d) (d.apply op) := by
  cases op with
  | addPopulation label key query outputStep => exact .adds d label key query outputStep
  | onResolved id waiter outside =>
    show d.Changes (if _ then _ else _) (d.onResolved id waiter)
    cases here : d.population? id with
    | none =>
      rw [onResolved_of_missing here]
      exact .moves (.refl d)
    | some p =>
      refine .registers here fun errand on_errand => ?_
      rw [outside] at on_errand
      cases on_errand
  | populate s q run label =>
    show d.Changes [] (d.populate s q run label).1
    rcases d.populate_cases s q run label with ⟨d', answer, same, alike, -⟩ | ⟨key, -, start⟩
    · rw [same]
      exact .moves (.alike alike)
    · rw [start]
      exact d.startPopulation_changes s q key run label _
  | settleAt position => exact d.settleAt_changes position
  | _ => exact .moves (d.apply_moves rfl)

end Deployment

end DataService
