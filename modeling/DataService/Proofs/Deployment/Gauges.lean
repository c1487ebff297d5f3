import DataService.Proofs.Deployment.Counters

/-!
# What the gauges show

The gauge of a service is set to the size of its board wherever the board changes: when a population
was entered, when the entry of one that was refused was withdrawn, and when a population is taken off,
after a failure or after the deposit of its result. In between, while a population is entered and
installed, the gauge is behind its board, but no one is informed of anything then
(`metrics_installed`). So at the end of every operation it shows the size of the board
(`gaugeShows_apply`), as long as no other service works over the board, and none by the name over
another one.
-/

set_option autoImplicit false

namespace DataService

/-- The service that populates its cache by an operation. -/
def Operation.populating? {σ : Type} : Operation σ → Option Service
  | .populate s _ _ _ => some s
  | _ => none

/-- The gauge of a service is set without touching that of another one. -/
theorem Metrics.inFlight?_setInFlight (m : Metrics) (service name : String) (n : Nat) :
    (m.setInFlight service n).inFlight? name =
      if name = service then some n else m.inFlight? name := by
  unfold inFlight? setInFlight
  rw [Table.get?_put]
  simp only [beq_iff_eq]

namespace Deployment

variable {σ : Type} {d d' : Deployment σ} {name : String} {board : BoardId}
  {us : List Undertaking}

/-- The gauge of a service shows how many populations a board names. One that was never set shows
none. -/
def GaugeShows (d : Deployment σ) (name : String) (board : BoardId) : Prop :=
  (d.metrics.inFlight? name).getD 0 = (d.board board).size

theorem gaugeShows_empty (name : String) (board : BoardId) :
    ({} : Deployment σ).GaugeShows name board := rfl

/-- What a gauge shows depends on the gauge and on the board. -/
theorem GaugeShows.congr (shows : d.GaugeShows name board)
    (gauge : d'.metrics.inFlight? name = d.metrics.inFlight? name)
    (same : d'.board board = d.board board) : d'.GaugeShows name board := by
  unfold GaugeShows
  rw [gauge, same]
  exact shows

/-- A gauge shows the same where the metrics and the boards are the same. -/
theorem GaugeShows.of_eq (shows : d.GaugeShows name board) (metrics : d'.metrics = d.metrics)
    (boards : d'.boards = d.boards) : d'.GaugeShows name board := by
  refine shows.congr (by rw [metrics]) ?_
  unfold Deployment.board
  rw [boards]

/-- A service that reports its flights after a change of its board leaves no gauge behind. -/
theorem GaugeShows.reported (shows : d.GaugeShows name board) {service : String}
    {changed : BoardId} (own : service = name ↔ changed = board)
    (gauge : d'.metrics.inFlight? name = d.metrics.inFlight? name)
    (elsewhere : board ≠ changed → d'.board board = d.board board) :
    (d'.measure (·.setInFlight service (d'.board changed).size)).GaugeShows name board := by
  by_cases same : name = service
  · obtain rfl : changed = board := own.1 same.symm
    have now : (d'.measure (·.setInFlight service (d'.board changed).size)).metrics.inFlight? name =
        some (d'.board changed).size :=
      (Metrics.inFlight?_setInFlight _ service name _).trans (if_pos same)
    unfold GaugeShows
    rw [now]
    rfl
  · have apart : board ≠ changed := fun at_board => same (own.2 at_board.symm).symm
    refine shows.congr ?_ (elsewhere apart)
    exact ((Metrics.inFlight?_setInFlight _ service name _).trans (if_neg same)).trans gauge

/-- Taking a population off a board sets the gauge of the service on whose board it was. -/
theorem GaugeShows.clearFlight (shows : d.GaugeShows name board) {errand : Delivery}
    (own : errand.service = name ↔ errand.board = board) :
    (d.clearFlight errand).GaugeShows name board := by
  have elsewhere (f : Board → Board) (apart : board ≠ errand.board) :
      (d.modifyBoard errand.board f).board board = d.board board := by
    rw [board_modifyBoard, if_neg apart]
  exact shows.reported own rfl (elsewhere _)

/-- Waiters that are informed report what they take off the boards. -/
theorem GaugeShows.informed (shows : d.GaugeShows name board) {ws : List Waiter}
    (own : ∀ errand ∈ errandsAll ws, errand.service = name ↔ errand.board = board)
    (outcome : Outcome) : (informAll outcome ws d).GaugeShows name board := by
  rw [informAll_eq_foldl]
  unfold errandsAll at own
  generalize callsAll ws = calls at own ⊢
  induction calls generalizing d with
  | nil => exact shows
  | cons call calls ih =>
    rw [List.foldl_cons]
    cases call with
    | announce tag => exact ih (shows.of_eq rfl rfl) own
    | deliver errand =>
      have among : (Call.deliver errand :: calls).filterMap Call.errand? =
          errand :: calls.filterMap Call.errand? := rfl
      rw [among, List.forall_mem_cons] at own
      refine ih ?_ own.2
      cases outcome with
      | ok result => exact shows.congr rfl rfl
      | error failure =>
        have counted : (d.measure (·.addPopulation errand.service .failed 0)).GaugeShows name board :=
          shows.congr rfl rfl
        exact counted.clearFlight own.1

/-- The errands that are under way report for the services that undertook something. -/
theorem Traced.owns (traced : d.Traced us)
    (own : ∀ u ∈ us, u.service.name = name ↔ u.service.board = board) {errand : Delivery}
    (under_way : d.UnderWay [] errand) : errand.service = name ↔ errand.board = board := by
  obtain ⟨u, among, key, rfl⟩ := traced.sent errand under_way
  exact own u among

/-- Quiet moves keep a gauge right if the service is the only one on its board. -/
theorem QuietMoves.gaugeShows {reach : PopulationId → Prop} (h : QuietMoves reach d d')
    (traced : d.Traced us) (own : ∀ u ∈ us, u.service.name = name ↔ u.service.board = board)
    (shows : d.GaugeShows name board) : d'.GaugeShows name board := by
  induction h with
  | alike same quiet => exact shows.of_eq quiet same.boards_eq
  | goesOn => exact shows.of_eq rfl rfl
  | @ends d id p outcome _ here _ _ =>
    have same : (d.modifyPopulation id fun _ => p.ended outcome).GaugeShows name board :=
      shows.of_eq rfl rfl
    refine same.informed (fun errand waits => traced.owns own ?_) outcome
    exact .waits (by rw [traced.kept.own id p here errand waits]; exact here) waits
  | trans first _ ih ih' => exact ih' (traced.moves first.moves) (ih traced shows)

/-- A waiter that is registered keeps a gauge right, even if it is informed at once. -/
theorem GaugeShows.registers (shows : d.GaugeShows name board) {waiter : Waiter}
    (own : ∀ errand ∈ errandsAll [waiter], errand.service = name ↔ errand.board = board)
    (id : PopulationId) : (d.onResolved id waiter).GaugeShows name board := by
  cases here : d.population? id with
  | none =>
    rw [onResolved_of_missing here]
    exact shows
  | some p =>
    cases settled : p.outcome with
    | none =>
      rw [onResolved_of_unresolved here settled]
      exact shows.of_eq rfl rfl
    | some outcome =>
      rw [onResolved_of_resolved here settled]
      have same : (d.modifyPopulation id fun _ => p).GaugeShows name board := shows.of_eq rfl rfl
      exact same.informed own outcome

/-- A service that starts a population, or fails to, reports what became of its board. -/
theorem GaugeShows.startPopulation (shows : d.GaugeShows name board) {s : Service}
    (own : s.name = name ↔ s.board = board) (q : Query) (key : CacheKey) (run : RunId)
    (label : String) (displaced : Option PopulationId) :
    (d.startPopulation s q key run label displaced).1.GaugeShows name board := by
  let installed := (d.entered s q key label).install ⟨d.serial⟩ run
  have gauge : installed.metrics.inFlight? name = d.metrics.inFlight? name :=
    congrArg (·.inFlight? name) (metrics_installed s q key run label d)
  have elsewhere (apart : board ≠ s.board) : installed.board board = d.board board := by
    have boards : installed.board board = (d.entered s q key label).board board := by
      unfold Deployment.board
      rw [(installed_quiet s q key run label d).1]
    exact boards.trans ((board_modifyBoard _ _ _ _).trans (if_neg apart))
  rcases d.startPopulation_cases s q key run label displaced with ⟨failure, refused⟩ | begun
  · rw [refused]
    let withdrawn := installed.withdraw s.board key ⟨d.serial⟩ displaced
    have elsewhere' (apart : board ≠ s.board) : withdrawn.board board = d.board board :=
      ((board_modifyBoard _ _ _ _).trans (if_neg apart)).trans (elsewhere apart)
    have gauge' : withdrawn.metrics.inFlight? name = d.metrics.inFlight? name := gauge
    exact shows.reported own gauge' elsewhere'
  · rw [begun]
    have reported : (installed.reportFlights s).GaugeShows name board :=
      shows.reported own gauge elsewhere
    refine reported.registers (fun errand on_errand => ?_) ⟨d.serial⟩
    rw [errandsAll_deliver, List.mem_singleton] at on_errand
    rw [on_errand]
    exact own

/-! ## Courses of operations -/

variable [ResultStore σ]

/-- **Operations leave no gauge behind.** -/
theorem gaugeShows_apply (traced : d.Traced us)
    (own : ∀ u ∈ us, u.service.name = name ↔ u.service.board = board)
    (shows : d.GaugeShows name board) {op : Operation σ}
    (owned : ∀ s, op.populating? = some s → (s.name = name ↔ s.board = board)) :
    (d.apply op).GaugeShows name board := by
  cases op with
  | lookup s q =>
    have works := d.withStore_alike s.store (.ok none) (s.lookup q)
    have unmeasured := d.metrics_withStore s.store (.ok none) (s.lookup q)
    show (d.lookup s q).1.GaugeShows name board
    unfold lookup
    generalize d.withStore s.store (.ok none) (s.lookup q) = looked at works unmeasured ⊢
    rcases looked with ⟨d', failure | _ | answer⟩
    · exact shows.of_eq unmeasured works.boards_eq
    · exact shows.of_eq unmeasured works.boards_eq
    · have worked : d'.GaugeShows name board := shows.of_eq unmeasured works.boards_eq
      exact worked.congr rfl rfl
  | populate s q run label =>
    show (d.populate s q run label).1.GaugeShows name board
    rcases d.populate_answers s q run label with
      ⟨failure, -, failed⟩ | ⟨key, -, ⟨current, -, -, attached⟩ | start⟩
    · rw [failed]
      exact shows
    · rw [attached]
      exact shows.congr rfl rfl
    · rw [start]
      exact shows.startPopulation (owned s rfl) q key run label _
  | pushDown s f step => exact shows.congr rfl rfl
  | settleAt position =>
    show (d.settleAt position).GaugeShows name board
    cases found : d.pending[position]? with
    | none =>
      rw [settleAt_of_none found]
      exact shows
    | some waiting =>
      obtain ⟨stored, alike, unmeasured, settles⟩ := exists_settleAt_eq found
      have stored_shows : stored.GaugeShows name board := shows.of_eq unmeasured alike.boards_eq
      rw [settles]
      exact stored_shows.clearFlight
        (traced.owns own (.pends (List.mem_of_getElem? found)))
  | addPopulation label key query outputStep => exact shows.of_eq rfl rfl
  | onResolved id waiter outside =>
    refine shows.registers (fun errand on_errand => ?_) id
    rw [outside] at on_errand
    cases on_errand
  | replay r stage =>
    cases stage with
    | finishing delivered failure => exact shows.congr rfl rfl
    | _ => exact (d.apply_quiet rfl).gaugeShows traced own shows
  | _ => exact (d.apply_quiet rfl).gaugeShows traced own shows

/-- A course of operations keeps a gauge right if the service is the only one that populates on its
board. -/
theorem gaugeShows_after (traced : d.Traced us)
    (own : ∀ u ∈ us, u.service.name = name ↔ u.service.board = board)
    (shows : d.GaugeShows name board) {ops : List (Operation σ)}
    (owned : ∀ op ∈ ops, ∀ s, op.populating? = some s → (s.name = name ↔ s.board = board)) :
    (d.after ops).GaugeShows name board := by
  induction ops generalizing d us with
  | nil => exact shows
  | cons op ops ih =>
    rw [List.forall_mem_cons] at owned
    refine ih (traced.apply op) ?_ (gaugeShows_apply traced own shows owned.1) owned.2
    intro u among
    rcases List.mem_append.1 among with earlier | now
    · exact own u earlier
    · -- the service that undertakes something is the one that populates its cache
      cases op with
      | populate s q run label =>
        obtain ⟨-, rfl, -⟩ := undertaken_populate_iff.1 (Option.mem_toList.1 now)
        exact owned.1 u.service rfl
      | _ => cases now

end Deployment

end DataService
