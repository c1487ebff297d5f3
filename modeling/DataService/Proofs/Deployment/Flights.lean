import DataService.Proofs.Deployment.WellKept
import DataService.Proofs.Store.Keyed

/-!
# Populations in flight

A board names the population that is in flight for a key, so that queries can join it. It is the one
that was started last for the key, by whichever service, as long as that one is unresolved
(`flight?_iff_lastStarted`): a population that another one displaced does not take its successor
off the board, and one that was refused gives its place back.

In between there are moments when a board names a population that has resolved, because its result
waits to be deposited. `NamesLatest` covers these as well. What a board names, it names no longer
than there is an errand under way to take it off, and errands do not get lost: one waits with its
population, then with the result, and is carried out when the result is deposited, or right away
after a failure. The proofs follow an errand on this way; `carried` are those between two places.
-/

set_option autoImplicit false

namespace DataService

/-- The population that an operation starts for a key on a board, if it starts one. -/
def Operation.started? {σ : Type} (d : Deployment σ) (board : BoardId) (key : CacheKey) :
    Operation σ → Option PopulationId
  | .populate s q run label =>
    match CacheKey.ofQuery q, (d.populate s q run label).2 with
    | .ok key', .ok (.started id) => if s.board = board ∧ key' = key then some id else none
    | _, _ => none
  | _ => none

/-- An errand that concerns a population on a board is on its behalf. -/
theorem Delivery.population_eq_of_concerns {errand : Delivery} {board : BoardId} {key : CacheKey}
    {id : PopulationId} (h : errand.concerns board key id = true) : errand.population = id :=
  (of_decide_eq_true h).2.2

namespace Deployment

variable {σ : Type} {d d' : Deployment σ} {board : BoardId} {key : CacheKey}
  {latest : Option PopulationId} {carried : List Delivery}

/-- An errand that has not been carried out: it is carried right now, or it waits with its
population or with a result. -/
inductive UnderWay (d : Deployment σ) (carried : List Delivery) (errand : Delivery) : Prop
  | carries : errand ∈ carried → UnderWay d carried errand
  | waits {p : Population} : d.population? errand.population = some p →
    errand ∈ errandsAll p.waiters → UnderWay d carried errand
  | pends {result : CachedResult} : (errand, result) ∈ d.pending → UnderWay d carried errand

/-- A board names, for a key, the latest population that was started, and no other one. -/
structure NamesLatest (d : Deployment σ) (board : BoardId) (key : CacheKey)
    (latest : Option PopulationId) (carried : List Delivery) : Prop where
  known : ∀ id, latest = some id → ∃ p, d.population? id = some p
  named : ∀ id p, latest = some id → d.population? id = some p → p.outcome = none →
    d.flight? board key = some id
  only : ∀ id, d.flight? board key = some id → latest = some id
  due : ∀ id, d.flight? board key = some id →
    ∃ errand, errand.concerns board key id = true ∧ d.UnderWay carried errand

/-- The boards of an empty deployment name nobody. -/
theorem namesLatest_empty (board : BoardId) (key : CacheKey) :
    ({} : Deployment σ).NamesLatest board key none [] := by
  have nothing : ({} : Deployment σ).flight? board key = none := rfl
  refine ⟨?_, ?_, ?_, ?_⟩
  · intro id started
    cases started
  · intro id p started
    cases started
  · intro id named
    rw [nothing] at named
    cases named
  · intro id named
    rw [nothing] at named
    cases named

/-- An errand stays under way as long as nothing is taken away where it waits. -/
theorem UnderWay.mono {carried' : List Delivery} {errand : Delivery}
    (h : d.UnderWay carried errand) (more : ∀ e ∈ carried, e ∈ carried')
    (populations : ∀ id p, d.population? id = some p → d'.population? id = some p)
    (pending : ∀ waiting ∈ d.pending, waiting ∈ d'.pending) : d'.UnderWay carried' errand := by
  cases h with
  | carries member => exact .carries (more errand member)
  | waits here member => exact .waits (populations _ _ here) member
  | pends member => exact .pends (pending _ member)

/-- No population changes, and the board loses no entry but that of a resolved one. -/
theorem NamesLatest.congr (names : d.NamesLatest board key latest carried)
    (populations : ∀ id p, d.population? id = some p → d'.population? id = some p)
    (pending : ∀ waiting ∈ d.pending, waiting ∈ d'.pending)
    (before : ∀ id, d'.flight? board key = some id → d.flight? board key = some id)
    (stays : ∀ id p, d.flight? board key = some id → d.population? id = some p →
      p.outcome = none → d'.flight? board key = some id) :
    d'.NamesLatest board key latest carried := by
  refine ⟨?_, ?_, ?_, ?_⟩
  · intro id started
    obtain ⟨p, here⟩ := names.known id started
    exact ⟨p, populations id p here⟩
  · intro id p' started here' unresolved
    obtain ⟨p, here⟩ := names.known id started
    obtain rfl : p = p' := Option.some.inj ((populations id p here).symm.trans here')
    exact stays id p (names.named id p started here unresolved) here unresolved
  · intro id named
    exact names.only id (before id named)
  · intro id named
    obtain ⟨errand, concerns, under_way⟩ := names.due id (before id named)
    exact ⟨errand, concerns, under_way.mono (fun _ h => h) populations pending⟩

/-- What a board names depends on populations, boards and results that wait alone. -/
theorem NamesLatest.of_eq (names : d.NamesLatest board key latest carried)
    (populations : d'.populations = d.populations) (boards : d'.boards = d.boards)
    (pending : d'.pending = d.pending) : d'.NamesLatest board key latest carried := by
  have flights (board : BoardId) (key : CacheKey) :
      d'.flight? board key = d.flight? board key := by
    unfold flight? Deployment.board
    rw [boards]
  refine names.congr ?_ ?_ ?_ ?_
  · intro id p here
    unfold population?
    rw [populations]
    exact here
  · intro waiting waits
    rw [pending]
    exact waits
  · intro id named
    rw [← flights]
    exact named
  · intro id p named _ _
    rw [flights]
    exact named

/-- More errands may be carried than those that the boards are waiting for. -/
theorem NamesLatest.carry (names : d.NamesLatest board key latest carried)
    (more : List Delivery) : d.NamesLatest board key latest (more ++ carried) := by
  refine ⟨names.known, names.named, names.only, ?_⟩
  intro id named
  obtain ⟨errand, concerns, under_way⟩ := names.due id named
  refine ⟨errand, concerns, under_way.mono ?_ (fun _ _ h => h) (fun _ h => h)⟩
  intro e member
  exact List.mem_append_right more member

/-! ## Errands on their way -/

/-- The population has resolved. -/
def Resolved (d : Deployment σ) (id : PopulationId) : Prop :=
  ∃ p, d.population? id = some p ∧ p.outcome ≠ none

/-- An errand that is carried out takes its population off the board. -/
theorem NamesLatest.cleared {errand : Delivery}
    (names : d.NamesLatest board key latest (errand :: carried))
    (resolved : d.Resolved errand.population) :
    (d.clearFlight errand).NamesLatest board key latest carried := by
  have flights (id : PopulationId) := d.flight?_clearFlight_iff errand board key id
  refine ⟨names.known, ?_, ?_, ?_⟩
  · intro id p started here unresolved
    refine (flights id).2 ⟨names.named id p started here unresolved, ?_⟩
    refine Bool.eq_false_iff.2 fun concerns => ?_
    -- the errand is about a resolved population, so it does not concern an unresolved one
    obtain ⟨q, there, ended⟩ := resolved
    rw [Delivery.population_eq_of_concerns concerns] at there
    obtain rfl : q = p := Option.some.inj (there.symm.trans here)
    exact ended unresolved
  · intro id named
    exact names.only id ((flights id).1 named).1
  · intro id named
    obtain ⟨named_before, other⟩ := (flights id).1 named
    obtain ⟨e, concerns, under_way⟩ := names.due id named_before
    refine ⟨e, concerns, ?_⟩
    cases under_way with
    | carries member =>
      rcases List.mem_cons.1 member with rfl | later
      · rw [concerns] at other
        cases other
      · exact .carries later
    | waits here member => exact .waits here member
    | pends member => exact .pends member

/-- An errand that is carried may come to wait with a result instead. -/
theorem NamesLatest.lined_up {errand : Delivery}
    (names : d.NamesLatest board key latest (errand :: carried)) (result : CachedResult) :
    ({ d with pending := d.pending ++ [(errand, result)] } : Deployment σ).NamesLatest board key
      latest carried := by
  refine ⟨names.known, names.named, names.only, ?_⟩
  intro id named
  obtain ⟨e, concerns, under_way⟩ := names.due id named
  refine ⟨e, concerns, ?_⟩
  cases under_way with
  | carries member =>
    rcases List.mem_cons.1 member with rfl | later
    · exact .pends (List.mem_append_right _ List.mem_cons_self)
    · exact .carries later
  | waits here member => exact .waits here member
  | pends member => exact .pends (List.mem_append_left _ member)

/-- A call on a waiter hands its errand on: after a failure it is carried out at once, and after a
success it waits with the result. -/
theorem NamesLatest.served {call : Call}
    (names : d.NamesLatest board key latest (call.errand?.toList ++ carried))
    (resolved : ∀ errand, call.errand? = some errand → d.Resolved errand.population)
    (outcome : Outcome) : (serve outcome d call).NamesLatest board key latest carried := by
  cases call with
  | announce tag => exact names.of_eq rfl rfl rfl
  | deliver errand =>
    cases outcome with
    | error failure =>
      have counted : (d.measure (·.addPopulation errand.service .failed 0)).NamesLatest board key
          latest (errand :: carried) := names.of_eq rfl rfl rfl
      exact counted.cleared (resolved errand rfl)
    | ok result =>
      have counted (ending : Ending) :
          (d.measure (·.addPopulation errand.service ending result.rows.length)).NamesLatest board
            key latest (errand :: carried) := names.of_eq rfl rfl rfl
      exact (counted _).lined_up result

/-- A call on a waiter changes no population. -/
theorem population?_serve (outcome : Outcome) (d : Deployment σ) (call : Call)
    (id : PopulationId) : (serve outcome d call).population? id = d.population? id := by
  cases call with
  | announce tag => rfl
  | deliver errand => cases outcome <;> rfl

/-- Waiters that are informed carry out their errands, or leave them with the result. -/
theorem NamesLatest.informed {ws : List Waiter}
    (names : d.NamesLatest board key latest (errandsAll ws ++ carried))
    (resolved : ∀ errand ∈ errandsAll ws, d.Resolved errand.population) (outcome : Outcome) :
    (informAll outcome ws d).NamesLatest board key latest carried := by
  rw [informAll_eq_foldl]
  unfold errandsAll at names resolved
  generalize callsAll ws = calls at names resolved ⊢
  -- call by call: the errands of the calls to come are the ones still carried
  induction calls generalizing d with
  | nil => exact names
  | cons call calls ih =>
    have split_off : (call :: calls).filterMap Call.errand? =
        call.errand?.toList ++ calls.filterMap Call.errand? := by
      rw [List.filterMap_cons]
      cases call.errand? <;> rfl
    rw [split_off] at names resolved
    rw [List.append_assoc] at names
    rw [List.foldl_cons]
    refine ih (names.served ?_ outcome) ?_
    · intro errand is_errand
      refine resolved errand (List.mem_append_left _ ?_)
      rw [is_errand]
      exact List.mem_singleton_self errand
    · intro errand later
      unfold Resolved
      rw [population?_serve]
      exact resolved errand (List.mem_append_right _ later)

/-! ## Moves -/

/-- A population that goes on keeps its place on the board, and its errand. -/
theorem NamesLatest.goesOn (names : d.NamesLatest board key latest carried) {id : PopulationId}
    {f : Population → Population} (goes_on : ∀ p, d.population? id = some p → p.GoesOn (f p)) :
    (d.modifyPopulation id f).NamesLatest board key latest carried := by
  have there (j : PopulationId) := d.population?_modifyPopulation id f j
  have still (j : PopulationId) (p : Population) (here : d.population? j = some p) :
      ∃ p', (d.modifyPopulation id f).population? j = some p' ∧ p'.outcome = p.outcome ∧
        p'.waiters = p.waiters := by
    rw [there]
    by_cases same : j = id
    · rw [same] at here
      rw [if_pos same, same, here]
      exact ⟨f p, rfl, (goes_on p here).outcome_eq, (goes_on p here).waiters_eq⟩
    · rw [if_neg same]
      exact ⟨p, here, rfl, rfl⟩
  refine ⟨?_, ?_, names.only, ?_⟩
  · intro j started
    obtain ⟨p, here⟩ := names.known j started
    obtain ⟨p', here', -⟩ := still j p here
    exact ⟨p', here'⟩
  · intro j q started here' unresolved
    obtain ⟨p, here⟩ := names.known j started
    obtain ⟨p', found, outcome_eq, -⟩ := still j p here
    obtain rfl : p' = q := Option.some.inj (found.symm.trans here')
    rw [outcome_eq] at unresolved
    exact names.named j p started here unresolved
  · intro j named
    obtain ⟨errand, concerns, under_way⟩ := names.due j named
    refine ⟨errand, concerns, ?_⟩
    cases under_way with
    | carries member => exact .carries member
    | waits here member =>
      obtain ⟨p', found, -, waiters_eq⟩ := still _ _ here
      rw [← waiters_eq] at member
      exact .waits found member
    | pends member => exact .pends member

/-- The errands that waited with a population are carried when it has ended. -/
theorem NamesLatest.ended (names : d.NamesLatest board key latest carried) {id : PopulationId}
    {p : Population} (here : d.population? id = some p) (outcome : Outcome) :
    (d.modifyPopulation id fun _ => p.ended outcome).NamesLatest board key latest
      (errandsAll p.waiters ++ carried) := by
  have own := population?_modifyPopulation_self here fun _ => p.ended outcome
  have other {j : PopulationId} (differs : j ≠ id) :=
    d.population?_modifyPopulation_of_ne differs fun _ => p.ended outcome
  refine ⟨?_, ?_, names.only, ?_⟩
  · intro j started
    by_cases same : j = id
    · exact ⟨p.ended outcome, by rw [same]; exact own⟩
    · rw [other same]
      exact names.known j started
  · intro j q started there unresolved
    by_cases same : j = id
    · rw [same, own] at there
      cases there
      cases unresolved
    · rw [other same] at there
      exact names.named j q started there unresolved
  · intro j named
    obtain ⟨errand, concerns, under_way⟩ := names.due j named
    refine ⟨errand, concerns, ?_⟩
    cases under_way with
    | carries member => exact .carries (List.mem_append_right _ member)
    | waits there member =>
      by_cases same : errand.population = id
      · rw [same, here] at there
        cases there
        exact .carries (List.mem_append_left _ member)
      · rw [← other same] at there
        exact .waits there member
    | pends member => exact .pends member

/-- Whatever runs and populations do, the board names the same population as the latest one. -/
theorem Moves.namesLatest {reach : PopulationId → Prop} (h : Moves reach d d')
    (kept : d.WellKept) (names : d.NamesLatest board key latest carried) :
    d'.NamesLatest board key latest carried := by
  induction h with
  | alike same => exact names.of_eq same.populations_eq same.boards_eq same.pending_eq
  | goesOn _ goes_on => exact names.goesOn goes_on
  | @ends d id p outcome _ here unresolved fits =>
    -- the errands leave the population before the waiters are informed
    refine (names.ended here outcome).informed ?_ outcome
    intro errand member
    refine ⟨p.ended outcome, ?_, Option.some_ne_none outcome⟩
    rw [kept.own id p here errand member]
    exact population?_modifyPopulation_self here _
  | trans first _ ih ih' => exact ih' (first.wellKept kept) (ih kept names)

/-- Moves of populations for which no one waits touch no board and no result. -/
theorem Moves.quiet {reach : PopulationId → Prop} (h : Moves reach d d')
    (alone : ∀ id p, reach id → d.population? id = some p → p.waiters = []) :
    d'.boards = d.boards ∧ d'.pending = d.pending ∧
      ∀ id p, reach id → d'.population? id = some p → p.waiters = [] := by
  induction h with
  | alike same =>
    refine ⟨same.boards_eq, same.pending_eq, ?_⟩
    intro id p within here
    rw [same.population?_eq] at here
    exact alone id p within here
  | @goesOn d j f _ goes_on =>
    refine ⟨rfl, rfl, ?_⟩
    intro id p within here
    rw [population?_modifyPopulation] at here
    split at here
    · rename_i same
      obtain ⟨q, there, rfl⟩ := Option.map_eq_some_iff.1 here
      rw [same] at there within
      rw [(goes_on q there).waiters_eq]
      exact alone j q within there
    · exact alone id p within here
  | @ends d j q outcome within_j there _ _ =>
    rw [alone j q within_j there, informAll]
    refine ⟨rfl, rfl, ?_⟩
    intro id p within here
    rw [population?_modifyPopulation] at here
    split at here
    · obtain ⟨_, -, rfl⟩ := Option.map_eq_some_iff.1 here
      rfl
    · exact alone id p within here
  | trans _ _ ih ih' =>
    obtain ⟨boards, pending, alone'⟩ := ih alone
    obtain ⟨boards', pending', alone''⟩ := ih' alone'
    exact ⟨boards'.trans boards, pending'.trans pending, alone''⟩

/-! ## Registrations and deposits -/

/-- The errand of a waiter stays with the population that the waiter joins. -/
theorem NamesLatest.joined {waiter : Waiter} {id : PopulationId} {p : Population}
    (names : d.NamesLatest board key latest (errandsAll [waiter] ++ carried))
    (here : d.population? id = some p)
    (own : ∀ errand ∈ errandsAll [waiter], errand.population = id) :
    (d.modifyPopulation id fun _ => { p with waiters := p.waiters ++ [waiter] }).NamesLatest board
      key latest carried := by
  let joined : Population := { p with waiters := p.waiters ++ [waiter] }
  have at_id := population?_modifyPopulation_self here fun _ => joined
  have elsewhere {j : PopulationId} (differs : j ≠ id) :=
    d.population?_modifyPopulation_of_ne differs fun _ => joined
  have waits {errand : Delivery} (about : errand.population = id)
      (member : errand ∈ errandsAll p.waiters ++ errandsAll [waiter]) :
      (d.modifyPopulation id fun _ => joined).UnderWay carried errand := by
    rw [← errandsAll_append] at member
    have there : (d.modifyPopulation id fun _ => joined).population? errand.population =
        some joined := by
      rw [about]
      exact at_id
    exact .waits there member
  refine ⟨?_, ?_, names.only, ?_⟩
  · intro j started
    by_cases same : j = id
    · rw [same]
      exact ⟨joined, at_id⟩
    · rw [elsewhere same]
      exact names.known j started
  · intro j q started there unresolved
    by_cases same : j = id
    · rw [same] at started there
      obtain rfl : joined = q := Option.some.inj (at_id.symm.trans there)
      rw [same]
      exact names.named id p started here unresolved
    · rw [elsewhere same] at there
      exact names.named j q started there unresolved
  · intro j named
    obtain ⟨errand, concerns, under_way⟩ := names.due j named
    refine ⟨errand, concerns, ?_⟩
    cases under_way with
    | carries member =>
      rcases List.mem_append.1 member with brought | before
      · exact waits (own errand brought) (List.mem_append_right _ brought)
      · exact .carries before
    | @waits q there member =>
      by_cases about : errand.population = id
      · rw [about] at there
        obtain rfl : p = q := Option.some.inj (here.symm.trans there)
        exact waits about (List.mem_append_left _ member)
      · rw [← elsewhere about] at there
        exact .waits there member
    | pends member => exact .pends member

/-- A service that registers with a population leaves its errand there; if the population has
resolved, the errand is carried out. -/
theorem NamesLatest.registers {waiter : Waiter} {id : PopulationId} {p : Population}
    (names : d.NamesLatest board key latest (errandsAll [waiter] ++ carried))
    (here : d.population? id = some p)
    (own : ∀ errand ∈ errandsAll [waiter], errand.population = id) :
    (d.onResolved id waiter).NamesLatest board key latest carried := by
  cases settled : p.outcome with
  | none =>
    rw [onResolved_of_unresolved here settled]
    exact names.joined here own
  | some outcome =>
    rw [onResolved_of_resolved here settled]
    have populations := population?_modifyPopulation_const here
    have same : (d.modifyPopulation id fun _ => p).NamesLatest board key latest
        (errandsAll [waiter] ++ carried) := by
      refine names.congr ?_ (fun _ h => h) (fun _ h => h) (fun _ _ h _ _ => h)
      intro j q at_j
      rw [populations]
      exact at_j
    refine same.informed ?_ outcome
    intro errand member
    refine ⟨p, ?_, ?_⟩
    · rw [own errand member, populations]
      exact here
    · rw [settled]
      exact Option.some_ne_none outcome

/-- A deposit carries out the errand of its result and no other one. -/
theorem NamesLatest.settleAt [ResultStore σ] (names : d.NamesLatest board key latest carried)
    (kept : d.WellKept) (position : Nat) :
    (d.settleAt position).NamesLatest board key latest carried := by
  unfold Deployment.settleAt
  cases found : d.pending[position]? with
  | none => exact names
  | some waiting =>
    obtain ⟨errand, result⟩ := waiting
    let taken : Deployment σ := { d with pending := d.pending.eraseIdx position }
    have taken_names : taken.NamesLatest board key latest (errand :: carried) := by
      refine ⟨names.known, names.named, names.only, ?_⟩
      intro id named
      obtain ⟨e, concerns, under_way⟩ := names.due id named
      refine ⟨e, concerns, ?_⟩
      cases under_way with
      | carries member => exact .carries (List.mem_cons_of_mem _ member)
      | waits here member => exact .waits here member
      | @pends r member =>
        -- equal errands may wait at several positions; only this one was taken
        obtain ⟨i, at_i⟩ := List.mem_iff_getElem?.1 member
        by_cases same : i = position
        · rw [same, found] at at_i
          cases at_i
          exact .carries List.mem_cons_self
        · exact .pends (List.mem_eraseIdx_iff_getElem?.2 ⟨i, same, at_i⟩)
    have stores := taken.withStore_alike errand.store ()
      fun w => (w.deposit errand.cache errand.key result, ())
    have stored_names := taken_names.of_eq stores.populations_eq stores.boards_eq stores.pending_eq
    refine stored_names.cleared ?_
    obtain ⟨p, here, ended⟩ := kept.due _ (List.mem_of_getElem? found)
    exact ⟨p, (stores.population?_eq _).trans here, ended⟩

/-! ## Starting a population -/

/-- A note on a board concerns its key and no other one. -/
theorem flight?_note (d : Deployment σ) (board : BoardId) (key : CacheKey) (id : PopulationId)
    (board' : BoardId) (key' : CacheKey) :
    (d.modifyBoard board (·.put key id)).flight? board' key' =
      if board' = board ∧ key' = key then some id else d.flight? board' key' := by
  unfold flight?
  rw [board_modifyBoard]
  by_cases same : board' = board
  · rw [if_pos same, Table.get?_put, same]
    simp only [beq_iff_eq, true_and]
  · rw [if_neg same, if_neg (fun both => same both.1)]

/-- The place of a population that is refused goes back to the one that it displaced, unless that
one has resolved. -/
theorem flight?_withdraw {id : PopulationId} (noted : d.flight? board key = some id)
    (displaced : Option PopulationId) (board' : BoardId) (key' : CacheKey) :
    (d.withdraw board key id displaced).flight? board' key' =
      if board' = board ∧ key' = key then displaced.filter fun id => !d.isResolved id
      else d.flight? board' key' := by
  unfold withdraw
  unfold flight? at noted ⊢
  rw [board_modifyBoard]
  by_cases same : board' = board
  · rw [if_pos same, if_pos noted, same]
    simp only [true_and]
    cases displaced.filter fun id => !d.isResolved id with
    | none =>
      dsimp only
      rw [Table.get?_erase]
      simp only [beq_iff_eq]
    | some previous =>
      dsimp only
      rw [Table.get?_put]
      simp only [beq_iff_eq]
  · rw [if_neg same, if_neg (fun both => same both.1)]

section

variable (s : Service) (q : Query) (key' : CacheKey) (run : RunId) (label : String)

/-- A service that enters a population makes one under the next identity. -/
theorem population?_entered (d : Deployment σ) (id : PopulationId) :
    (d.entered s q key' label).population? id =
      if id = ⟨d.serial⟩ then
        some { label, key := key', query := q, outputStep := s.definition.outputStep }
      else d.population? id :=
  d.population?_addPopulation _ id

/-- The populations that are there keep their identities when another one is entered. -/
theorem population?_entered_of_some (kept : d.WellKept) {id : PopulationId} {p : Population}
    (here : d.population? id = some p) :
    id ≠ ⟨d.serial⟩ ∧ (d.entered s q key' label).population? id = some p := by
  exact ⟨kept.ne_serial here, kept.population?_addPopulation here _⟩

/-- A population that is entered is named on the board of its service under its key. -/
theorem flight?_entered (d : Deployment σ) (board : BoardId) (key : CacheKey) :
    (d.entered s q key' label).flight? board key =
      if board = s.board ∧ key = key' then some ⟨d.serial⟩ else d.flight? board key :=
  flight?_note _ s.board key' ⟨d.serial⟩ board key

/-- Populations are in order when another one is entered. -/
theorem WellKept.entered (kept : d.WellKept) : (d.entered s q key' label).WellKept := by
  have adding : d.Changes [] (d.addPopulation
      { label, key := key', query := q, outputStep := s.definition.outputStep }).1 :=
    .adds d label key' q s.definition.outputStep
  exact (adding.wellKept kept).congr rfl (Nat.le_refl _) fun _ waits => waits

/-- The population that was entered is the latest one for its key, and the errand to take it off the
board is carried. -/
theorem NamesLatest.entered (names : d.NamesLatest board key latest carried) (kept : d.WellKept)
    {errand : Delivery} (own : errand.concerns s.board key' ⟨d.serial⟩ = true) :
    (d.entered s q key' label).NamesLatest board key
      (if board = s.board ∧ key = key' then some ⟨d.serial⟩ else latest) (errand :: carried) := by
  have flights := d.flight?_entered s q key' label board key
  by_cases here : board = s.board ∧ key = key'
  · rw [if_pos here] at flights ⊢
    refine ⟨?_, ?_, ?_, ?_⟩
    · rintro _ ⟨⟩
      exact ⟨_, by rw [population?_entered, if_pos rfl]⟩
    · intro id p started _ _
      exact flights.trans started
    · intro id named
      exact flights.symm.trans named
    · intro id named
      have same : some ⟨d.serial⟩ = some id := flights.symm.trans named
      cases same
      rw [here.1, here.2]
      exact ⟨errand, own, .carries List.mem_cons_self⟩
  · rw [if_neg here] at flights ⊢
    have elsewhere : (d.entered s q key' label).NamesLatest board key latest carried := by
      refine names.congr ?_ (fun _ waits => waits) ?_ ?_
      · intro id p at_id
        exact (population?_entered_of_some s q key' label kept at_id).2
      · intro id named
        rw [← flights]
        exact named
      · intro id p named _ _
        rw [flights]
        exact named
    exact elsewhere.carry [errand]

/-- No one waits for a population that was just entered, so installing it is not felt elsewhere. -/
theorem installed_quiet (d : Deployment σ) :
    let installed := (d.entered s q key' label).install ⟨d.serial⟩ run
    installed.boards = (d.entered s q key' label).boards ∧ installed.pending = d.pending ∧
      ∀ p, installed.population? ⟨d.serial⟩ = some p → p.waiters = [] := by
  obtain ⟨boards, pending, alone⟩ :=
    ((d.entered s q key' label).install_moves ⟨d.serial⟩ run).quiet (by
      rintro _ p rfl at_id
      rw [population?_entered, if_pos rfl] at at_id
      cases at_id
      rfl)
  exact ⟨boards, pending, fun p => alone _ p rfl⟩

/-- The populations that are there are as they were when another one is entered and installed. -/
theorem population?_installed_of_some (kept : d.WellKept) {id : PopulationId} {p : Population}
    (here : d.population? id = some p) :
    ((d.entered s q key' label).install ⟨d.serial⟩ run).population? id = some p := by
  obtain ⟨earlier, entered⟩ := population?_entered_of_some s q key' label kept here
  exact (((d.entered s q key' label).install_moves _ run).population?_eq earlier).trans entered

/-- An installation, successful or not, does not change what a board names. -/
theorem flight?_installed (d : Deployment σ) (board : BoardId) (key : CacheKey) :
    ((d.entered s q key' label).install ⟨d.serial⟩ run).flight? board key =
      if board = s.board ∧ key = key' then some ⟨d.serial⟩ else d.flight? board key := by
  rw [← flight?_entered s q key' label]
  unfold flight? Deployment.board
  rw [(installed_quiet s q key' run label d).1]

/-- What the boards name when a population was refused. -/
theorem flight?_refused (d : Deployment σ) (displaced : Option PopulationId) (board : BoardId)
    (key : CacheKey) :
    let installed := (d.entered s q key' label).install ⟨d.serial⟩ run
    (installed.withdraw s.board key' ⟨d.serial⟩ displaced).flight? board key =
      if board = s.board ∧ key = key' then displaced.filter fun id => !installed.isResolved id
      else d.flight? board key := by
  intro installed
  have noted : installed.flight? s.board key' = some ⟨d.serial⟩ := by
    rw [flight?_installed, if_pos ⟨rfl, rfl⟩]
  rw [flight?_withdraw noted, flight?_installed]
  split <;> rfl

/-- A population that is refused leaves the board as it was, but that one it had displaced is no
longer named if it has resolved. -/
theorem NamesLatest.refused (names : d.NamesLatest board key latest carried) (kept : d.WellKept) :
    (((d.entered s q key' label).install ⟨d.serial⟩ run).withdraw s.board key' ⟨d.serial⟩
      (d.flight? s.board key')).NamesLatest board key latest carried := by
  let installed := (d.entered s q key' label).install ⟨d.serial⟩ run
  have populations (id : PopulationId) (p : Population) (at_id : d.population? id = some p) :
      installed.population? id = some p :=
    population?_installed_of_some s q key' run label kept at_id
  have withdrawn :=
    flight?_refused s q key' run label d (d.flight? s.board key') board key
  refine names.congr populations ?_ ?_ ?_
  · intro waiting waits
    exact (installed_quiet s q key' run label d).2.1.symm ▸ waits
  · intro id named
    rw [withdrawn] at named
    split at named
    · rename_i here
      rw [here.1, here.2]
      exact (Option.filter_eq_some_iff.1 named).1
    · exact named
  · intro id p named at_id unresolved
    rw [withdrawn]
    split
    · rename_i here
      rw [here.1, here.2] at named
      have open_still : installed.isResolved id = false := by
        rw [isResolved_eq (populations id p at_id) (kept.consistent id p at_id).sound, unresolved]
        rfl
      rw [named, Option.filter_some, open_still]
      rfl
    · exact named

/-- Only a population that is not refused becomes the latest one for its key. -/
theorem NamesLatest.startPopulation (names : d.NamesLatest board key latest carried)
    (kept : d.WellKept) :
    let started := d.startPopulation s q key' run label (d.flight? s.board key')
    (∃ failure, started.2 = .error failure ∧ started.1.NamesLatest board key latest carried) ∨
    ∃ id, started.2 = .ok (.started id) ∧ started.1.NamesLatest board key
      (if board = s.board ∧ key = key' then some id else latest) carried := by
  intro started
  rcases d.startPopulation_cases s q key' run label (d.flight? s.board key') with
    ⟨failure, refused⟩ | begun
  · refine .inl ⟨failure, congrArg Prod.snd refused, ?_⟩
    rw [show started = _ from refused]
    exact (names.refused s q key' run label kept).of_eq rfl rfl rfl
  · refine .inr ⟨⟨d.serial⟩, congrArg Prod.snd begun, ?_⟩
    rw [show started = _ from begun]
    let errand : Delivery :=
      { service := s.name, cache := s.cacheName, key := key', population := ⟨d.serial⟩
        store := s.store, board := s.board }
    have own : errand.concerns s.board key' ⟨d.serial⟩ = true := decide_eq_true ⟨rfl, rfl, rfl⟩
    have moves := (d.entered s q key' label).install_moves ⟨d.serial⟩ run
    have entered_kept := kept.entered s q key' label
    have installed := moves.namesLatest entered_kept (names.entered s q key' label kept own)
    obtain ⟨p, at_id, -⟩ := moves.exists_grows entered_kept
      ((population?_entered s q key' label d ⟨d.serial⟩).trans (if_pos rfl))
    have reported : (((d.entered s q key' label).install ⟨d.serial⟩ run).reportFlights s).NamesLatest
        board key (if board = s.board ∧ key = key' then some ⟨d.serial⟩ else latest)
        (errandsAll [.deliver errand] ++ carried) := installed.of_eq rfl rfl rfl
    refine reported.registers at_id ?_
    intro e on_errand
    rw [errandsAll_deliver, List.mem_singleton] at on_errand
    rw [on_errand]

end

/-- After a call to populate the board names the population that was started, if one was. -/
theorem NamesLatest.populate (names : d.NamesLatest board key latest carried) (kept : d.WellKept)
    (s : Service) (q : Query) (run : RunId) (label : String) :
    (d.populate s q run label).1.NamesLatest board key
      (((Operation.populate s q run label : Operation σ).started? d board key).or latest)
      carried := by
  rcases d.populate_cases s q run label with
    ⟨d', answer, same, alike, other⟩ | ⟨key', exact_key, start⟩
  · have none_started :
        (Operation.populate s q run label : Operation σ).started? d board key = none := by
      rw [Operation.started?, same]
      split
      · rename_i id _ answered
        exact absurd answered (other id)
      · rfl
    rw [none_started, same]
    exact names.of_eq alike.populations_eq alike.boards_eq alike.pending_eq
  · rcases names.startPopulation s q key' run label kept with
      ⟨failure, answered, now⟩ | ⟨id, answered, now⟩
    · have none_started :
          (Operation.populate s q run label : Operation σ).started? d board key = none := by
        rw [Operation.started?, start, exact_key, answered]
      rw [none_started, start]
      exact now
    · have one_started :
          (Operation.populate s q run label : Operation σ).started? d board key =
            if s.board = board ∧ key' = key then some id else none := by
        rw [Operation.started?, start, exact_key, answered]
      rw [one_started, start]
      by_cases here : board = s.board ∧ key = key'
      · rw [if_pos here] at now
        rw [if_pos ⟨here.1.symm, here.2.symm⟩]
        exact now
      · rw [if_neg here] at now
        rw [if_neg fun both => here ⟨both.1.symm, both.2.symm⟩]
        exact now

/-! ## Courses of operations -/

variable [ResultStore σ]

/-- The population that was started last for a key on a board in a course of operations. -/
def lastStarted (d : Deployment σ) (board : BoardId) (key : CacheKey) :
    List (Operation σ) → Option PopulationId
  | [] => none
  | op :: ops => (lastStarted (d.apply op) board key ops).or (op.started? d board key)

/-- After any operation a board names the population that it started for the key, or the one before.
-/
theorem NamesLatest.apply (names : d.NamesLatest board key latest []) (kept : d.WellKept)
    (op : Operation σ) :
    (d.apply op).NamesLatest board key ((op.started? d board key).or latest) [] := by
  cases op with
  | addPopulation label key' query outputStep =>
    refine names.congr ?_ (fun _ waits => waits) (fun _ named => named) (fun _ _ named _ _ => named)
    intro id p here
    exact kept.population?_addPopulation here _
  | onResolved id waiter outside =>
    show (d.onResolved id waiter).NamesLatest board key latest []
    cases here : d.population? id with
    | none =>
      rw [onResolved_of_missing here]
      exact names
    | some p =>
      refine NamesLatest.registers ?_ here ?_
      · rw [outside]
        exact names
      · rw [outside]
        intro errand member
        cases member
  | populate s q run label => exact names.populate kept s q run label
  | settleAt position => exact names.settleAt kept position
  | _ => exact (d.apply_moves rfl).namesLatest kept names

/-- After any course of operations a board names none but the population that was started last for
the key. -/
theorem NamesLatest.after (names : d.NamesLatest board key latest []) (kept : d.WellKept)
    (ops : List (Operation σ)) :
    (d.after ops).NamesLatest board key ((lastStarted d board key ops).or latest) [] := by
  induction ops generalizing d latest with
  | nil => exact names
  | cons op ops ih =>
    have next := ih (names.apply kept op) ((d.apply_changes op).wellKept kept)
    rw [lastStarted, Option.or_assoc]
    exact next

/-- **A board names the population in flight.** Whatever operations follow each other, in whichever
order, a population that was started last for a key on a board is there, and as long as it is
unresolved the board names it. When no result waits to be deposited for the key on the board, then
the board names a population if and only if it is the last one started and unresolved. -/
theorem flight?_iff_lastStarted (ops : List (Operation σ)) (board : BoardId) (key : CacheKey) :
    let d := ({} : Deployment σ).after ops
    let last := lastStarted ({} : Deployment σ) board key ops
    (∀ id, last = some id → (d.population? id).isSome = true ∧
      (d.isResolved id = false → d.flight? board key = some id)) ∧
    ((∀ waiting ∈ d.pending, ¬(waiting.1.board = board ∧ waiting.1.key = key)) →
      ∀ id, d.flight? board key = some id ↔ last = some id ∧ d.isResolved id = false) := by
  intro d last
  have kept : d.WellKept := wellKept_after wellKept_empty ops
  have names : d.NamesLatest board key last [] := by
    have now := (namesLatest_empty board key).after wellKept_empty ops
    rw [Option.or_none] at now
    exact now
  have isResolved_iff {id : PopulationId} {p : Population} (here : d.population? id = some p) :
      d.isResolved id = false ↔ p.outcome = none := by
    rw [isResolved_eq here (kept.consistent id p here).sound]
    exact Option.isSome_eq_false_iff.trans Option.isNone_iff_eq_none
  have named (id : PopulationId) (is_last : last = some id) (unresolved : d.isResolved id = false) :
      d.flight? board key = some id := by
    obtain ⟨p, here⟩ := names.known id is_last
    exact names.named id p is_last here ((isResolved_iff here).1 unresolved)
  refine ⟨?_, ?_⟩
  · intro id is_last
    obtain ⟨p, here⟩ := names.known id is_last
    exact ⟨by rw [here]; rfl, named id is_last⟩
  · intro settled id
    constructor
    · intro is_named
      refine ⟨names.only id is_named, ?_⟩
      -- the errand can wait only with the population, and resolved ones have no waiters
      obtain ⟨errand, concerns, under_way⟩ := names.due id is_named
      cases under_way with
      | carries member => cases member
      | @waits p here member =>
        rw [Delivery.population_eq_of_concerns concerns] at here
        refine (isResolved_iff here).2 (Classical.byContradiction fun resolved => ?_)
        rw [(kept.consistent id p here).served resolved] at member
        cases member
      | pends member =>
        obtain ⟨same_board, same_key, -⟩ := of_decide_eq_true concerns
        exact absurd ⟨same_board, same_key⟩ (settled _ member)
    · rintro ⟨is_last, unresolved⟩
      exact named id is_last unresolved

/-- A service over the board and the store of its deployment. -/
def numbersService : Service :=
  { definition :=
      { name := "numbers", outputStep := "out"
        strategies := [.resultCache ⟨"cache", ⟨"in", "sort", "out"⟩⟩] }
    settings := {}, store := ⟨2⟩, board := ⟨0⟩ }

/-- A population with a cap is displaced by one with a wider cap. A third one is refused by the run
of the second one, and then the first one comes to its end and its result is deposited. -/
def displacedAndRefused : List (Operation KeyedMap) :=
  let capped (rows : UInt64) : Query := { fingerprint := some 7, rowLimit := some rows }
  [.addRun "first" [("out", ["n"])] [] 0 [],
    .addRun "second" [("out", ["n"])] [] 0 [],
    .addStore {},
    .populate numbersService (capped 5) ⟨"first", 0⟩ "displaced",
    .populate numbersService (capped 9) ⟨"second", 1⟩ "successor",
    .populate numbersService { fingerprint := some 7 } ⟨"second", 1⟩ "refused",
    .engine (.start "first"),
    .engine (.finish "first" "out" [] false),
    .settleAt 0]

/-- The board still names the second population when the first one has resolved, and no other one
when nothing waits any more. -/
theorem flight?_displacedAndRefused :
    let d := ({} : Deployment KeyedMap).after displacedAndRefused
    let key : CacheKey := { pipelineVersion := 7 }
    d.isResolved ⟨3⟩ = true ∧ d.isResolved ⟨5⟩ = true ∧
      ∀ id, d.flight? ⟨0⟩ key = some id ↔ id = ⟨4⟩ := by
  intro d key
  have last : lastStarted ({} : Deployment KeyedMap) ⟨0⟩ key displacedAndRefused = some ⟨4⟩ := rfl
  have unresolved : d.isResolved ⟨4⟩ = false := rfl
  have settled : ∀ waiting ∈ d.pending,
      ¬(waiting.1.board = (⟨0⟩ : BoardId) ∧ waiting.1.key = key) := by
    have none_waits : d.pending = [] := rfl
    rw [none_waits]
    intro waiting waits
    cases waits
  obtain ⟨-, names⟩ := flight?_iff_lastStarted displacedAndRefused ⟨0⟩ key
  refine ⟨rfl, rfl, ?_⟩
  intro id
  rw [names settled id, last]
  constructor
  · rintro ⟨same, -⟩
    exact (Option.some.inj same).symm
  · rintro rfl
    exact ⟨rfl, unresolved⟩

end Deployment

end DataService
