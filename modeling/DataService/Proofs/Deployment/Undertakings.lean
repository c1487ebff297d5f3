import DataService.Proofs.Deployment.Flights

/-!
# What services undertook

A service that starts a population for a query undertakes to bring its result home. The undertakings
of a course of operations (`undertakings`) are a record beside the deployment, and what goes on in
the deployment can be traced back to it. A population that was undertaken is there, as it was started
(`began_after`), and it is undertaken once (`eq_of_mem_undertakings`); every errand that is under way
was sent by an undertaking (`UnderWay.of_after`); and the population that a board names was
undertaken for the key under which it is named (`exists_undertaking_of_flight?`).
-/

set_option autoImplicit false

namespace DataService

/-- A population that a service started for a query. -/
structure Undertaking where
  population : PopulationId
  service : Service
  query : Query

/-- The errand is the one on which the service of an undertaking sent for the result. -/
structure Undertaking.Sent (u : Undertaking) (errand : Delivery) : Prop where
  population_eq : errand.population = u.population
  store_eq : errand.store = u.service.store
  cache_eq : errand.cache = u.service.cacheName
  exact_key : CacheKey.ofQuery u.query = .ok errand.key

/-- The population is the one that an undertaking started: it has its query and the exact key of that,
and captures the output step of its service. -/
structure Undertaking.Began (u : Undertaking) (p : Population) : Prop where
  query_eq : p.query = u.query
  exact_key : CacheKey.ofQuery u.query = .ok p.key
  outputStep_eq : p.outputStep = u.service.definition.outputStep

/-- What a population was started for stays the same while it grows. -/
theorem Undertaking.Began.grows {u : Undertaking} {p p' : Population} (began : u.Began p)
    (grows : p.Grows p') : u.Began p' where
  query_eq := grows.query_eq.trans began.query_eq
  exact_key := by
    rw [grows.key_eq]
    exact began.exact_key
  outputStep_eq := grows.outputStep_eq.trans began.outputStep_eq

/-- The population that a service started, if it started one. -/
def Admission.started? : Admission → Option PopulationId
  | .started id => some id
  | .attached _ => none

/-- What a service undertakes by an operation. -/
def Operation.undertaken {σ : Type} (d : Deployment σ) : Operation σ → Option Undertaking
  | .populate s q run label =>
    ((d.populate s q run label).2.toOption.bind Admission.started?).map fun id => ⟨id, s, q⟩
  | _ => none

namespace Deployment

variable {σ : Type} {d d' : Deployment σ} {errand : Delivery} {id : PopulationId} {p : Population}

/-- To populate undertakes something exactly if a population is started, for the service and the
query that were named. -/
theorem undertaken_populate_iff {s : Service} {q : Query} {run : RunId} {label : String}
    {u : Undertaking} :
    (Operation.populate s q run label : Operation σ).undertaken d = some u ↔
      (d.populate s q run label).2 = .ok (.started u.population) ∧ u.service = s ∧ u.query = q := by
  obtain ⟨id, s', q'⟩ := u
  show ((d.populate s q run label).2.toOption.bind Admission.started?).map _ = _ ↔ _
  generalize (d.populate s q run label).2 = answer
  rcases answer with failure | started | attached <;>
    simp [Except.toOption, Admission.started?, eq_comm]

/-! ## Where errands come from -/

/-- An errand is under way already where all that it could wait with was there. -/
theorem UnderWay.of_subset (after : d'.UnderWay [] errand)
    (populations : ∀ id p, d'.population? id = some p → d.population? id = some p)
    (pending : ∀ waiting ∈ d'.pending, waiting ∈ d.pending) : d.UnderWay [] errand :=
  after.mono (fun _ member => member) populations pending

/-- An errand that is under way when a population was changed was so before, or it waits with this
population now. -/
theorem UnderWay.of_modifyPopulation {f : Population → Population}
    (after : (d.modifyPopulation id f).UnderWay [] errand) :
    d.UnderWay [] errand ∨ ∃ p, d.population? id = some p ∧ errand.population = id ∧
      errand ∈ errandsAll (f p).waiters := by
  cases after with
  | carries member => cases member
  | waits there member =>
    rw [population?_modifyPopulation] at there
    split at there
    · rename_i same
      obtain ⟨p, here, rfl⟩ := Option.map_eq_some_iff.1 there
      rw [same] at here
      exact .inr ⟨p, here, same, member⟩
    · exact .inl (.waits there member)
  | pends member => exact .inl (.pends member)

/-- An errand that is under way when waiters were informed was so before, or it is one of theirs. -/
theorem UnderWay.of_informAll {outcome : Outcome} {ws : List Waiter}
    (after : (informAll outcome ws d).UnderWay [] errand) :
    d.UnderWay [] errand ∨ errand ∈ errandsAll ws := by
  cases after with
  | carries member => cases member
  | waits there member =>
    rw [population?_informAll] at there
    exact .inl (.waits there member)
  | pends member =>
    cases outcome with
    | error failure =>
      rw [pending_informAll_error] at member
      exact .inl (.pends member)
    | ok result =>
      rw [pending_informAll_ok, List.mem_append] at member
      rcases member with before | now
      · exact .inl (.pends before)
      · obtain ⟨_, on_errand, same⟩ := List.mem_map.1 now
        cases same
        exact .inr on_errand

/-- No errand comes from what runs and populations do. -/
theorem Moves.underWay_of {reach : PopulationId → Prop} (h : Moves reach d d')
    (kept : d.WellKept) (after : d'.UnderWay [] errand) : d.UnderWay [] errand := by
  induction h with
  | alike same =>
    refine after.of_subset ?_ ?_
    · intro id p there
      rw [← same.population?_eq]
      exact there
    · intro waiting waits
      rw [← same.pending_eq]
      exact waits
  | @goesOn d id f _ goes_on =>
    rcases after.of_modifyPopulation with before | ⟨p, here, about, waits⟩
    · exact before
    · rw [(goes_on p here).waiters_eq] at waits
      exact .waits (by rw [about]; exact here) waits
  | @ends d id p outcome _ here _ _ =>
    rcases after.of_informAll with ended | waited
    · rcases ended.of_modifyPopulation with before | ⟨_, -, -, waits⟩
      · exact before
      · cases waits
    · -- the errands that waited with the population are out with its result
      exact .waits (by rw [kept.own id p here errand waited]; exact here) waited
  | trans first _ ih ih' => exact ih kept (ih' (first.wellKept kept) after)

/-- A waiter that is registered brings its own errands and no others. -/
theorem UnderWay.of_onResolved {waiter : Waiter} (after : (d.onResolved id waiter).UnderWay [] errand)
    (here : d.population? id = some p) : errand ∈ errandsAll [waiter] ∨ d.UnderWay [] errand := by
  have waited (about : errand.population = id) (waits : errand ∈ errandsAll p.waiters) :
      d.UnderWay [] errand := .waits (by rw [about]; exact here) waits
  cases settled : p.outcome with
  | none =>
    rw [onResolved_of_unresolved here settled] at after
    rcases after.of_modifyPopulation with before | ⟨_, -, about, waits⟩
    · exact .inr before
    · rw [errandsAll_append, List.mem_append] at waits
      exact (waits.imp_left (waited about)).symm
  | some outcome =>
    rw [onResolved_of_resolved here settled] at after
    rcases after.of_informAll with same | brought
    · rcases same.of_modifyPopulation with before | ⟨_, -, about, waits⟩
      · exact .inr before
      · exact .inr (waited about waits)
    · exact .inl brought

section

variable (s : Service) (q : Query) (key : CacheKey) (run : RunId) (label : String)

/-- No errand waits with a population that was just entered, and none comes from installing it. -/
theorem UnderWay.of_installed (kept : d.WellKept)
    (after : ((d.entered s q key label).install ⟨d.serial⟩ run).UnderWay [] errand) :
    d.UnderWay [] errand := by
  have entered := ((d.entered s q key label).install_moves ⟨d.serial⟩ run).underWay_of
    (kept.entered s q key label) after
  cases entered with
  | carries member => cases member
  | waits there member =>
    rw [population?_entered] at there
    split at there
    · cases there
      cases member
    · exact .waits there member
  | pends member => exact .pends member

/-- A population that a service starts has the query and the key that it is started for, and captures
the output step of the service. -/
theorem exists_population?_startPopulation (kept : d.WellKept) {displaced : Option PopulationId}
    (started : d.startPopulation s q key run label displaced = (d', .ok (.started id))) :
    ∃ p, d'.population? id = some p ∧ p.query = q ∧ p.key = key ∧
      p.outputStep = s.definition.outputStep := by
  rcases d.startPopulation_cases s q key run label displaced with ⟨failure, refused⟩ | begun
  · rw [refused] at started
    cases started
  · rw [begun] at started
    cases started
    let reported := ((d.entered s q key label).install ⟨d.serial⟩ run).reportFlights s
    have entered_kept := kept.entered s q key label
    have moves := (d.entered s q key label).install_moves ⟨d.serial⟩ run
    obtain ⟨p, at_id, grows⟩ := moves.exists_grows entered_kept
      ((population?_entered s q key label d ⟨d.serial⟩).trans (if_pos rfl))
    have there : reported.population? ⟨d.serial⟩ = some p := at_id
    have reported_kept : reported.WellKept :=
      (moves.wellKept entered_kept).congr rfl (Nat.le_refl _) fun _ waits => waits
    have registers : reported.Changes [] (reported.onResolved ⟨d.serial⟩ (.deliver
        { service := s.name, cache := s.cacheName, key, population := ⟨d.serial⟩
          store := s.store, board := s.board })) := deliver_changes there rfl
    obtain ⟨p', at_id', grows'⟩ := registers.exists_grows reported_kept there
    have all := grows.trans grows'
    exact ⟨p', at_id', all.query_eq, all.key_eq, all.outputStep_eq⟩

/-- The only errand that a service adds when it starts a population is its own. -/
theorem UnderWay.of_startPopulation (kept : d.WellKept) {displaced : Option PopulationId}
    (after : (d.startPopulation s q key run label displaced).1.UnderWay [] errand) :
    d.UnderWay [] errand ∨ ∃ id,
      (d.startPopulation s q key run label displaced).2 = .ok (.started id) ∧
      errand = { service := s.name, cache := s.cacheName, key, population := id
                 store := s.store, board := s.board } := by
  have same {d : Deployment σ} : ∀ id p, d.population? id = some p → d.population? id = some p :=
    fun _ _ there => there
  rcases d.startPopulation_cases s q key run label displaced with ⟨failure, refused⟩ | begun
  · rw [refused] at after
    exact .inl (.of_installed s q key run label kept (after.of_subset same fun _ waits => waits))
  · rw [begun] at after ⊢
    cases here : (((d.entered s q key label).install ⟨d.serial⟩ run).reportFlights s).population?
        ⟨d.serial⟩ with
    | none =>
      rw [onResolved_of_missing here] at after
      exact .inl (.of_installed s q key run label kept (after.of_subset same fun _ waits => waits))
    | some p =>
      rcases after.of_onResolved here with brought | before
      · rw [errandsAll_deliver, List.mem_singleton] at brought
        exact .inr ⟨⟨d.serial⟩, rfl, brought⟩
      · exact .inl
          (.of_installed s q key run label kept (before.of_subset same fun _ waits => waits))

/-- A population that is undertaken is there. -/
theorem exists_began_populate (kept : d.WellKept) {u : Undertaking}
    (undertaken : (Operation.populate s q run label : Operation σ).undertaken d = some u) :
    ∃ p, (d.populate s q run label).1.population? u.population = some p ∧ u.Began p := by
  obtain ⟨answered, rfl, rfl⟩ := undertaken_populate_iff.1 undertaken
  rcases d.populate_cases u.service u.query run label with
    ⟨now, answer, same, -, other⟩ | ⟨key, exact_key, start⟩
  · rw [same] at answered
    exact absurd answered (other _)
  · rw [start] at answered ⊢
    obtain ⟨p, there, query_eq, key_eq, outputStep_eq⟩ :=
      exists_population?_startPopulation u.service u.query key run label kept
        (Prod.ext rfl answered)
    exact ⟨p, there, query_eq, by rw [key_eq]; exact exact_key, outputStep_eq⟩

/-- An errand that is under way after a population has begun was under way before, or was sent for
that population. -/
theorem UnderWay.of_populate (kept : d.WellKept)
    (after : (d.populate s q run label).1.UnderWay [] errand) :
    d.UnderWay [] errand ∨ ∃ u,
      (Operation.populate s q run label : Operation σ).undertaken d = some u ∧ u.Sent errand := by
  rcases d.populate_cases s q run label with ⟨now, answer, same, alike, -⟩ | ⟨key, exact_key, start⟩
  · rw [same] at after
    have moves : Moves Anyone d now := .alike alike
    exact .inl (moves.underWay_of kept after)
  · rw [start] at after
    rcases UnderWay.of_startPopulation s q key run label kept after with before | ⟨id, answered, rfl⟩
    · exact .inl before
    · refine .inr ⟨⟨id, s, q⟩, ?_, rfl, rfl, rfl, exact_key⟩
      rw [undertaken_populate_iff, start]
      exact ⟨answered, rfl, rfl⟩

end

/-- A population that is undertaken was not there before. -/
theorem population?_of_undertaken (kept : d.WellKept) {op : Operation σ} {u : Undertaking}
    (undertaken : op.undertaken d = some u) : d.population? u.population = none := by
  cases op with
  | populate s q run label =>
    obtain ⟨answered, -, -⟩ := undertaken_populate_iff.1 undertaken
    rcases d.populate_cases s q run label with ⟨now, answer, same, -, other⟩ | ⟨key, -, start⟩
    · rw [same] at answered
      exact absurd answered (other _)
    · rw [start] at answered
      rcases d.startPopulation_cases s q key run label (d.flight? s.board key) with
        ⟨failure, refused⟩ | begun
      · rw [refused] at answered
        cases answered
      · rw [begun] at answered
        rw [← Admission.started.inj (Except.ok.inj answered)]
        exact kept.population?_serial
  | _ => cases undertaken

variable [ResultStore σ]

/-- A deposit takes an errand away at most. -/
theorem UnderWay.of_settleAt {position : Nat} (after : (d.settleAt position).UnderWay [] errand) :
    d.UnderWay [] errand := by
  rcases d.settleAt_cases position with same | ⟨waiting, result, -, deposits⟩
  · rw [same] at after
    exact after
  · rw [deposits] at after
    let rest : Deployment σ := { d with pending := d.pending.eraseIdx position }
    have stores := rest.withStore_alike waiting.store ()
      fun w => (w.deposit waiting.cache waiting.key result, ())
    refine after.of_subset ?_ ?_
    · intro id p there
      rw [← show rest.population? id = d.population? id from rfl, ← stores.population?_eq]
      exact there
    · intro waiting' waits
      have still : waiting' ∈ rest.pending := by
        rw [← stores.pending_eq]
        exact waits
      exact List.mem_of_mem_eraseIdx still

/-- An errand that is under way after an operation was so before, or was sent by what the operation
undertook. -/
theorem UnderWay.of_apply (kept : d.WellKept) {op : Operation σ}
    (after : (d.apply op).UnderWay [] errand) :
    d.UnderWay [] errand ∨ ∃ u, op.undertaken d = some u ∧ u.Sent errand := by
  cases op with
  | addPopulation label key query outputStep =>
    refine .inl ?_
    cases after with
    | carries member => cases member
    | @waits p there member =>
      have there : (d.addPopulation _).1.population? errand.population = some p := there
      rw [population?_addPopulation] at there
      split at there
      · cases there
        cases member
      · exact .waits there member
    | pends member => exact .pends member
  | onResolved id waiter outside =>
    have after : (d.onResolved id waiter).UnderWay [] errand := after
    refine .inl ?_
    cases here : d.population? id with
    | none =>
      rw [onResolved_of_missing here] at after
      exact after
    | some p =>
      rcases after.of_onResolved here with brought | before
      · rw [outside] at brought
        cases brought
      · exact before
  | populate s q run label => exact UnderWay.of_populate s q run label kept after
  | settleAt position => exact .inl (.of_settleAt after)
  | _ => exact .inl ((d.apply_moves rfl).underWay_of kept after)

/-! ## Courses of operations -/

/-- What services undertook in a course of operations, in order. -/
def undertakings (d : Deployment σ) : List (Operation σ) → List Undertaking
  | [] => []
  | op :: ops => (op.undertaken d).toList ++ undertakings (d.apply op) ops

/-- A population that was undertaken is there from then on. -/
theorem began_after (kept : d.WellKept) {ops : List (Operation σ)} {u : Undertaking}
    (undertaken : u ∈ undertakings d ops) :
    ∃ p, (d.after ops).population? u.population = some p ∧ u.Began p := by
  induction ops generalizing d with
  | nil => cases undertaken
  | cons op ops ih =>
    have kept' := (d.apply_changes op).wellKept kept
    rw [undertakings, List.mem_append, Option.mem_toList] at undertaken
    rcases undertaken with now | later
    · cases op with
      | populate s q run label =>
        obtain ⟨p, there, began⟩ := exists_began_populate s q run label kept now
        obtain ⟨p', there', grows⟩ := exists_grows_after kept' there ops
        exact ⟨p', there', began.grows grows⟩
      | _ => cases now
    · exact ih kept' later

/-- A population that was undertaken is there, with the query and the key of the undertaking. -/
theorem begun_after (kept : d.WellKept) {ops : List (Operation σ)} {u : Undertaking}
    (undertaken : u ∈ undertakings d ops) :
    ∃ p, (d.after ops).population? u.population = some p ∧ p.query = u.query ∧
      CacheKey.ofQuery u.query = .ok p.key := by
  obtain ⟨p, there, began⟩ := began_after kept undertaken
  exact ⟨p, there, began.query_eq, began.exact_key⟩

/-- Populations that are yet to be started are not there. -/
theorem population?_of_mem_undertakings (kept : d.WellKept) {ops : List (Operation σ)}
    {u : Undertaking} (undertaken : u ∈ undertakings d ops) :
    d.population? u.population = none := by
  induction ops generalizing d with
  | nil => cases undertaken
  | cons op ops ih =>
    rw [undertakings, List.mem_append, Option.mem_toList] at undertaken
    rcases undertaken with now | later
    · exact population?_of_undertaken kept now
    · have missing := ih ((d.apply_changes op).wellKept kept) later
      rw [Option.eq_none_iff_forall_ne_some]
      intro p here
      obtain ⟨p', here', -⟩ := (d.apply_changes op).exists_grows kept here
      rw [missing] at here'
      cases here'

/-- No population is undertaken twice. -/
theorem eq_of_mem_undertakings (kept : d.WellKept) {ops : List (Operation σ)} {u u' : Undertaking}
    (undertaken : u ∈ undertakings d ops) (undertaken' : u' ∈ undertakings d ops)
    (same : u.population = u'.population) : u = u' := by
  induction ops generalizing d with
  | nil => cases undertaken
  | cons op ops ih =>
    have kept' := (d.apply_changes op).wellKept kept
    -- a population that is undertaken now is there later on
    have apart {u u' : Undertaking} (now : op.undertaken d = some u)
        (later : u' ∈ undertakings (d.apply op) ops) : u.population ≠ u'.population := by
      intro same
      cases op with
      | populate s q run label =>
        obtain ⟨p, there, -⟩ := exists_began_populate s q run label kept now
        have missing := population?_of_mem_undertakings kept' later
        rw [← same] at missing
        exact Option.some_ne_none p (there.symm.trans missing)
      | _ => cases now
    rw [undertakings, List.mem_append, Option.mem_toList] at undertaken undertaken'
    rcases undertaken with now | later
    · rcases undertaken' with now' | later'
      · exact Option.some.inj (now.symm.trans now')
      · exact absurd same (apart now later')
    · rcases undertaken' with now' | later'
      · exact absurd same.symm (apart now' later)
      · exact ih kept' later later'

/-- What was undertaken in one course after another is what was undertaken in both. -/
theorem undertakings_append (d : Deployment σ) (ops ops' : List (Operation σ)) :
    undertakings d (ops ++ ops') = undertakings d ops ++ undertakings (d.after ops) ops' := by
  induction ops generalizing d with
  | nil => rfl
  | cons op ops ih => rw [List.cons_append, undertakings, undertakings, ih, List.append_assoc]; rfl

/-- An errand that is under way after a course of operations was so before, or was sent by an
undertaking. -/
theorem UnderWay.of_after (kept : d.WellKept) {ops : List (Operation σ)}
    (after : (d.after ops).UnderWay [] errand) :
    d.UnderWay [] errand ∨ ∃ u ∈ undertakings d ops, u.Sent errand := by
  induction ops generalizing d with
  | nil => exact .inl after
  | cons op ops ih =>
    have kept' := (d.apply_changes op).wellKept kept
    rcases ih kept' after with before | ⟨u, later, sent⟩
    · rcases before.of_apply kept with earlier | ⟨u, now, sent⟩
      · exact .inl earlier
      · exact .inr ⟨u, List.mem_append_left _ (Option.mem_toList.2 now), sent⟩
    · exact .inr ⟨u, List.mem_append_right _ later, sent⟩

/-- A population that was started last for a key on a board was undertaken for that key by a service
over the board. -/
theorem exists_undertaking_of_lastStarted {ops : List (Operation σ)} {board : BoardId}
    {key : CacheKey} (last : lastStarted d board key ops = some id) :
    ∃ u ∈ undertakings d ops,
      u.population = id ∧ u.service.board = board ∧ CacheKey.ofQuery u.query = .ok key := by
  induction ops generalizing d with
  | nil => cases last
  | cons op ops ih =>
    rw [lastStarted, Option.or_eq_some_iff] at last
    rcases last with later | ⟨-, now⟩
    · obtain ⟨u, undertaken, about⟩ := ih later
      exact ⟨u, List.mem_append_right _ undertaken, about⟩
    · cases op with
      | populate s q run label =>
        rw [Operation.started?] at now
        split at now
        · rename_i key' id' exact_key answered
          split at now
          · rename_i here
            cases now
            rw [here.2] at exact_key
            refine ⟨⟨id, s, q⟩, List.mem_append_left _ ?_, rfl, here.1, exact_key⟩
            rw [Option.mem_toList, undertaken_populate_iff]
            exact ⟨answered, rfl, rfl⟩
          · cases now
        · cases now
      | _ => cases now

/-- A population that a board names was undertaken by a service over that board, for the key under
which it is named. -/
theorem exists_undertaking_on_board {ops : List (Operation σ)} {board : BoardId} {key : CacheKey}
    (named : (({} : Deployment σ).after ops).flight? board key = some id) :
    ∃ u ∈ undertakings ({} : Deployment σ) ops,
      u.population = id ∧ u.service.board = board ∧ CacheKey.ofQuery u.query = .ok key := by
  have names := (namesLatest_empty board key).after wellKept_empty ops
  rw [Option.or_none] at names
  exact exists_undertaking_of_lastStarted (names.only id named)

/-- A population that a board names was undertaken for the key under which it is named. -/
theorem exists_undertaking_of_flight? {ops : List (Operation σ)} {board : BoardId} {key : CacheKey}
    (named : (({} : Deployment σ).after ops).flight? board key = some id) :
    ∃ u ∈ undertakings ({} : Deployment σ) ops,
      u.population = id ∧ CacheKey.ofQuery u.query = .ok key := by
  obtain ⟨u, undertaken, about, -, exact_key⟩ := exists_undertaking_on_board named
  exact ⟨u, undertaken, about, exact_key⟩

end Deployment

end DataService
