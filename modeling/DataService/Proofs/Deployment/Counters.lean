import DataService.Proofs.Deployment.Resolution
import DataService.Proofs.Deployment.Traced
import DataService.Proofs.Tally
import Mathlib.Algebra.Ring.Nat

/-!
# What the counters come to

A service counts a population when it is informed of its end, and it is informed of the end of those
populations that it undertook, once of each (`Traced.errands_eq`). What the ends so far should have
added to a counter is the credit of the undertakings (`credits`). Moves add to the counters what they
add to the credit (`QuietMoves.count_add_credits`); every other operation adds besides what it counts
by itself, which is a look-up, an attachment, a filter pushed down or the end of a replay
(`Operation.counted`). So in every course of operations a counter is the credit of what was
undertaken and what the operations counted (`count_after`).
-/

set_option autoImplicit false

namespace DataService

/-- How a population with an outcome ended. -/
def Outcome.ending : Outcome → Ending
  | .ok result => if result.isComplete then .complete else .bounded
  | .error _ => .failed

/-- The number of rows that an outcome brings. -/
def Outcome.rowCount : Outcome → Nat
  | .ok result => result.rows.length
  | .error _ => 0

/-- What the end of a population of a service should add to a counter. -/
def Outcome.adds (outcome : Outcome) (service : String) (c : Counter) : Nat :=
  (if c = .populations service outcome.ending then 1 else 0) +
    if c = .populatedRows service then outcome.rowCount else 0

/-- The counter is one of how populations ended. -/
def Counter.isOfEnds : Counter → Bool
  | .populations .. | .populatedRows _ => true
  | _ => false

/-- Outcomes add nothing to the counters that are not about ends. -/
theorem Outcome.adds_eq_zero {c : Counter} (apart : c.isOfEnds = false) (outcome : Outcome)
    (service : String) : outcome.adds service c = 0 := by
  unfold Outcome.adds
  rw [if_neg (by rintro rfl; cases apart), if_neg (by rintro rfl; cases apart)]

/-- The counters that are raised by an operation itself. -/
def Operation.mayCount {σ : Type} : Operation σ → Counter → Bool
  | .lookup .., .lookups .. | .populate .., .attachments _ | .pushDown .., .pushDowns ..
  | .replay .., .replayedRows | .replay .., .droppedRows => true
  | _, _ => false

/-- What an operation adds to a counter by itself. The ends of populations are counted apart. -/
def Operation.counted {σ : Type} [ResultStore σ] (d : Deployment σ) (c : Counter) :
    Operation σ → Nat
  | .lookup s q =>
    match (d.withStore s.store (.ok none) (s.lookup q)).2 with
    | .ok (some answer) => if c = .lookups s.name answer.outcome then 1 else 0
    | _ => 0
  | .populate s q run label =>
    match (d.populate s q run label).2 with
    | .ok (.attached _) => if c = .attachments s.name then 1 else 0
    | _ => 0
  | .pushDown s f step =>
    if c = .pushDowns s.name step (s.definition.pushFor f step).isSome then 1 else 0
  | .replay r (.finishing delivered _) =>
    (if c = .replayedRows then delivered else 0) +
      if c = .droppedRows then r.dropped delivered else 0
  | _ => 0

/-- A look-up that has an answer is counted by the outcome of the answer. -/
theorem Operation.counted_of_answer {σ : Type} [ResultStore σ] {d : Deployment σ} {s : Service}
    {q : Query} {answer : LookupAnswer}
    (answered : (d.withStore s.store (.ok none) (s.lookup q)).2 = .ok (some answer)) (c : Counter) :
    (Operation.lookup s q : Operation σ).counted d c =
      if c = .lookups s.name answer.outcome then 1 else 0 := by
  rw [counted]
  rw [answered]

/-- A look-up that has no answer is not counted. -/
theorem Operation.counted_of_no_answer {σ : Type} [ResultStore σ] {d : Deployment σ} {s : Service}
    {q : Query}
    (unanswered : ¬∃ answer, (d.withStore s.store (.ok none) (s.lookup q)).2 = .ok (some answer))
    (c : Counter) : (Operation.lookup s q : Operation σ).counted d c = 0 := by
  rw [counted]
  split
  · rename_i answer answer_eq
    exact absurd ⟨answer, answer_eq⟩ unanswered
  · rfl

/-- An operation counts nothing by itself in a counter that operations of its kind do not raise. -/
theorem Operation.counted_eq_zero {σ : Type} [ResultStore σ] {op : Operation σ} {c : Counter}
    (apart : op.mayCount c = false) (d : Deployment σ) : op.counted d c = 0 := by
  cases op with
  | lookup s q =>
    rw [counted]
    split
    · exact if_neg (by rintro rfl; cases apart)
    · rfl
  | populate s q run label =>
    rw [counted]
    split
    · exact if_neg (by rintro rfl; cases apart)
    · rfl
  | pushDown s f step => exact if_neg (by rintro rfl; cases apart)
  | replay r stage =>
    cases stage with
    | finishing delivered failure =>
      show (if c = .replayedRows then delivered else 0) +
        (if c = .droppedRows then r.dropped delivered else 0) = 0
      rw [if_neg (by rintro rfl; cases apart), if_neg (by rintro rfl; cases apart)]
    | _ => rfl
  | _ => rfl

namespace Metrics

/-- What is added to one counter leaves the others as they were. -/
theorem count_add_eq (m : Metrics) (c d : Counter) (n : Nat) :
    (m.add c n).count d = m.count d + if d = c then n else 0 := by
  rw [count_add]
  split
  · rename_i same
    rw [same]
  · exact (Nat.add_zero _).symm

/-- The end of a population adds one to its ending, and its rows to the rows populated. -/
theorem count_addPopulation (m : Metrics) (service : String) (ending : Ending) (rows : Nat)
    (c : Counter) :
    (m.addPopulation service ending rows).count c = m.count c +
      ((if c = .populations service ending then 1 else 0) +
        if c = .populatedRows service then rows else 0) := by
  rw [addPopulation, count_add_eq, count_add_eq, Nat.add_assoc]

/-- The end of a replay adds its rows to those replayed and those dropped. -/
theorem count_addReplay (m : Metrics) (delivered dropped : Nat) (c : Counter) :
    (m.addReplay delivered dropped).count c = m.count c +
      ((if c = .replayedRows then delivered else 0) + if c = .droppedRows then dropped else 0) := by
  rw [addReplay, count_add_eq, count_add_eq, Nat.add_assoc]

end Metrics

namespace Deployment

variable {σ : Type} {d d' : Deployment σ} {errand : Delivery} {id : PopulationId} {p : Population}
  {us : List Undertaking} {c : Counter}

/-! ## Services that are informed -/

/-- A service that is informed of an end counts it, and whatever else it does counts nothing. -/
theorem count_receive (d : Deployment σ) (errand : Delivery) (outcome : Outcome) (c : Counter) :
    (d.receive errand outcome).metrics.count c =
      d.metrics.count c + outcome.adds errand.service c := by
  cases outcome with
  | ok result => exact d.metrics.count_addPopulation errand.service _ result.rows.length c
  | error failure => exact d.metrics.count_addPopulation errand.service .failed 0 c

/-- Waiters that are informed have their outcome counted once for each errand. -/
theorem count_informAll (outcome : Outcome) (ws : List Waiter) (d : Deployment σ) (c : Counter) :
    (informAll outcome ws d).metrics.count c = d.metrics.count c +
      (((errandsAll ws).map (·.service)).map fun service => outcome.adds service c).sum := by
  rw [informAll_eq_foldl]
  unfold errandsAll
  induction callsAll ws generalizing d with
  | nil => rfl
  | cons call calls ih =>
    rw [List.foldl_cons, ih]
    cases call with
    | announce tag => rfl
    | deliver errand =>
      have received : (serve outcome d (.deliver errand)).metrics.count c =
          d.metrics.count c + outcome.adds errand.service c :=
        d.count_receive errand outcome c
      rw [received, Nat.add_assoc]
      rfl

/-! ## Credit -/

/-- What the end of its population should have added to a counter for an undertaking. -/
def credit (d : Deployment σ) (c : Counter) (u : Undertaking) : Nat :=
  match d.outcome? u.population with
  | none => 0
  | some outcome => outcome.adds u.service.name c

/-- What the ends of populations should have added to a counter for all that was undertaken. -/
def credits (d : Deployment σ) (c : Counter) (us : List Undertaking) : Nat :=
  (us.map (d.credit c)).sum

/-- The credit of an undertaking depends on the outcome of its population alone. -/
theorem credit_congr {u : Undertaking} (same : d'.outcome? u.population = d.outcome? u.population)
    (c : Counter) : d'.credit c u = d.credit c u := by
  unfold credit
  rw [same]

/-- The credit of undertakings depends on the outcomes of their populations alone. -/
theorem credits_congr (same : ∀ u ∈ us, d'.outcome? u.population = d.outcome? u.population)
    (c : Counter) : d'.credits c us = d.credits c us := by
  unfold credits
  rw [List.map_congr_left fun u among => credit_congr (same u among) c]

/-- The credit of undertakings in two parts is that of both parts. -/
theorem credits_append (d : Deployment σ) (c : Counter) (us us' : List Undertaking) :
    d.credits c (us ++ us') = d.credits c us + d.credits c us' := by
  unfold credits
  rw [List.map_append, List.sum_append]

/-- When a population resolves, its end is added to the credit of those who undertook it. -/
theorem credits_of_ended {outcome : Outcome} (unresolved : d.outcome? id = none)
    (resolved : d'.outcome? id = some outcome)
    (others : ∀ j, j ≠ id → d'.outcome? j = d.outcome? j) (c : Counter) (us : List Undertaking) :
    d'.credits c us = d.credits c us +
      (((us.filter fun u => u.population = id).map (·.service.name)).map
        fun service => outcome.adds service c).sum := by
  unfold credits
  induction us with
  | nil => rfl
  | cons u rest ih =>
    rw [List.map_cons, List.sum_cons, List.map_cons, List.sum_cons, ih]
    by_cases own : u.population = id
    · have before : d.credit c u = 0 := by
        unfold credit
        rw [own, unresolved]
      have now : d'.credit c u = outcome.adds u.service.name c := by
        unfold credit
        rw [own, resolved]
      rw [before, now, List.filter_cons_of_pos (by simpa using own), List.map_cons, List.map_cons,
        List.sum_cons, Nat.zero_add, Nat.add_left_comm]
    · rw [credit_congr (others _ own) c, List.filter_cons_of_neg (by simpa using own),
        Nat.add_assoc]

/-- Undertakings have no credit in the counters that are not about ends. -/
theorem credit_eq_zero (apart : c.isOfEnds = false) (d : Deployment σ) (u : Undertaking) :
    d.credit c u = 0 := by
  unfold credit
  cases d.outcome? u.population with
  | none => rfl
  | some outcome => exact outcome.adds_eq_zero apart u.service.name

/-- All undertakings together have no credit in the counters that are not about ends. -/
theorem credits_eq_zero (apart : c.isOfEnds = false) (d : Deployment σ) (us : List Undertaking) :
    d.credits c us = 0 := by
  induction us with
  | nil => rfl
  | cons u rest ih => exact congrArg₂ (· + ·) (d.credit_eq_zero apart u) ih

/-- The outcome of a population depends on that population alone. -/
theorem outcome?_congr (same : d'.population? id = d.population? id) :
    d'.outcome? id = d.outcome? id := by
  unfold outcome?
  rw [same]

/-- A change of a population that keeps its outcome keeps all outcomes. -/
theorem outcome?_modifyPopulation {f : Population → Population}
    (keeps : ∀ p, d.population? id = some p → (f p).outcome = p.outcome) (j : PopulationId) :
    (d.modifyPopulation id f).outcome? j = d.outcome? j := by
  by_cases own : j = id
  · rw [own]
    cases here : d.population? id with
    | none =>
      refine outcome?_congr ?_
      rw [population?_modifyPopulation, if_pos rfl, here]
      rfl
    | some p =>
      rw [outcome?_eq (population?_modifyPopulation_self here f), outcome?_eq here, keeps p here]
  · exact outcome?_congr (d.population?_modifyPopulation_of_ne own f)

/-- **Moves count what ends.** What moves add to a counter is what they add to the credit of the
undertakings. -/
theorem QuietMoves.count_add_credits {reach : PopulationId → Prop} (h : QuietMoves reach d d')
    (traced : d.Traced us) (c : Counter) :
    d'.metrics.count c + d.credits c us = d.metrics.count c + d'.credits c us := by
  induction h with
  | alike same quiet =>
    rw [quiet, credits_congr fun u _ => outcome?_congr (same.population?_eq u.population)]
  | @goesOn d id f _ goes_on =>
    have same := outcome?_modifyPopulation fun p here => (goes_on p here).outcome_eq
    rw [credits_congr fun u _ => same u.population]
    rfl
  | @ends d id p outcome _ here unresolved _ =>
    have own := (population?_informAll outcome p.waiters
      (d.modifyPopulation id fun _ => p.ended outcome) id).trans
      (population?_modifyPopulation_self here fun _ => p.ended outcome)
    have added := credits_of_ended ((outcome?_eq here).trans unresolved) (outcome?_eq own)
      (fun j other => outcome?_congr ((population?_informAll outcome p.waiters _ j).trans
        (d.population?_modifyPopulation_of_ne other _))) c us
    have informed := count_informAll outcome p.waiters
      (d.modifyPopulation id fun _ => p.ended outcome) c
    have same : (d.modifyPopulation id fun _ => p.ended outcome).metrics = d.metrics := rfl
    rw [informed, added, traced.errands_eq here unresolved, same, Nat.add_right_comm,
      Nat.add_assoc]
  | trans first _ ih ih' =>
    have now := ih traced
    have later := ih' (traced.moves first.moves)
    omega

/-- Moves of populations for which no one waits are told of by no metric. -/
theorem QuietMoves.metrics_eq {reach : PopulationId → Prop} (h : QuietMoves reach d d')
    (alone : ∀ id p, reach id → d.population? id = some p → p.waiters = []) :
    d'.metrics = d.metrics := by
  induction h with
  | alike _ quiet => exact quiet
  | goesOn => rfl
  | ends within here =>
    rw [alone _ _ within here, informAll]
    rfl
  | trans first _ ih ih' => exact (ih' (first.moves.quiet alone).2.2).trans (ih alone)

/-! ## Registrations -/

/-- A waiter that is registered decides about no population. -/
theorem outcome?_onResolved (d : Deployment σ) (id : PopulationId) (waiter : Waiter)
    (j : PopulationId) : (d.onResolved id waiter).outcome? j = d.outcome? j := by
  cases here : d.population? id with
  | none => rw [onResolved_of_missing here]
  | some p =>
    have same (q : Population) (there : d.population? id = some q) : p.outcome = q.outcome := by
      rw [Option.some.inj (here.symm.trans there)]
    cases settled : p.outcome with
    | none =>
      rw [onResolved_of_unresolved here settled]
      exact outcome?_modifyPopulation (f := fun _ => { p with waiters := p.waiters ++ [waiter] })
        same j
    | some outcome =>
      rw [onResolved_of_resolved here settled]
      exact (outcome?_congr (population?_informAll outcome [waiter] _ j)).trans
        (outcome?_modifyPopulation (f := fun _ => p) same j)

/-- Who registers with a population that has an outcome has it counted for his errands. -/
theorem count_onResolved (d : Deployment σ) (id : PopulationId) (waiter : Waiter) (c : Counter) :
    (d.onResolved id waiter).metrics.count c = d.metrics.count c +
      match d.outcome? id with
      | none => 0
      | some outcome => (((errandsAll [waiter]).map (·.service)).map
          fun service => outcome.adds service c).sum := by
  cases here : d.population? id with
  | none =>
    have missing : d.outcome? id = none := by
      unfold outcome?
      rw [here]
      rfl
    rw [onResolved_of_missing here, missing]
    rfl
  | some p =>
    rw [outcome?_eq here]
    cases settled : p.outcome with
    | none =>
      rw [onResolved_of_unresolved here settled]
      rfl
    | some outcome =>
      rw [onResolved_of_resolved here settled]
      exact count_informAll outcome [waiter] (d.modifyPopulation id fun _ => p) c

/-! ## Populating -/

section

variable (s : Service) (q : Query) (key : CacheKey) (run : RunId) (label : String)

/-- Nothing is counted of a population that is installed before anyone waits for it. -/
theorem metrics_installed (d : Deployment σ) :
    ((d.entered s q key label).install ⟨d.serial⟩ run).metrics = d.metrics := by
  refine ((d.entered s q key label).install_quiet ⟨d.serial⟩ run).metrics_eq ?_
  rintro _ p rfl here
  rw [population?_entered, if_pos rfl] at here
  cases here
  rfl

/-- A population that a service starts is counted at once if it has resolved already. -/
theorem count_startPopulation (d : Deployment σ) (displaced : Option PopulationId) (c : Counter) :
    let started := d.startPopulation s q key run label displaced
    started.1.metrics.count c = d.metrics.count c +
      match started.2 with
      | .ok (.started id) => started.1.credit c ⟨id, s, q⟩
      | _ => 0 := by
  intro started
  let installed := (d.entered s q key label).install ⟨d.serial⟩ run
  have uncounted : (installed.reportFlights s).metrics.count c = d.metrics.count c := by
    show installed.metrics.count c = d.metrics.count c
    rw [metrics_installed s q key run label d]
  rcases d.startPopulation_cases s q key run label displaced with ⟨failure, refused⟩ | begun
  · rw [show started = _ from refused]
    exact uncounted
  · rw [show started = _ from begun]
    dsimp only
    rw [count_onResolved, uncounted]
    unfold credit
    rw [outcome?_onResolved]
    cases (installed.reportFlights s).outcome? ⟨d.serial⟩ <;> rfl

/-- A population that a service starts leaves the outcomes of others as they are. -/
theorem outcome?_startPopulation (kept : d.WellKept) (here : d.population? id = some p)
    (displaced : Option PopulationId) :
    (d.startPopulation s q key run label displaced).1.outcome? id = d.outcome? id := by
  have installed := population?_installed_of_some s q key run label kept here
  rcases d.startPopulation_cases s q key run label displaced with ⟨failure, refused⟩ | begun
  · rw [refused]
    exact (outcome?_eq installed).trans (outcome?_eq here).symm
  · rw [begun]
    exact (outcome?_onResolved _ _ _ id).trans
      ((outcome?_eq installed).trans (outcome?_eq here).symm)

end

/-! ## Courses of operations -/

variable [ResultStore σ]

/-- A look-up adds to a counter what it counts. -/
theorem count_lookup (d : Deployment σ) (s : Service) (q : Query) (c : Counter) :
    (d.lookup s q).1.metrics.count c =
      d.metrics.count c + (Operation.lookup s q : Operation σ).counted d c := by
  have uncounted := d.metrics_withStore s.store (.ok none) (s.lookup q)
  rw [Operation.counted]
  unfold lookup
  generalize d.withStore s.store (.ok none) (s.lookup q) = looked at uncounted ⊢
  rcases looked with ⟨d', failure | _ | answer⟩
  · exact congrArg (·.count c) uncounted
  · exact congrArg (·.count c) uncounted
  · exact (Metrics.count_add_eq _ _ c 1).trans (congrArg (·.count c + _) uncounted)

/-- A service that populates its cache counts a query that is attached, and the end of a population
that it starts if it has ended. -/
theorem count_populate (traced : d.Traced us) (s : Service) (q : Query) (run : RunId)
    (label : String) (c : Counter) :
    let op : Operation σ := .populate s q run label
    (d.apply op).metrics.count c + d.credits c us = d.metrics.count c + op.counted d c +
      (d.apply op).credits c (us ++ (op.undertaken d).toList) := by
  intro op
  have applied : d.apply op = (d.populate s q run label).1 := rfl
  have undertaken : op.undertaken d =
      ((d.populate s q run label).2.toOption.bind Admission.started?).map fun id => ⟨id, s, q⟩ := rfl
  rw [applied, undertaken, show op = .populate s q run label from rfl, Operation.counted]
  rcases d.populate_answers s q run label with
    ⟨failure, -, failed⟩ | ⟨key, -, ⟨current, -, -, attached⟩ | start⟩
  · rw [failed]
    exact congrArg (d.metrics.count c + d.credits c ·) (List.append_nil us).symm
  · rw [attached]
    have attaches : (d.measure (·.add (.attachments s.name) 1)).metrics.count c =
        d.metrics.count c + if c = .attachments s.name then 1 else 0 :=
      d.metrics.count_add_eq _ c 1
    refine congrArg₂ (· + ·) attaches ?_
    exact congrArg (d.credits c) (List.append_nil us).symm
  · rw [start]
    have starts := d.count_startPopulation s q key run label (d.flight? s.board key) c
    have outcomes : ∀ u ∈ us,
        (d.startPopulation s q key run label (d.flight? s.board key)).1.outcome? u.population =
          d.outcome? u.population := by
      intro u among
      obtain ⟨p, here⟩ := traced.exists_population? among
      exact outcome?_startPopulation s q key run label traced.kept here (d.flight? s.board key)
    have others := credits_congr outcomes c
    have unattached (current : PopulationId) :
        (d.startPopulation s q key run label (d.flight? s.board key)).2 ≠ .ok (.attached current) := by
      rcases d.startPopulation_cases s q key run label (d.flight? s.board key) with
        ⟨failure, refused⟩ | begun
      · rw [refused]
        nofun
      · rw [begun]
        nofun
    generalize d.startPopulation s q key run label (d.flight? s.board key) = begun
      at starts others unattached ⊢
    rw [credits_append, others, starts]
    rcases begun with ⟨d', failure | started | current⟩
    · rfl
    · have alone : d'.credits c [⟨started, s, q⟩] = d'.credit c ⟨started, s, q⟩ := Nat.add_zero _
      dsimp only [Except.toOption, Admission.started?, Option.bind_some, Option.map_some,
        Option.toList]
      rw [alone]
      omega
    · exact absurd rfl (unattached current)

/-- **What an operation adds to a counter** is what it counts by itself, and what the ends of
populations add to the credit of the undertakings. -/
theorem count_apply (traced : d.Traced us) (op : Operation σ) (c : Counter) :
    (d.apply op).metrics.count c + d.credits c us = d.metrics.count c + op.counted d c +
      (d.apply op).credits c (us ++ (op.undertaken d).toList) := by
  -- an operation by which no population is undertaken or ends
  have of_same {op : Operation σ} (nothing : op.undertaken d = none)
      (counted : (d.apply op).metrics.count c = d.metrics.count c + op.counted d c)
      (outcomes : ∀ u ∈ us, (d.apply op).outcome? u.population = d.outcome? u.population) :
      (d.apply op).metrics.count c + d.credits c us = d.metrics.count c + op.counted d c +
        (d.apply op).credits c (us ++ (op.undertaken d).toList) := by
    rw [nothing, Option.toList_none, List.append_nil, counted, credits_congr outcomes]
  have of_populations {op : Operation σ} (same : (d.apply op).populations = d.populations)
      (u : Undertaking) (_ : u ∈ us) :
      (d.apply op).outcome? u.population = d.outcome? u.population := by
    unfold outcome? population?
    rw [same]
  have of_quiet {op : Operation σ} (quiet : QuietMoves Anyone d (d.apply op))
      (uncounted : op.counted d c = 0) (nothing : op.undertaken d = none) :
      (d.apply op).metrics.count c + d.credits c us = d.metrics.count c + op.counted d c +
        (d.apply op).credits c (us ++ (op.undertaken d).toList) := by
    rw [uncounted, nothing, Option.toList_none, List.append_nil, Nat.add_zero]
    exact quiet.count_add_credits traced c
  cases op with
  | lookup s q =>
    exact of_same rfl (d.count_lookup s q c) (of_populations (d.lookup_alike s q).populations_eq)
  | populate s q run label => exact count_populate traced s q run label c
  | pushDown s f step =>
    exact of_same rfl (d.metrics.count_add_eq _ c 1) fun _ _ => rfl
  | settleAt position =>
    refine of_same rfl ?_ (of_populations (d.populations_settleAt position))
    show (d.settleAt position).metrics.count c = d.metrics.count c
    cases found : d.pending[position]? with
    | none => rw [settleAt_of_none found]
    | some waiting =>
      obtain ⟨stored, -, uncounted, settles⟩ := exists_settleAt_eq found
      rw [settles]
      exact congrArg (·.count c) uncounted
  | addPopulation label key query outputStep =>
    exact of_same rfl rfl fun u _ => outcome?_addPopulation traced.kept rfl u.population
  | onResolved id waiter outside =>
    refine of_same rfl ?_ fun u _ => d.outcome?_onResolved id waiter u.population
    have counted := d.count_onResolved id waiter c
    rw [outside] at counted
    refine counted.trans (congrArg (d.metrics.count c + ·) ?_)
    cases d.outcome? id <;> rfl
  | replay r stage =>
    cases stage with
    | finishing delivered failure =>
      exact of_same rfl (d.metrics.count_addReplay delivered (r.dropped delivered) c)
        (of_populations (r.step_finishing_alike d delivered failure).populations_eq)
    | _ => exact of_quiet (d.apply_quiet rfl) rfl rfl
  | _ => exact of_quiet (d.apply_quiet rfl) rfl rfl

/-- **What a counter comes to** in a course of operations is what the operations counted by themselves,
and what the ends of populations add to the credit of the undertakings. -/
theorem count_after (traced : d.Traced us) (ops : List (Operation σ)) (c : Counter) :
    (d.after ops).metrics.count c + d.credits c us =
      d.metrics.count c + tally apply (fun d op => op.counted d c) d ops +
        (d.after ops).credits c (us ++ undertakings d ops) := by
  induction ops generalizing d us with
  | nil =>
    rw [tally, undertakings, List.append_nil, Nat.add_zero]
    rfl
  | cons op ops ih =>
    have now := count_apply traced op c
    have later := ih (traced.apply op)
    rw [List.append_assoc] at later
    rw [after_cons, tally, undertakings]
    omega

/-- In a course of operations from the beginning on, a counter is what was counted and credited. -/
theorem count_eq_tally_add_credits (ops : List (Operation σ)) (c : Counter) :
    (({} : Deployment σ).after ops).metrics.count c =
      tally apply (fun d op => op.counted d c) {} ops +
        (({} : Deployment σ).after ops).credits c (undertakings {} ops) := by
  have balance := count_after (traced_empty (σ := σ)) ops c
  have nothing : ({} : Deployment σ).metrics.count c = 0 := rfl
  have no_credit : ({} : Deployment σ).credits c [] = 0 := rfl
  rw [nothing, no_credit, Nat.zero_add, List.nil_append] at balance
  exact balance

end Deployment

end DataService
