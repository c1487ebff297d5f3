import DataService.Proofs.Deployment.Errands
import DataService.Proofs.Deployment.Touching

/-!
# Populations without a run

Whether a query joins the population that a board names is decided by the bounds of that one alone.
As long as it is on a run, or has resolved, all is well. But a run may go while a population on it is
unresolved (`Operation.Strands`), and this is the only way for a population to come to be without one:
`attached_afloat_or_stranded`.

A population that is stranded stays so. The runs that could tell it something are those that know it,
and unless hands were laid on it from outside, none does but the one that it was on
(`TiesAreOwn`). So it never resolves and never leaves its board, and whatever query of its key it
could have answered goes on being attached to it, until one comes that it could not have answered.
-/

set_option autoImplicit false

namespace DataService

/-- The operation leaves a population without a run: it ends the run of one that is unresolved, or
starts one on a run that does not exist. -/
inductive Operation.Strands {σ : Type} (d : Deployment σ) (id : PopulationId) : Operation σ → Prop
  | ends {op : Operation σ} {p : Population} {run : RunId} : d.population? id = some p →
    p.outcome = none → p.run = some run → op.endsRun run.name = true → Strands d id op
  | starts {s : Service} {q : Query} {run : RunId} {label : String} :
    (d.populate s q run label).2 = .ok (.started id) → d.run? run = none →
    Strands d id (.populate s q run label)

namespace Deployment

variable {σ : Type} {d d' : Deployment σ} {id : PopulationId} {p : Population} {run : RunId}

/-- The population has resolved or is on a run that exists. -/
def Afloat (d : Deployment σ) (id : PopulationId) : Prop := d.Resolved id ∨ d.OnRun id

/-- A population that has resolved stays so. -/
theorem Changes.resolved {tags : List (PopulationId × String)} (h : d.Changes tags d')
    (kept : d.WellKept) (resolved : d.Resolved id) : d'.Resolved id := by
  obtain ⟨p, here, ended⟩ := resolved
  obtain ⟨p', there, grows⟩ := h.exists_grows kept here
  obtain ⟨-, -, -, outcome_eq⟩ := grows.final ended
  exact ⟨p', there, by rw [outcome_eq]; exact ended⟩

/-- A population that is there has resolved when it is given an outcome. -/
theorem resolved_resolve (here : d.population? id = some p) (outcome : Outcome) :
    (d.resolve id outcome).Resolved id := by
  refine ⟨(p.resolve outcome).1, ?_, ?_⟩
  · unfold resolve
    rw [population?_advance, if_pos rfl, here]
    rfl
  · cases settled : p.outcome with
    | none =>
      rw [Population.resolve_eq settled]
      exact Option.some_ne_none outcome
    | some o =>
      rw [Population.resolve_eq_self settled, settled]
      exact Option.some_ne_none o

/-! ## Staying afloat -/

/-- A run that comes up takes no population off its run, unless it takes the place of that. -/
theorem OnRun.addRun (on_run : d.OnRun id) {name : String} (outputs : Table String StepOutput)
    (injectors : List String) (polls : Nat) (offers : List Offer)
    (other : ∀ p run, d.population? id = some p → p.run = some run → run.name ≠ name) :
    (d.addRun name outputs injectors polls offers).1.OnRun id := by
  obtain ⟨p, run, r, here, at_run, there⟩ := on_run
  refine ⟨p, run, r, here, at_run, ?_⟩
  rw [run?_addRun, if_neg (other p run here at_run)]
  exact there

/-- A run that is dropped takes its own populations with it and no others. -/
theorem OnRun.dropRun (on_run : d.OnRun id) {name : String}
    (other : ∀ p run, d.population? id = some p → p.run = some run → run.name ≠ name) :
    (d.dropRun name).OnRun id := by
  obtain ⟨p, run, r, here, at_run, there⟩ := on_run
  refine ⟨p, run, r, here, at_run, ?_⟩
  rw [run?_dropRun, if_neg (other p run here at_run)]
  exact there

/-- A population that is installed on a run that exists is on it, unless it is refused, and then it
has resolved. -/
theorem afloat_install {r : Run} (here : d.population? id = some p) (there : d.run? run = some r) :
    (d.install id run).Afloat id := by
  cases granted : r.hooks.claim (.population id p.label) with
  | error holder =>
    refine .inl ?_
    rw [install_of_refused here there granted]
    exact resolved_resolve (population?_modifyPopulation_self here _) _
  | ok claimed =>
    refine .inr ?_
    cases ready : claimed.ready with
    | false =>
      rw [install_of_unready here there granted ready]
      exact onRun_place here there _
    | true =>
      rw [install_of_ready here there granted ready]
      exact (onRun_place here there claimed).collect id run

section

variable (s : Service) (q : Query) (key : CacheKey) (label : String)

/-- A population that a service starts on a run that exists is afloat. -/
theorem afloat_startPopulation (kept : d.WellKept) {r : Run} (there : d.run? run = some r)
    {displaced : Option PopulationId}
    (started : (d.startPopulation s q key run label displaced).2 = .ok (.started id)) :
    (d.startPopulation s q key run label displaced).1.Afloat id := by
  let installed := (d.entered s q key label).install ⟨d.serial⟩ run
  rcases d.startPopulation_cases s q key run label displaced with ⟨failure, refused⟩ | begun
  · rw [refused] at started
    cases started
  · rw [begun] at started ⊢
    cases started
    have entered_there : (d.entered s q key label).run? run = some r := there
    have afloat : installed.Afloat ⟨d.serial⟩ :=
      afloat_install ((population?_entered s q key label d ⟨d.serial⟩).trans (if_pos rfl))
        entered_there
    let reported := installed.reportFlights s
    let errand := (Undertaking.mk ⟨d.serial⟩ s q).errand key
    show (reported.onResolved ⟨d.serial⟩ (.deliver errand)).Afloat ⟨d.serial⟩
    rcases afloat with ⟨p, here, ended⟩ | on_run
    · have reported_kept : reported.WellKept :=
        (((d.entered s q key label).install_moves ⟨d.serial⟩ run).wellKept
          (kept.entered s q key label)).congr rfl (Nat.le_refl _) fun _ waits => waits
      have registers : reported.Changes [] (reported.onResolved ⟨d.serial⟩ (.deliver errand)) :=
        deliver_changes here rfl
      exact .inl (registers.resolved reported_kept ⟨p, here, ended⟩)
    · have registers : Touches (fun _ => False) (fun _ => False) reported
          (reported.onResolved ⟨d.serial⟩ (.deliver errand)) := reported.onResolved_touches _ _
      exact .inr (registers.onRun (fun _ is_gone => is_gone) on_run)

end

variable [ResultStore σ]

/-- An operation leaves a population afloat or strands it. -/
theorem afloat_apply (kept : d.WellKept) (afloat : d.Afloat id) (op : Operation σ) :
    (d.apply op).Afloat id ∨ op.Strands d id := by
  by_cases resolved : d.Resolved id
  · exact .inl (.inl ((d.apply_changes op).resolved kept resolved))
  · have on_run : d.OnRun id := afloat.resolve_left resolved
    by_cases ends : ∃ p run, d.population? id = some p ∧ p.run = some run ∧
        op.endsRun run.name = true
    · obtain ⟨p, run, here, at_run, ends⟩ := ends
      refine .inr (.ends here ?_ at_run ends)
      exact Classical.byContradiction fun ended => resolved ⟨p, here, ended⟩
    · refine .inl (.inr ?_)
      have other {name : String} (own : op.endsRun name = true) (p : Population) (run : RunId)
          (here : d.population? id = some p) (at_run : p.run = some run) : run.name ≠ name := by
        rintro rfl
        exact ends ⟨p, run, here, at_run, own⟩
      cases op with
      | addRun name steps injectors polls offers =>
        exact on_run.addRun _ injectors polls offers (other (beq_self_eq_true name))
      | dropRun name => exact on_run.dropRun (other (beq_self_eq_true name))
      | _ => exact (apply_touches kept _).onRun (fun _ is_gone => Bool.noConfusion is_gone) on_run

/-- A population that is started on a run which exists is afloat, and the start strands it
otherwise. -/
theorem afloat_of_undertaken (kept : d.WellKept) {op : Operation σ} {u : Undertaking}
    (undertaken : op.undertaken d = some u) :
    (d.apply op).Afloat u.population ∨ op.Strands d u.population := by
  cases op with
  | populate s q run label =>
    obtain ⟨answered, -, -⟩ := undertaken_populate_iff.1 undertaken
    cases there : d.run? run with
    | none => exact .inr (.starts answered there)
    | some r =>
      refine .inl ?_
      show (d.populate s q run label).1.Afloat u.population
      rcases d.populate_cases s q run label with
        ⟨now, answer, same, -, other⟩ | ⟨key, -, start⟩
      · rw [same] at answered
        exact absurd answered (other _)
      · rw [start] at answered ⊢
        exact afloat_startPopulation s q key label kept there answered
  | _ => cases undertaken

/-- The population is stranded by an operation of a course. -/
def StrandedIn (d : Deployment σ) (id : PopulationId) (ops : List (Operation σ)) : Prop :=
  ∃ before op behind, ops = before ++ op :: behind ∧ op.Strands (d.after before) id

/-- Whoever is stranded later on is stranded in the whole course. -/
theorem StrandedIn.cons {op : Operation σ} {ops : List (Operation σ)}
    (h : (d.apply op).StrandedIn id ops) : d.StrandedIn id (op :: ops) := by
  obtain ⟨before, op', behind, rfl, strands⟩ := h
  exact ⟨op :: before, op', behind, rfl, strands⟩

/-- A population that is afloat stays so in every course of operations, or one of them strands it.
-/
theorem afloat_after (kept : d.WellKept) (afloat : d.Afloat id) (ops : List (Operation σ)) :
    (d.after ops).Afloat id ∨ d.StrandedIn id ops := by
  induction ops generalizing d with
  | nil => exact .inl afloat
  | cons op ops ih =>
    rcases afloat_apply kept afloat op with still | strands
    · exact (ih ((d.apply_changes op).wellKept kept) still).imp_right .cons
    · exact .inr ⟨[], op, ops, rfl, strands⟩

/-- A population that was undertaken is afloat, or an operation has stranded it. -/
theorem afloat_or_stranded (kept : d.WellKept) {ops : List (Operation σ)} {u : Undertaking}
    (undertaken : u ∈ undertakings d ops) :
    (d.after ops).Afloat u.population ∨ d.StrandedIn u.population ops := by
  induction ops generalizing d with
  | nil => cases undertaken
  | cons op ops ih =>
    have kept' := (d.apply_changes op).wellKept kept
    rw [undertakings, List.mem_append, Option.mem_toList] at undertaken
    rcases undertaken with now | later
    · rcases afloat_of_undertaken kept now with afloat | strands
      · exact (afloat_after kept' afloat ops).imp_right .cons
      · exact .inr ⟨[], op, ops, rfl, strands⟩
    · exact (ih kept' later).imp_right .cons

/-! ## Ties of a stranded population -/

/-- No run knows the population but the one on which it was last installed. -/
def TiesAreOwn (d : Deployment σ) (id : PopulationId) : Prop :=
  ∀ run, d.TiedTo id run → ∃ p, d.population? id = some p ∧ p.run = some run

omit [ResultStore σ] in
/-- A population that is left to the runs gets no ties that are not its own. -/
theorem TiesAreOwn.leftToRuns (own : d.TiesAreOwn id) (left : LeftToRuns id d d') :
    d'.TiesAreOwn id := by
  intro run tied
  obtain ⟨p, here, at_run⟩ := own run (left.ties run tied)
  obtain ⟨p', there, run_eq, -⟩ := left.stays p here
  exact ⟨p', there, run_eq.trans at_run⟩

omit [ResultStore σ] in
/-- A waiter that is registered ties nobody to a run. -/
theorem TiesAreOwn.onResolved (own : d.TiesAreOwn id) (j : PopulationId) (waiter : Waiter) :
    (d.onResolved j waiter).TiesAreOwn id := by
  have registers : Touches (fun _ => False) (fun _ => False) d (d.onResolved j waiter) :=
    d.onResolved_touches j waiter
  exact own.leftToRuns (registers.leftToRuns not_false)

omit [ResultStore σ] in
/-- An installation ties a population that had no ties to the run that it is on. -/
theorem tiesAreOwn_install (untied : ∀ run, ¬d.TiedTo id run) (run : RunId) :
    (d.install id run).TiesAreOwn id := by
  intro run' tied
  rcases tied.of_install with before | ⟨-, rfl, -⟩
  · exact absurd before (untied run')
  · rcases d.install_cases id run' with same | ⟨failure, same⟩ |
      ⟨p, r, claimed, here, there, -, ⟨-, same⟩ | ⟨-, same⟩⟩
    · rw [same] at tied
      exact absurd tied (untied run')
    · rw [same] at tied
      exact absurd ((tiedTo_congr (runs_advance _ id _)).1 tied) (untied run')
    · rw [same]
      exact ⟨_, population?_modifyPopulation_self
        (d := d.modifyRun run' fun r => { r with hooks := _ }) here _, rfl⟩
    · rw [same]
      have placed : (d.place id run' claimed).population? id = some { p with run := some run' } :=
        population?_modifyPopulation_self (d := d.modifyRun run' fun r => { r with hooks := claimed })
          here _
      obtain ⟨p', there, run_eq⟩ := exists_population?_collect placed id run'
      exact ⟨p', there, run_eq⟩

/-- A population that was just started is known to no run but its own. -/
theorem tiesAreOwn_of_undertaken (kept : d.WellKept) (known : d.KnowsExisting) {op : Operation σ}
    {u : Undertaking} (undertaken : op.undertaken d = some u) :
    (d.apply op).TiesAreOwn u.population := by
  cases op with
  | populate s q run label =>
    obtain ⟨answered, -, -⟩ := undertaken_populate_iff.1 undertaken
    show (d.populate s q run label).1.TiesAreOwn u.population
    rcases d.populate_cases s q run label with
      ⟨now, answer, same, -, other⟩ | ⟨key, -, start⟩
    · rw [same] at answered
      exact absurd answered (other _)
    · rw [start] at answered ⊢
      rcases d.startPopulation_cases s q key run label (d.flight? s.board key) with
        ⟨failure, refused⟩ | begun
      · rw [refused] at answered
        cases answered
      · rw [begun] at answered ⊢
        rw [← Admission.started.inj (Except.ok.inj answered)]
        let installed := (d.entered s q key label).install ⟨d.serial⟩ run
        have untied : ∀ run, ¬(d.entered s q key label).TiedTo ⟨d.serial⟩ run := by
          intro run tied
          obtain ⟨p, here⟩ := known ⟨d.serial⟩ run tied
          exact kept.ne_serial here rfl
        have own : (installed.reportFlights s).TiesAreOwn ⟨d.serial⟩ :=
          tiesAreOwn_install untied run
        exact own.onResolved _ _
  | _ => cases undertaken

/-- In every course that lays no hands on it a population that was undertaken has no ties but to the
run that it is on. -/
theorem tiesAreOwn_after (kept : d.WellKept) (known : d.KnowsExisting) {ops : List (Operation σ)}
    {u : Undertaking} (undertaken : u ∈ undertakings d ops)
    (free : ∀ op ∈ ops, op.drives u.population = false) :
    (d.after ops).TiesAreOwn u.population := by
  induction ops generalizing d with
  | nil => cases undertaken
  | cons op ops ih =>
    have kept' := (d.apply_changes op).wellKept kept
    have later_free : ∀ op ∈ ops, op.drives u.population = false :=
      fun op later => free op (List.mem_cons_of_mem _ later)
    rw [undertakings, List.mem_append, Option.mem_toList] at undertaken
    rcases undertaken with now | later
    · have own := tiesAreOwn_of_undertaken kept known now
      have undertaken_now : u ∈ undertakings d [op] := by
        rw [undertakings, now]
        exact List.mem_cons_self
      obtain ⟨p, here, -⟩ := begun_after kept undertaken_now
      exact own.leftToRuns (leftToRuns_after kept' here later_free)
    · exact ih kept' ((apply_touches kept op).known known) later later_free

omit [ResultStore σ] in
/-- No run knows a population that is stranded. -/
theorem untied_of_not_onRun (placed : d.Placed []) (own : d.TiesAreOwn id) (lost : ¬d.OnRun id)
    (run : RunId) : ¬d.TiedTo id run := by
  intro tied
  obtain ⟨p, here, at_run⟩ := own run tied
  obtain ⟨name, r, there, rfl, -⟩ := tied
  exact lost ⟨p, r.id, r, here, at_run, placed.run?_of_get? there⟩

/-! ## Queries that are attached -/

/-- **A query joins a population that can still resolve, unless its run was taken from it.** When a
query is attached to a population, this has resolved, or it is on a run that exists, or some operation
has stranded it. In the last case, if no hands were laid on the population from outside, it never
resolves, whatever else happens; and as long as no other population is started for the key on the
board, every query of the key that the population can answer by its bounds is attached to it, by
whichever service. -/
theorem attached_afloat_or_stranded (ops : List (Operation σ)) (s : Service) (q : Query) (run : RunId)
    (label : String) (id : PopulationId)
    (attached : ((({} : Deployment σ).after ops).populate s q run label).2 = .ok (.attached id)) :
    let d := ({} : Deployment σ).after ops
    (d.Resolved id ∨ d.OnRun id ∨ ∃ before op behind, ops = before ++ op :: behind ∧
      op.Strands (({} : Deployment σ).after before) id) ∧
    (¬d.Resolved id → ¬d.OnRun id → (∀ op ∈ ops, op.drives id = false) →
      ∀ later : List (Operation σ), (∀ op ∈ later, op.drives id = false) →
        ¬(d.after later).Resolved id ∧
        ∀ (s' : Service) (q' : Query) (run' : RunId) (label' : String), s'.board = s.board →
          s'.definition.resultCache?.isSome = true → CacheKey.ofQuery q' = CacheKey.ofQuery q →
          (∀ key, CacheKey.ofQuery q = .ok key → lastStarted d s.board key later = none) →
          d.canAnswer id q' = true →
          ((d.after later).populate s' q' run' label').2 = .ok (.attached id)) := by
  intro d
  have kept : d.WellKept := wellKept_after wellKept_empty ops
  obtain ⟨key, exact_key, named, -⟩ := populate_of_attached attached
  obtain ⟨u, undertaken, rfl, -⟩ := exists_undertaking_of_flight? named
  refine ⟨?_, ?_⟩
  · rcases afloat_or_stranded wellKept_empty undertaken with afloat | stranded
    · exact afloat.imp_right .inl
    · exact .inr (.inr stranded)
  · intro unresolved lost free later later_free
    obtain ⟨p, here, -⟩ := begun_after wellKept_empty undertaken
    have none_yet : p.outcome = none :=
      Classical.byContradiction fun ended => unresolved ⟨p, here, ended⟩
    have own := tiesAreOwn_after wellKept_empty knowsExisting_empty undertaken free
    have untied := untied_of_not_onRun (placed_after ops) own lost
    have left := leftToRuns_after kept here later_free
    obtain ⟨p', there, -, idle⟩ := left.stays p here
    have still : p'.outcome = none := (idle untied).trans none_yet
    refine ⟨?_, ?_⟩
    · rintro ⟨p'', there', ended⟩
      obtain rfl : p' = p'' := Option.some.inj (there.symm.trans there')
      exact ended still
    · intro s' q' run' label' same_board cached same_key none_started can
      have exact_key' : CacheKey.ofQuery q' = .ok key := same_key.trans exact_key
      -- the board goes on naming the population, since it was the last one started
      have last := (namesLatest_empty s.board key).after wellKept_empty ops
      have names := last.after kept later
      rw [show lastStarted d s.board key later = none from none_started key exact_key,
        Option.none_or] at names
      have named' : (d.after later).flight? s'.board key = some u.population := by
        rw [same_board]
        exact names.named u.population p' (last.only u.population named) there still
      have can' : (d.after later).canAnswer u.population q' = true := by
        obtain ⟨p'', there', grows⟩ := exists_grows_after kept here later
        unfold canAnswer at can ⊢
        rw [show d.population? u.population = some p from here, Option.any_some] at can
        rw [there', Option.any_some, Population.canAnswer, grows.query_eq]
        exact can
      rw [populate_of_named s' q' run' label' cached exact_key' named' can']

/-- The run of a population is dropped before it has become ready. -/
def droppedRun : List (Operation KeyedMap) :=
  [.addRun "first" [("out", ["n"])] [] 0 [],
    .addRun "second" [("out", ["n"])] [] 0 [],
    .addStore {},
    .populate numbersService { fingerprint := some 7 } ⟨"first", 0⟩ "lost",
    .dropRun "first"]

/-- Its population is unresolved, and the run that it was started on is gone. -/
theorem lost_droppedRun : let d := ({} : Deployment KeyedMap).after droppedRun
    ¬d.Resolved ⟨3⟩ ∧ ¬d.OnRun ⟨3⟩ := by
  intro d
  refine ⟨?_, ?_⟩
  · rintro ⟨p, here, ended⟩
    cases here
    exact ended rfl
  · rintro ⟨p, run, r, here, at_run, there⟩
    cases here
    cases at_run
    cases there

/-- A query is attached to a population that has not resolved and whose run is gone. -/
theorem attached_without_run :
    let d := ({} : Deployment KeyedMap).after droppedRun
    (d.populate numbersService { fingerprint := some 7 } ⟨"second", 1⟩ "joining").2 =
        .ok (.attached ⟨3⟩) ∧ ¬d.Resolved ⟨3⟩ ∧ ¬d.OnRun ⟨3⟩ :=
  ⟨rfl, lost_droppedRun⟩

/-- The run of the second query starts and comes to its end, and a third query with a limit is still
attached to the population that is lost. -/
theorem attached_afloat_or_stranded_dropped :
    let d := ({} : Deployment KeyedMap).after droppedRun
    let later : List (Operation KeyedMap) :=
      [.engine (.start "second"), .engine (.finish "second" "out" [] false), .dropRun "second"]
    ¬(d.after later).Resolved ⟨3⟩ ∧
      ((d.after later).populate numbersService { fingerprint := some 7, limit := some 1 }
        ⟨"third", 4⟩ "third").2 = .ok (.attached ⟨3⟩) := by
  intro d later
  obtain ⟨unresolved, lost⟩ := lost_droppedRun
  obtain ⟨-, stays⟩ := attached_afloat_or_stranded droppedRun numbersService
    { fingerprint := some 7 } ⟨"second", 1⟩ "joining" ⟨3⟩ rfl
  obtain ⟨never, joins⟩ := stays unresolved lost (by decide) later (by decide)
  refine ⟨never, joins numbersService _ _ _ rfl rfl rfl ?_ rfl⟩
  rintro key ⟨⟩
  rfl

end Deployment

end DataService
