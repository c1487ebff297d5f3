import DataService.Proofs.Deployment.WellKept
import DataService.Proofs.Store.Keyed

/-!
# Replays of populations in flight

A replay takes its steps while the rest of the deployment goes on. A `Course` is a replay between
any other operations, with what can be observed of it: the rows that the target accepted, what it
answered when it was asked whether it is running, and whether the rows ended early, that is, before
the population had resolved.

At every stage the rows accepted are the first rows of the population (`StageAgrees`). So a replay
that ends without a failure has delivered a beginning of the rows, and if the target never stopped
and the rows did not end early, it has delivered the whole result (`live_replay_delivers_result`).
Both conditions are needed. A population whose run is gone never resolves; the replay takes the end
of its rows for the end of the result (`live_replay_of_abandoned_population`).
-/

set_option autoImplicit false

namespace DataService

/-- What comes next in the course of a replay: the replay takes a step, or something else happens in
the deployment. -/
inductive Turn (σ : Type) where
  | own
  | other (op : Operation σ)

/-- A replay on its way, and what has been observed of it. -/
structure Course (σ : Type) where
  deployment : Deployment σ
  stage : Stage := .opening
  /-- The rows that the target accepted, in order. -/
  accepted : List Row := []
  /-- What the replay was told when it asked whether the target is running. -/
  answers : List Bool := []
  /-- The rows ended before the population had resolved. -/
  early : Bool := false

/-- The target has always been running, and the rows did not end early. -/
def Course.GoesWell {σ : Type} (c : Course σ) : Prop :=
  (∀ answer ∈ c.answers, answer = true) ∧ c.early = false

/-- A replay has its answer at the last stage only. -/
theorem Stage.eq_done {stage : Stage} {answer : Except Failure Nat}
    (h : stage.answer? = some answer) : stage = .done answer := by
  cases stage <;> cases h
  rfl

namespace Replay

variable {σ : Type}

/-- The row that the target accepts in a step. -/
def accepts (r : Replay) (d : Deployment σ) : Stage → List Row
  | .offering _ row => if (d.offer r.target r.putTimeout row).2 then [row] else []
  | _ => []

/-- What the replay is told in a step when it asks whether the target is running. -/
def hears (r : Replay) (d : Deployment σ) : Stage → List Bool
  | .asking _ _ => [(d.ask r.target).2]
  | _ => []

/-- Whether no more rows will come to the source of the replay. -/
def sourceClosed (r : Replay) (d : Deployment σ) : Bool :=
  match r.source with
  | .kept _ => true
  | .live id => (d.population? id).any (·.closed)

/-- Whether the rows end in a step although more may come. -/
def endsEarly (r : Replay) (d : Deployment σ) : Stage → Bool
  | .reading delivered =>
    match (r.look d delivered).2 with
    | .ended => !r.sourceClosed d
    | _ => false
  | _ => false

/-- The replay takes a step, which is observed. -/
def own (r : Replay) (c : Course σ) : Course σ :=
  let next := r.step c.deployment c.stage
  { deployment := next.1
    stage := next.2
    accepted := c.accepted ++ r.accepts c.deployment c.stage
    answers := c.answers ++ r.hears c.deployment c.stage
    early := c.early || r.endsEarly c.deployment c.stage }

def turn [ResultStore σ] (r : Replay) (c : Course σ) : Turn σ → Course σ
  | .own => r.own c
  | .other op => { c with deployment := c.deployment.apply op }

/-- The course of the replay, turn after turn. -/
def follow [ResultStore σ] (r : Replay) (c : Course σ) (turns : List (Turn σ)) : Course σ :=
  turns.foldl r.turn c

/-- A replay that is done stays done, and does nothing any more. -/
theorem follow_done [ResultStore σ] (r : Replay) {c : Course σ} {answer : Except Failure Nat}
    (at_end : c.stage = .done answer) (steps : Nat) :
    (r.follow c (List.replicate steps .own)).deployment = c.deployment ∧
      (r.follow c (List.replicate steps .own)).stage = .done answer := by
  induction steps generalizing c with
  | zero => exact ⟨rfl, at_end⟩
  | succ steps ih =>
    have still : (r.own c).deployment = c.deployment ∧ (r.own c).stage = .done answer := by
      unfold own
      rw [at_end]
      exact ⟨rfl, rfl⟩
    obtain ⟨deployment_eq, stage_eq⟩ := ih still.2
    exact ⟨deployment_eq.trans still.1, stage_eq⟩

/-- A replay that goes to its end at once is a course in which nothing else happens. -/
theorem follow_own_eq_drive [ResultStore σ] (r : Replay) {c : Course σ} {steps : Nat}
    (enough : stepsLeft c.deployment c.stage ≤ steps) :
    (r.follow c (List.replicate steps .own)).deployment = (r.drive c.deployment c.stage).1 ∧
      (r.follow c (List.replicate steps .own)).stage =
        .done (r.drive c.deployment c.stage).2 := by
  -- `stepsLeft` goes down with every step, so that no step is left over before the end
  induction steps generalizing c with
  | zero =>
    cases at_end : c.stage.answer? with
    | some answer =>
      have is_done := Stage.eq_done at_end
      rw [drive, is_done]
      exact ⟨rfl, is_done⟩
    | none =>
      have fewer := stepsLeft_step r c.deployment c.stage at_end
      exact absurd (Nat.lt_of_lt_of_le fewer enough) (Nat.not_lt_zero _)
  | succ steps ih =>
    cases at_end : c.stage.answer? with
    | some answer =>
      have is_done := Stage.eq_done at_end
      have driven : r.drive c.deployment c.stage = (c.deployment, answer) := by
        rw [drive, is_done]
        rfl
      rw [driven]
      exact r.follow_done is_done (steps + 1)
    | none =>
      have fewer := stepsLeft_step r c.deployment c.stage at_end
      have driven : r.drive c.deployment c.stage =
          r.drive (r.own c).deployment (r.own c).stage := by
        rw [drive]
        split
        · rename_i answer is_over
          rw [at_end] at is_over
          cases is_over
        · rfl
      rw [driven]
      exact ih (Nat.le_of_lt_succ (Nat.lt_of_lt_of_le fewer enough))

/-! ## What is true at a stage -/

/-- So many rows of a population were accepted, the first ones. -/
structure Delivered (p : Population) (accepted : List Row) (count : Nat) : Prop where
  accepted_eq : accepted = p.rows.take count
  le_length : count ≤ p.rows.length

/-- The population resolved with a result of so many rows. -/
def EndsWith (p : Population) (count : Nat) : Prop :=
  ∃ result, p.outcome = some (.ok result) ∧ result.rows.length = count

/-- How the rows that were accepted agree with the population at a stage. A replay goes well if the
target has always been running and the rows did not end early. -/
def StageAgrees (p : Population) (accepted : List Row) (well : Prop) : Stage → Prop
  | .opening | .wiring => accepted = []
  | .reading n => Delivered p accepted n
  | .asking n row | .offering n row => Delivered p accepted n ∧ p.rows[n]? = some row
  | .closing n stopped => Delivered p accepted n ∧
      (well → stopped = false ∧ p.outcome ≠ none ∧ p.rows.length = n)
  | .finishing n failure => Delivered p accepted n ∧ (failure = none → well → EndsWith p n)
  | .done answer => ∀ n, answer = .ok n → Delivered p accepted n ∧ (well → EndsWith p n)

variable {r : Replay} {d : Deployment σ} {id : PopulationId} {p p' : Population}
  {accepted : List Row} {count : Nat} {well well' : Prop}

/-- Rows that were delivered are the first ones of the population still when it has captured more.
-/
theorem Delivered.grows (h : Delivered p accepted count) (grows : p.Grows p') :
    Delivered p' accepted count := by
  obtain ⟨further, rows_eq⟩ := grows.rows_prefix
  refine ⟨?_, Nat.le_trans h.le_length grows.rows_prefix.length_le⟩
  rw [← rows_eq, List.take_append_of_le_length h.le_length]
  exact h.accepted_eq

/-- A population that resolved with so many rows keeps them. -/
theorem EndsWith.grows (h : EndsWith p count) (grows : p.Grows p') : EndsWith p' count := by
  obtain ⟨result, ended, length_eq⟩ := h
  have resolved : p.outcome ≠ none := by
    rw [ended]
    exact Option.some_ne_none _
  obtain ⟨-, -, -, outcome_eq⟩ := grows.final resolved
  exact ⟨result, outcome_eq.trans ended, length_eq⟩

/-- What is true at a stage stays true while the population grows. -/
theorem StageAgrees.grows {stage : Stage} (h : StageAgrees p accepted well stage)
    (grows : p.Grows p') : StageAgrees p' accepted well stage := by
  have row_stays {n : Nat} {row : Row} (here : p.rows[n]? = some row) :
      p'.rows[n]? = some row := by
    obtain ⟨further, rows_eq⟩ := grows.rows_prefix
    rw [← rows_eq, List.getElem?_append_left (List.getElem?_eq_some_iff.1 here).1]
    exact here
  cases stage with
  | opening | wiring => exact h
  | reading n => exact Delivered.grows h grows
  | asking n row | offering n row => exact ⟨h.1.grows grows, row_stays h.2⟩
  | closing n stopped =>
    refine ⟨h.1.grows grows, fun goes_well => ?_⟩
    obtain ⟨running, resolved, length_eq⟩ := h.2 goes_well
    obtain ⟨-, rows_eq, -, outcome_eq⟩ := grows.final resolved
    rw [rows_eq, outcome_eq]
    exact ⟨running, resolved, length_eq⟩
  | finishing n failure =>
    exact ⟨h.1.grows grows, fun no_failure goes_well => (h.2 no_failure goes_well).grows grows⟩
  | done answer =>
    intro n ok
    obtain ⟨delivered, ends⟩ := h n ok
    exact ⟨delivered.grows grows, fun goes_well => (ends goes_well).grows grows⟩

/-! ## One step -/

/-- The row at the position of a reader is the next one to be accepted. -/
theorem Delivered.next (h : Delivered p accepted count) {row : Row}
    (here : p.rows[count]? = some row) : Delivered p (accepted ++ [row]) (count + 1) := by
  refine ⟨?_, (List.getElem?_eq_some_iff.1 here).1⟩
  rw [List.take_add_one, here, h.accepted_eq]
  rfl

/-- What a replay finds at a position of a population. -/
theorem look_cases (live : r.source = .live id) (here : d.population? id = some p)
    (position : Nat) :
    (∃ row, p.rows[position]? = some row ∧ r.look d position = (d, .row row)) ∨
    (p.rows[position]? = none ∧ p.closed = true ∧ r.look d position = (d, .ended)) ∨
    (p.closed = false ∧ ∃ d', r.look d position = (d', .waiting) ∨
      r.look d position = (d', .ended)) := by
  have look_eq : r.look d position = d.look id position := by
    unfold look
    rw [live]
  rw [look_eq]
  rcases d.look_cases here position with
    found | ended | ⟨-, still_open, d', ⟨-, look⟩ | ⟨-, look⟩⟩
  · exact .inl found
  · exact .inr (.inl ended)
  · exact .inr (.inr ⟨still_open, d', .inl look⟩)
  · exact .inr (.inr ⟨still_open, d', .inr look⟩)

/-- A live source has failed if its population resolved with a failure. -/
theorem sourceFailure_eq (live : r.source = .live id) (here : d.population? id = some p) :
    r.sourceFailure d = match p.outcome with
      | some (.error failure) => some failure
      | _ => none := by
  unfold sourceFailure
  rw [live]
  dsimp only
  rw [here]
  rfl

/-- A step of the replay keeps the rows accepted in agreement with the population. -/
theorem StageAgrees.step {stage : Stage} (h : StageAgrees p accepted well stage)
    (live : r.source = .live id) (here : d.population? id = some p) (consistent : p.Consistent)
    (calm : well' →
      well ∧ (∀ answer ∈ r.hears d stage, answer = true) ∧ r.endsEarly d stage = false) :
    StageAgrees p (accepted ++ r.accepts d stage) well' (r.step d stage).2 := by
  have nothing : accepted ++ [] = accepted := List.append_nil accepted
  cases stage with
  | opening =>
    rw [Replay.step, live]
    dsimp only
    rw [here]
    dsimp only
    split
    · exact nothing.trans h
    · intro n ok
      cases ok
  | wiring =>
    rw [Replay.step]
    split
    · exact ⟨nothing.trans h, Nat.zero_le _⟩
    · intro n ok
      cases ok
  | reading n =>
    have same : accepted ++ r.accepts d (.reading n) = accepted := nothing
    rw [same, Replay.step]
    rcases r.look_cases live here n with
      ⟨row, at_n, look⟩ | ⟨beyond, closed, look⟩ | ⟨still_open, d', look | look⟩
    · rw [look]
      exact ⟨h, at_n⟩
    · rw [look]
      refine ⟨h, fun _ => ⟨rfl, ?_, ?_⟩⟩
      · rw [consistent.closed_eq] at closed
        exact Option.isSome_iff_ne_none.1 closed
      · exact Nat.le_antisymm (List.getElem?_eq_none_iff.1 beyond) h.le_length
    · rw [look]
      exact h
    · rw [look]
      refine ⟨h, fun goes_well => ?_⟩
      -- the run of the population was not found running, while the population is still open
      have ends : r.endsEarly d (.reading n) = true := by
        rw [endsEarly, look, sourceClosed, live]
        dsimp only
        rw [here, Option.any_some, still_open]
        rfl
      rw [(calm goes_well).2.2] at ends
      cases ends
  | asking n row =>
    have same : accepted ++ r.accepts d (.asking n row) = accepted := nothing
    rw [same, Replay.step]
    rcases ask : d.ask r.target with ⟨d', running⟩
    cases running with
    | true => exact h
    | false =>
      refine ⟨h.1, fun goes_well => ?_⟩
      have told : ∀ answer ∈ [(d.ask r.target).2], answer = true := (calm goes_well).2.1
      rw [ask] at told
      cases told false (List.mem_singleton_self false)
  | offering n row =>
    rw [Replay.step, accepts]
    rcases offer : d.offer r.target r.putTimeout row with ⟨d', taken⟩
    cases taken with
    | true => exact h.1.next h.2
    | false => exact ⟨nothing.symm ▸ h.1, h.2⟩
  | closing n stopped =>
    have same : accepted ++ r.accepts d (.closing n stopped) = accepted := nothing
    rw [same]
    refine ⟨h.1, fun no_failure goes_well => ?_⟩
    obtain ⟨running, resolved, length_eq⟩ := h.2 (calm goes_well).1
    rw [running, if_neg Bool.false_ne_true, sourceFailure_eq live here] at no_failure
    obtain ⟨outcome, ended⟩ := Option.ne_none_iff_exists'.1 resolved
    rw [ended] at no_failure
    cases outcome with
    | error failure => cases no_failure
    | ok result => exact ⟨result, ended, by rw [consistent.rows_eq result ended, length_eq]⟩
  | finishing n failure =>
    have same : accepted ++ r.accepts d (.finishing n failure) = accepted := nothing
    rw [same]
    intro m ok
    cases failure with
    | some f => cases ok
    | none =>
      cases ok
      exact ⟨h.1, fun goes_well => h.2 rfl (calm goes_well).1⟩
  | done answer =>
    have same : accepted ++ r.accepts d (.done answer) = accepted := nothing
    rw [same]
    intro n ok
    obtain ⟨delivered, ends⟩ := h n ok
    exact ⟨delivered, fun goes_well => ends (calm goes_well).1⟩

/-! ## Whole courses -/

/-- A course whose deployment is in order and whose rows agree with a population of it. -/
structure Agrees (c : Course σ) (id : PopulationId) : Prop where
  kept : c.deployment.WellKept
  stage : ∃ p, c.deployment.population? id = some p ∧
    StageAgrees p c.accepted c.GoesWell c.stage

/-- A step of the replay keeps its rows in agreement with the population. -/
theorem Agrees.own {c : Course σ} (h : Agrees c id) (live : r.source = .live id) :
    Agrees (r.own c) id := by
  obtain ⟨kept, p, here, agrees⟩ := h
  have moves := r.step_moves c.deployment c.stage
  refine ⟨moves.wellKept kept, ?_⟩
  obtain ⟨p', here', grows⟩ := moves.exists_grows kept here
  -- the step is judged by the population as it was, which then has grown
  refine ⟨p', here', StageAgrees.grows ?_ grows⟩
  refine agrees.step live here (kept.consistent id p here) ?_
  rintro ⟨answers, early⟩
  obtain ⟨early_before, early_now⟩ := Bool.or_eq_false_iff.1 early
  refine ⟨⟨?_, early_before⟩, ?_, early_now⟩
  · intro answer before
    exact answers answer (List.mem_append_left _ before)
  · intro answer now
    exact answers answer (List.mem_append_right _ now)

/-- Whatever else happens keeps the rows of a replay in agreement with the population. -/
theorem Agrees.other [ResultStore σ] {c : Course σ} (h : Agrees c id) (op : Operation σ) :
    Agrees { c with deployment := c.deployment.apply op } id := by
  obtain ⟨kept, p, here, agrees⟩ := h
  have change := c.deployment.apply_changes op
  obtain ⟨p', here', grows⟩ := change.exists_grows kept here
  exact ⟨change.wellKept kept, p', here', agrees.grows grows⟩

/-- The rows of a replay agree with the population at every turn. -/
theorem Agrees.follow [ResultStore σ] {c : Course σ} (h : Agrees c id)
    (live : r.source = .live id) (turns : List (Turn σ)) : Agrees (r.follow c turns) id := by
  induction turns generalizing c with
  | nil => exact h
  | cons turn turns ih =>
    cases turn with
    | own => exact ih (h.own live)
    | other op => exact ih (h.other op)

/-- **A replay of a population delivers its result.** In every course of a replay that ends without
a failure, the rows accepted are as many as the replay says, and are the first ones of the
population. If the target was running whenever it was asked, and the population had resolved before
its rows ended, they are the rows of its result. -/
theorem live_replay_delivers_result [ResultStore σ] (before : List (Operation σ)) (r : Replay)
    (turns : List (Turn σ)) {id : PopulationId} {p : Population} {n : Nat}
    (live : r.source = .live id)
    (here : (({} : Deployment σ).after before).population? id = some p) :
    let c := r.follow { deployment := ({} : Deployment σ).after before } turns
    c.stage = .done (.ok n) →
    ∃ p', c.deployment.population? id = some p' ∧ c.accepted = p'.rows.take n ∧
      c.accepted.length = n ∧
      ((∀ answer ∈ c.answers, answer = true) → c.early = false →
        ∃ result, p'.outcome = some (.ok result) ∧ n = result.rows.length ∧
          c.accepted = result.rows) := by
  intro c ended
  have start : Agrees { deployment := ({} : Deployment σ).after before } id :=
    ⟨Deployment.wellKept_after Deployment.wellKept_empty before, p, here, rfl⟩
  obtain ⟨kept, p', here', agrees⟩ : Agrees c id := start.follow live turns
  rw [ended] at agrees
  obtain ⟨delivered, ends⟩ := agrees n rfl
  have length_eq : c.accepted.length = n := by
    rw [delivered.accepted_eq, List.length_take, Nat.min_eq_left delivered.le_length]
  refine ⟨p', here', delivered.accepted_eq, length_eq, ?_⟩
  intro answers early
  obtain ⟨result, outcome_eq, result_length⟩ := ends ⟨answers, early⟩
  have rows_eq : result.rows = p'.rows := (kept.consistent id p' here').rows_eq result outcome_eq
  refine ⟨result, outcome_eq, result_length.symm, ?_⟩
  rw [delivered.accepted_eq, ← rows_eq, ← result_length, List.take_length]

/-- A population has captured a row of a run, and another run, which can be found running a number of
times, waits for rows. -/
def oneRowCaptured (polls : Nat) : List (Operation KeyedMap) :=
  [.addRun "source" [("out", ["n"])] [] 0 [],
    .addRun "target" [] ["in"] polls [],
    .addPopulation "population" { pipelineVersion := 7 } { fingerprint := some 7 } "out",
    .install ⟨2⟩ ⟨"source", 0⟩,
    .engine (.start "source"),
    .engine (.emit "source" "out" [.integer 1])]

/-- A replay of this population into the other run. -/
def replayOfCaptured : Replay where
  source := .live ⟨2⟩
  wiring := ⟨"read", "read_out", "in"⟩
  putTimeout := 50
  startupTimeout := 30000
  target := ⟨"target", 1⟩

/-- Another row is captured and the run of the population comes to its end while a replay is on its
way. -/
theorem live_replay_delivers_finished :
    let turns : List (Turn KeyedMap) :=
      List.replicate 4 .own ++
        [.other (.engine (.emit "source" "out" [.integer 2])),
          .other (.engine (.finish "source" "out" [] false))] ++ List.replicate 7 .own
    let c := replayOfCaptured.follow { deployment := ({} : Deployment KeyedMap).after (oneRowCaptured 2) }
      turns
    ∃ p result, c.deployment.population? ⟨2⟩ = some p ∧ p.outcome = some (.ok result) ∧
      result.rows.length = 2 ∧ c.accepted = result.rows := by
  intro turns c
  obtain ⟨p, here⟩ : ∃ p, (({} : Deployment KeyedMap).after (oneRowCaptured 2)).population? ⟨2⟩ =
    some p := ⟨_, rfl⟩
  have ended : c.stage = .done (.ok 2) := rfl
  obtain ⟨p', here', -, -, delivers⟩ :=
    live_replay_delivers_result (oneRowCaptured 2) replayOfCaptured turns rfl here ended
  obtain ⟨result, outcome_eq, length_eq, accepted_eq⟩ := delivers (by decide) rfl
  exact ⟨p', result, here', outcome_eq, length_eq.symm, accepted_eq⟩

/-- The run of the population has stopped before its end. -/
def sourceStopped : Deployment KeyedMap :=
  ({} : Deployment KeyedMap).after (oneRowCaptured 1 ++ [.engine (.stop "source")])

/-- A replay of a population whose run has stopped delivers the row captured so far and reports no
failure, although the target was running all the time and the population never came to a result. -/
theorem live_replay_of_abandoned_population :
    let c := replayOfCaptured.follow { deployment := sourceStopped } (List.replicate 11 .own)
    (replayOfCaptured.replay sourceStopped).2 = .ok 1 ∧ c.stage = .done (.ok 1) ∧
      (∀ answer ∈ c.answers, answer = true) ∧ c.accepted.length = 1 ∧
      (c.deployment.population? ⟨2⟩).map (·.outcome.isSome) = some false := by
  intro c
  have ended : c.stage = .done (.ok 1) := rfl
  have replayed : c.stage = .done (replayOfCaptured.replay sourceStopped).2 :=
    (replayOfCaptured.follow_own_eq_drive (c := { deployment := sourceStopped }) (by decide)).2
  have same : Stage.done (replayOfCaptured.replay sourceStopped).2 = .done (.ok 1) :=
    replayed.symm.trans ended
  have answers : c.answers = [true] := rfl
  obtain ⟨row, accepted⟩ : ∃ row, c.accepted = [row] := ⟨_, rfl⟩
  refine ⟨?_, ended, ?_, ?_, rfl⟩
  · injection same
  · rw [answers]
    intro answer told
    exact List.mem_singleton.1 told
  · rw [accepted]
    rfl

end Replay

end DataService
