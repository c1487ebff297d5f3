import DataService.Proofs.Deployment.Placement
import DataService.Proofs.Deployment.Protocol

/-!
# Replays into a run that has stopped

A run that has stopped stays so, and a replay that asks whether its target is running before the next
row ends there without a failure. But it asks only when there is a next row. If there is none after
the target has stopped, the replay does not learn of it; the end of the rows is the end of the
replay, which reports the failure of the source if there is one
(`failure_reported_to_stopped_target`). In every other case it ends silently
(`stopped_target_ends_silently`).
-/

set_option autoImplicit false

namespace DataService

/-- The target is wired, and the replay is not at its end yet. -/
def Stage.isWired : Stage → Bool
  | .opening | .wiring | .done _ => false
  | _ => true

/-- The target is fed with rows. -/
def Stage.isFeeding : Stage → Bool
  | .reading _ | .asking _ _ | .offering _ _ => true
  | _ => false

/-- The number of rows that are on their way to the target. -/
def Stage.underOffer : Stage → Nat
  | .offering _ _ => 1
  | _ => 0

namespace Replay

open Deployment

variable {σ : Type} {r : Replay} {d d' : Deployment σ} {accepted : List Row}
  {answers before : List Bool} {calls : List Event} {captured limit : Nat}

/-- The target was not asked any more than `before`. All rows that were captured were accepted, and no
more than were accepted or under offer. -/
structure Unnoticed (before : List Bool) (captured limit : Nat) (accepted : List Row)
    (answers : List Bool) : Prop where
  answers_eq : answers = before
  captured_le : captured ≤ accepted.length
  le_limit : accepted.length ≤ limit

/-- What is true at a stage of a replay whose target has stopped. -/
def Winding (before : List Bool) (captured limit : Nat) (accepted : List Row)
    (answers : List Bool) : Stage → Prop
  | .opening | .wiring => False
  | .reading _ | .asking _ _ => answers = before ∧ accepted.length ≤ limit
  | .offering _ _ => answers = before ∧ accepted.length + 1 ≤ limit
  | .closing _ stopped => stopped = false → Unnoticed before captured limit accepted answers
  | .finishing _ failure => failure ≠ none → Unnoticed before captured limit accepted answers
  | .done answer => (∃ failure, answer = .error failure) →
    Unnoticed before captured limit accepted answers

/-- A step of the replay goes on from what was true before it. -/
theorem Winding.step {stage : Stage} (h : Winding before captured limit accepted answers stage)
    (proceeds : r.Proceeds d accepted answers calls stage)
    (stopped : (d.ask r.target).2 = false) (sources : captured ≤ (r.sourceRows d).length) :
    Winding before captured limit (accepted ++ r.accepts d stage) (answers ++ r.hears d stage)
      (r.step d stage).2 := by
  cases stage with
  | opening | wiring => exact h.elim
  | reading n =>
    obtain ⟨length_eq, -, -⟩ := proceeds
    simp only [accepts, hears, List.append_nil]
    rw [Replay.step]
    rcases look : r.look d n with ⟨d', sight⟩
    cases sight with
    | row row => exact h
    | waiting => exact h
    | ended =>
      -- there is no next row to ask the target for
      intro _
      have all := Nat.le_trans sources (length_le_of_look_ended look)
      rw [length_eq] at all
      exact ⟨h.1, all, h.2⟩
  | asking n row =>
    rw [Replay.step]
    rcases ask : d.ask r.target with ⟨d', running⟩
    rw [ask] at stopped
    cases stopped
    -- the replay learns that its target has stopped
    intro not_stopped
    cases not_stopped
  | offering n row =>
    simp only [hears, List.append_nil]
    rw [Replay.step, Replay.accepts]
    rcases d.offer r.target r.putTimeout row with ⟨d', taken⟩
    cases taken with
    | true =>
      rw [if_pos rfl]
      refine ⟨h.1, ?_⟩
      rw [List.length_append]
      exact h.2
    | false =>
      rw [if_neg Bool.false_ne_true, List.append_nil]
      exact ⟨h.1, Nat.le_of_succ_le h.2⟩
  | closing n stopped =>
    simp only [accepts, hears, List.append_nil]
    intro failure
    cases stopped with
    | true => exact absurd rfl failure
    | false => exact h rfl
  | finishing n failure =>
    simp only [accepts, hears, List.append_nil]
    rintro ⟨f, error⟩
    cases failure with
    | none => cases error
    | some f => exact h (Option.some_ne_none _)
  | done answer =>
    simp only [accepts, hears, List.append_nil]
    exact h

/-! ## Whole courses -/

variable [ResultStore σ]

/-- Every run goes on through a turn, whether the replay takes it or somebody else. -/
theorem Keeps.runsGoOn {c : Course σ} (h : r.Keeps c calls) (t : Turn σ) :
    c.deployment.RunsGoOn (r.turn c t).deployment := by
  obtain ⟨op, next⟩ := r.exists_operation c t
  rw [next]
  exact (c.deployment.apply_stirs h.wellKept op).runsGoOn

/-- A replay that has wired its target has made calls on it. -/
theorem Keeps.calls_ne_nil {c : Course σ} (h : r.Keeps c calls) (wired : c.stage.isWired = true) :
    calls ≠ [] := by
  have of_fed {tail : List Event} (fed : r.Fed c.deployment c.accepted calls tail) :
      calls ≠ [] := by
    obtain ⟨offers, -, rfl⟩ := fed.calls_eq
    exact List.cons_ne_nil _ _
  have proceeds := h.proceeds
  cases stage : c.stage with
  | reading n =>
    rw [stage] at proceeds
    exact of_fed proceeds.2.1
  | asking n row | offering n row =>
    rw [stage] at proceeds
    obtain ⟨-, ⟨tail, fed, -⟩, -⟩ := proceeds
    exact of_fed fed
  | closing n stopped =>
    rw [stage] at proceeds
    obtain ⟨-, tail, fed, -⟩ := proceeds
    exact of_fed fed
  | finishing n failure =>
    rw [stage] at proceeds
    obtain ⟨-, ⟨tail, stopped, fed, -⟩, -⟩ := proceeds
    exact of_fed fed
  | opening | wiring | done =>
    rw [stage] at wired
    cases wired

/-- A replay that has wired its target has found it there. -/
theorem serial_target_lt {c : Course σ} (h : r.Keeps c calls)
    (old : c.stage.isWired = true → r.target.serial < c.deployment.serial)
    (turns : List (Turn σ)) (wired : (r.follow c turns).stage.isWired = true) :
    r.target.serial < (r.follow c turns).deployment.serial := by
  induction turns generalizing c calls with
  | nil => exact old wired
  | cons t turns ih =>
    refine ih (h.turn t) (fun wired_now => ?_) wired
    refine Nat.lt_of_lt_of_le ?_ (h.runsGoOn t).serial_le
    cases t with
    | other op => exact old wired_now
    | own =>
      have stage_eq : (r.turn c .own).stage = (r.step c.deployment c.stage).2 := rfl
      rw [stage_eq] at wired_now
      cases stage : c.stage with
      | reading | asking | offering | closing | finishing => exact old (by rw [stage]; rfl)
      | opening =>
        rw [stage] at wired_now
        rcases r.opening_cases c.deployment with ⟨id, p, -, -, -, opens⟩ | ⟨-, opens⟩
        · rw [opens] at wired_now
          cases wired_now
        · rw [opens] at wired_now
          cases wired_now
      | wiring =>
        -- it is here that the replay finds its target, and a run that is there is not a later one
        rw [stage, Replay.step] at wired_now
        split at wired_now
        · rename_i present
          obtain ⟨ops, reached⟩ := h.reached
          cases there : c.deployment.run? r.target with
          | none =>
            rw [there] at present
            cases present
          | some t =>
            obtain ⟨named, id_eq⟩ := run?_eq_some_iff.1 there
            have placed : c.deployment.Placed [] := by
              rw [reached]
              exact placed_after ops
            rw [← id_eq]
            exact placed.fresh _ t named
        · cases wired_now
      | done =>
        rw [stage] at wired_now
        cases wired_now

/-- Whatever happens after a target has stopped, the replay goes on so. -/
theorem Winding.follow {c : Course σ} (keeps : r.Keeps c calls)
    (old : r.target.serial < c.deployment.serial)
    (stopped : (c.deployment.ask r.target).2 = false)
    (sources : captured ≤ (r.sourceRows c.deployment).length)
    (h : Winding before captured limit c.accepted c.answers c.stage) (turns : List (Turn σ)) :
    Winding before captured limit (r.follow c turns).accepted (r.follow c turns).answers
      (r.follow c turns).stage := by
  induction turns generalizing c calls with
  | nil => exact h
  | cons t turns ih =>
    have goes_on := keeps.runsGoOn t
    have grows := keeps.sourceGrows t
    refine ih (keeps.turn t) (Nat.lt_of_lt_of_le old goes_on.serial_le)
      (goes_on.ask_eq_false old stopped)
      (Nat.le_trans sources grows.rows_prefix.length_le) ?_
    cases t with
    | own => exact h.step keeps.proceeds stopped sources
    | other op => exact h

/-- **A target that has stopped ends a replay silently, unless that goes unnoticed.** From a moment
on at which the target is wired and not found running, the replay answers with the number of rows
accepted; or else it answers with the failure of its source, but then the target was not asked any
more, no row was accepted but those that were accepted or under offer at that moment, and if the
target was still being fed these are all rows that the source had. -/
theorem stopped_target_ends_silently (ops : List (Operation σ)) (r : Replay)
    (turns turns' : List (Turn σ)) {answer : Except Failure Nat} :
    let c := r.follow { deployment := ({} : Deployment σ).after ops } turns
    let c' := r.follow c turns'
    c.stage.isWired = true → (c.deployment.ask r.target).2 = false → c'.stage = .done answer →
    answer = .ok c'.accepted.length ∨
      ∃ failure, answer = .error failure ∧ r.SourceFailed c'.deployment failure ∧
        c'.answers = c.answers ∧
        c'.accepted.length ≤ c.accepted.length + c.stage.underOffer ∧
        (c.stage.isFeeding = true →
          (r.sourceRows c.deployment).length ≤ c'.accepted.length) := by
  intro c c' wired stopped is_over
  let captured := if c.stage.isFeeding then (r.sourceRows c.deployment).length else 0
  have keeps : r.Keeps c _ := (keeps_start ops).follow turns
  have old : r.target.serial < c.deployment.serial :=
    serial_target_lt (keeps_start ops) (fun wired => by cases wired) turns wired
  have sources : captured ≤ (r.sourceRows c.deployment).length := by
    dsimp only [captured]
    split
    · exact Nat.le_refl _
    · exact Nat.zero_le _
  have start : Winding c.answers captured (c.accepted.length + c.stage.underOffer) c.accepted
      c.answers c.stage := by
    cases stage : c.stage with
    | reading | asking | offering => exact ⟨rfl, Nat.le_refl _⟩
    | closing | finishing =>
      intro _
      have none_counted : captured = 0 := by
        dsimp only [captured]
        rw [stage]
        rfl
      rw [none_counted]
      exact ⟨rfl, Nat.zero_le _, Nat.le_refl _⟩
    | opening | wiring | done =>
      rw [stage] at wired
      cases wired
  have winding := start.follow keeps old stopped sources turns'
  rw [is_over] at winding
  have completes := (keeps.follow turns').completes is_over
    (List.append_ne_nil_of_left_ne_nil (keeps.calls_ne_nil wired) _)
  rcases completes.answer_eq with ok | ⟨failure, error, failed⟩
  · exact .inl ok
  · obtain ⟨answers_eq, captured_le, le_limit⟩ := winding ⟨failure, error⟩
    refine .inr ⟨failure, error, failed, answers_eq, le_limit, fun feeding => ?_⟩
    dsimp only [captured] at captured_le
    rwa [if_pos feeding] at captured_le

/-- A replay delivers the row captured so far, and then its target stops. -/
def deliveredBeforeStop : List (Turn KeyedMap) :=
  List.replicate 5 .own ++ [.other (.engine (.stop "target"))]

/-- If there is another row, the replay finds that its target has stopped. -/
theorem stopped_target_ends_silently_at_row :
    let c := replayOfCaptured.follow
      { deployment := ({} : Deployment KeyedMap).after (oneRowCaptured 2) } deliveredBeforeStop
    let c' := replayOfCaptured.follow c
      (.other (.engine (.emit "source" "out" [.integer 2])) ::
        .other (.engine (.finish "source" "out" ["disk full"] false)) :: List.replicate 4 .own)
    c'.stage = .done (.ok 1) ∧ c'.accepted.length = 1 := by
  intro c c'
  have wired : c.stage.isWired = true := rfl
  have stopped : (c.deployment.ask replayOfCaptured.target).2 = false := rfl
  have is_over : c'.stage = .done (.ok 1) := rfl
  refine ⟨is_over, ?_⟩
  rcases stopped_target_ends_silently (oneRowCaptured 2) replayOfCaptured deliveredBeforeStop _
    wired stopped is_over with ok | ⟨failure, error, -⟩
  · exact (Except.ok.inj ok).symm
  · cases error

/-- If there is none, and the source fails after the target has stopped, the replay reports that
failure and not the number of the rows. -/
theorem failure_reported_to_stopped_target :
    let c := replayOfCaptured.follow
      { deployment := ({} : Deployment KeyedMap).after (oneRowCaptured 2) } deliveredBeforeStop
    let c' := replayOfCaptured.follow c
      (.other (.engine (.finish "source" "out" ["disk full"] false)) :: List.replicate 3 .own)
    c.stage.isWired = true ∧ (c.deployment.ask replayOfCaptured.target).2 = false ∧
      (c.deployment.population? ⟨2⟩).map (·.outcome.isSome) = some false ∧
      c'.accepted.length = 1 ∧ c'.stage = .done (.error (.populationFailed ["disk full"])) :=
  ⟨rfl, rfl, rfl, rfl, rfl⟩

end Replay

end DataService
