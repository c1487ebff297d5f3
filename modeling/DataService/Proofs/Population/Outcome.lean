import DataService.Model.Population
import DataService.Proofs.Cache.Completeness

/-!
# Phases and outcomes

The phase of a sound population tells its outcome: it is unresolved as long as there is none, and
afterwards it is the phase of the outcome. What happens to a sound population leaves it sound, and
leaves it as it is once there is an outcome. Before that exactly one kind of event completes it: the
end of its run, unless the run was stopped early and the query has a cap (`advances_handle`).
-/

set_option autoImplicit false

namespace DataService

namespace Outcome

/-- A population that came to a result is completed if the result is, and bounded otherwise. -/
@[simp] theorem phase_ok (result : CachedResult) :
    Outcome.phase (.ok result) = if result.isComplete then .completed else .bounded := rfl

@[simp] theorem phase_error (failure : Failure) : Outcome.phase (.error failure) = .failed := rfl

/-- A population ends in the completed phase with a complete result and in no other way. -/
theorem phase_eq_completed_iff (outcome : Outcome) :
    Outcome.phase outcome = .completed ↔
      ∃ result, outcome = .ok result ∧ result.isComplete = true := by
  cases outcome with
  | error failure => simp
  | ok result =>
    rw [phase_ok]
    cases complete : result.isComplete with
    | true => exact iff_of_true rfl ⟨result, rfl, complete⟩
    | false =>
      refine iff_of_false nofun ?_
      rintro ⟨_, h, complete'⟩
      cases h
      exact Bool.false_ne_true (complete.symm.trans complete')

/-- Every outcome resolves its population. -/
theorem isResolved_phase (outcome : Outcome) : (Outcome.phase outcome).isResolved = true := by
  cases outcome with
  | error failure => rfl
  | ok result =>
    rw [phase_ok]
    cases result.isComplete with
    | true => rfl
    | false => rfl

end Outcome

/-- The event completes a capture for a query. -/
def PopulationEvent.Completes (q : Query) : PopulationEvent → Prop
  | .finished stoppedEarly => stoppedEarly = false ∨ q.Uncapped
  | .row _ | .failed _ => False

namespace Population

/-- The phase agrees with the outcome. -/
def Sound (p : Population) : Prop :=
  match p.outcome with
  | none => p.phase.isResolved = false
  | some outcome => p.phase = Outcome.phase outcome

variable {p p' p'' : Population}

/-- Without an outcome, soundness is that the phase is not one of the resolved. -/
theorem Sound.of_none (outcome : p.outcome = none) (phase : p.phase.isResolved = false) :
    p.Sound := by
  unfold Sound
  rw [outcome]
  exact phase

/-- With an outcome, soundness is that the phase goes with it. -/
theorem Sound.of_some {o : Outcome} (outcome : p.outcome = some o)
    (phase : p.phase = Outcome.phase o) : p.Sound := by
  unfold Sound
  rw [outcome]
  exact phase

/-- The phase of a sound population tells whether there is an outcome. -/
theorem Sound.isResolved_eq (h : p.Sound) : p.phase.isResolved = p.outcome.isSome := by
  unfold Sound at h
  cases outcome : p.outcome with
  | none =>
    rw [outcome] at h
    exact h
  | some o =>
    rw [outcome] at h
    rw [h]
    exact Outcome.isResolved_phase o

/-- A sound population whose phase is not resolved has no outcome. -/
theorem Sound.outcome_eq_none (h : p.Sound) (unresolved : p.phase.isResolved = false) :
    p.outcome = none := by
  rw [h.isResolved_eq] at unresolved
  exact Option.isNone_iff_eq_none.1 (Option.isSome_eq_false_iff.1 unresolved)

/-- A sound population is in the completed phase exactly if its outcome is a complete result. -/
theorem Sound.phase_eq_completed_iff (h : p.Sound) :
    p.phase = .completed ↔ ∃ result, p.outcome = some (.ok result) ∧ result.isComplete = true := by
  have resolved := h.isResolved_eq
  unfold Sound at h
  cases outcome : p.outcome with
  | none =>
    refine iff_of_false ?_ nofun
    intro completed
    rw [completed, outcome] at resolved
    cases resolved
  | some o =>
    rw [outcome] at h
    rw [h, Outcome.phase_eq_completed_iff]
    simp only [Option.some.injEq]

/-- A sound population is not completed before it has an outcome. -/
theorem Sound.phase_ne_completed (h : p.Sound) (unresolved : p.outcome = none) :
    p.phase ≠ .completed := by
  intro completed
  obtain ⟨result, outcome, -⟩ := h.phase_eq_completed_iff.1 completed
  rw [unresolved] at outcome
  cases outcome

/-! ## What becomes of a population -/

/-- How a population may change: it stays sound, its query stays the same, and an outcome is final.
One that had none is completed exactly under the condition. -/
structure Advances (p p' : Population) (completes : Prop) : Prop where
  sound : p'.Sound
  query_eq : p'.query = p.query
  final : p.outcome ≠ none → p' = p
  completed_iff : p.outcome = none → (p'.phase = .completed ↔ completes)

/-- A population that stays as it is advances, and is not completed by that. -/
theorem Advances.refl (h : p.Sound) : p.Advances p False where
  sound := h
  query_eq := rfl
  final _ := rfl
  completed_iff unresolved := iff_of_false (h.phase_ne_completed unresolved) id

/-- A population that has an outcome does not advance further. -/
theorem Advances.trans {c c' : Prop} (h : p.Advances p' c) (h' : p'.Advances p'' c') :
    p.Advances p'' (c ∨ p'.outcome = none ∧ c') where
  sound := h'.sound
  query_eq := h'.query_eq.trans h.query_eq
  final resolved := by
    have same := h.final resolved
    rw [← same] at resolved
    exact (h'.final resolved).trans same
  completed_iff unresolved := by
    cases outcome : p'.outcome with
    | none =>
      have open_still : ¬c := mt (h.completed_iff unresolved).2 (h.sound.phase_ne_completed outcome)
      rw [h'.completed_iff outcome]
      simp only [open_still, true_and, false_or]
    | some o =>
      have same : p'' = p' := h'.final (by rw [outcome]; exact Option.some_ne_none o)
      rw [same, h.completed_iff unresolved]
      simp only [reduceCtorEq, false_and, or_false]

/-- What changes a population without completing it adds nothing to what has happened before. -/
theorem Advances.trans_false {c : Prop} (h : p.Advances p' c) (h' : p'.Advances p'' False) :
    p.Advances p'' c where
  sound := h'.sound
  query_eq := (h.trans h').query_eq
  final := (h.trans h').final
  completed_iff unresolved := by
    rw [(h.trans h').completed_iff unresolved, and_false, or_false]

/-- Only an unresolved population has to meet the condition. -/
theorem Advances.congr {c c' : Prop} (h : p.Advances p' c) (same : p.outcome = none → (c ↔ c')) :
    p.Advances p' c' where
  sound := h.sound
  query_eq := h.query_eq
  final := h.final
  completed_iff unresolved := (h.completed_iff unresolved).trans (same unresolved)

/-- A population that does not resolve advances as long as it stays unresolved. -/
theorem Advances.of_unresolved (unresolved : p.outcome = none) (unresolved' : p'.outcome = none)
    (phase : p'.phase.isResolved = false) (query_eq : p'.query = p.query) :
    p.Advances p' False where
  sound := .of_none unresolved' phase
  query_eq := query_eq
  final resolved := absurd unresolved resolved
  completed_iff _ := by
    have sound : p'.Sound := .of_none unresolved' phase
    exact iff_of_false (sound.phase_ne_completed unresolved') id

/-- An outcome that comes second changes nothing, and informs nobody. -/
theorem resolve_eq_self {o : Outcome} (settled : p.outcome = some o) (outcome : Outcome) :
    p.resolve outcome = (p, []) := by
  unfold resolve
  rw [settled]

/-- Resolving a population completes it if the outcome is complete. -/
theorem advances_resolve (h : p.Sound) (outcome : Outcome) :
    p.Advances (p.resolve outcome).1 (Outcome.phase outcome = .completed) := by
  cases settled : p.outcome with
  | some o =>
    rw [resolve_eq_self settled]
    refine ⟨h, rfl, fun _ => rfl, ?_⟩
    intro unresolved
    rw [settled] at unresolved
    cases unresolved
  | none =>
    have after : (p.resolve outcome).1 =
        { p with phase := Outcome.phase outcome, closed := true, outcome := some outcome,
                 waiters := [] } := by
      unfold resolve
      rw [settled]
    rw [after]
    exact ⟨.of_some rfl rfl, rfl, fun resolved => absurd settled resolved, fun _ => Iff.rfl⟩

/-- The result at the end completes the population, unless a run for a capped query stopped early.
-/
theorem phase_resultAtEnd (p : Population) (stoppedEarly : Bool) :
    Outcome.phase (.ok (p.resultAtEnd stoppedEarly)) = .completed ↔
      stoppedEarly = false ∨ p.query.Uncapped := by
  have complete_iff : (p.resultAtEnd stoppedEarly).isComplete = true ↔
      stoppedEarly = false ∨ p.query.Uncapped := by
    unfold resultAtEnd
    cases stoppedEarly with
    | false => simp [CachedResult.isComplete_complete]
    | true => simp [CachedResult.isComplete_partialFor_iff]
  rw [Outcome.phase_eq_completed_iff, ← complete_iff]
  simp only [Except.ok.injEq, exists_eq_left']

/-- What an event makes of a sound population. -/
theorem advances_handle (h : p.Sound) (event : PopulationEvent) :
    p.Advances (p.handle event).1 (event.Completes p.query) := by
  cases event with
  | row row =>
    by_cases ignored : p.closed ∨ p.phase ≠ .collecting
    · rw [handle, if_pos ignored]
      exact .refl h
    · rw [handle, if_neg ignored]
      have collecting : p.phase = .collecting :=
        Decidable.not_not.1 (not_or.1 ignored).2
      have unresolved : p.outcome = none := h.outcome_eq_none (by rw [collecting]; rfl)
      refine .of_unresolved unresolved unresolved ?_ rfl
      rw [collecting]
      rfl
  | finished stoppedEarly =>
    exact (advances_resolve h _).congr fun _ => p.phase_resultAtEnd stoppedEarly
  | failed failure =>
    refine (advances_resolve h _).congr fun _ => iff_of_false ?_ id
    rw [Outcome.phase_error]
    exact nofun

/-- Those who ask to be told of the outcome do not bring it about. -/
theorem advances_onResolved (h : p.Sound) (waiter : Waiter) :
    p.Advances (p.onResolved waiter).1 False := by
  cases outcome : p.outcome with
  | some o =>
    have same : p.onResolved waiter = (p, [waiter]) := by
      unfold onResolved
      rw [outcome]
    rw [same]
    exact .refl h
  | none =>
    have after : p.onResolved waiter = ({ p with waiters := p.waiters ++ [waiter] }, []) := by
      unfold onResolved
      rw [outcome]
    have resolved := h.isResolved_eq
    rw [outcome] at resolved
    rw [after]
    exact .of_unresolved outcome outcome resolved rfl

end Population

end DataService
