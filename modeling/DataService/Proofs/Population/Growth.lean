import DataService.Proofs.Population.Outcome

/-!
# How a population grows

All that can happen to a population comes down to two things. Either it goes on: it is put on a run
or refused by one, it starts to collect, or it takes a row (`GoesOn`). Or it ends, once, with an
outcome (`ended`); an outcome that is a result is that of the rows captured so far. `handle_response`
says that events do nothing else.

The parts of a population agree with each other (`Consistent`) whatever happens to it, and from then
to now it has grown (`Grows`): its phase has not gone back, no row was lost, and if it had an
outcome it is as it was.
-/

set_option autoImplicit false

namespace DataService

/-- How far a phase is on the way from creation to resolution. -/
def Phase.rank : Phase → Nat
  | .created => 0
  | .collecting => 1
  | .completed | .bounded | .failed => 2

/-- The last rank is that of the phases in which a population has resolved. -/
theorem Phase.rank_eq_two_iff (phase : Phase) : phase.rank = 2 ↔ phase.isResolved = true := by
  cases phase <;> decide

/-- No phase comes after the resolved ones. -/
theorem Phase.rank_le_two (phase : Phase) : phase.rank ≤ 2 := by
  cases phase <;> decide

namespace Population

/-- The parts of a population agree with each other. -/
structure Consistent (p : Population) : Prop where
  sound : p.Sound
  closed_eq : p.closed = p.outcome.isSome
  ends_with : ∀ result, p.outcome = some (.ok result) →
    ∃ stoppedEarly, result = p.resultAtEnd stoppedEarly
  served : p.outcome ≠ none → p.waiters = []

/-- What a population has become later on. -/
structure Grows (p p' : Population) : Prop where
  label_eq : p'.label = p.label
  key_eq : p'.key = p.key
  query_eq : p'.query = p.query
  outputStep_eq : p'.outputStep = p.outputStep
  rank_le : p.phase.rank ≤ p'.phase.rank
  rows_prefix : p.rows <+: p'.rows
  final : p.outcome ≠ none →
    p'.phase = p.phase ∧ p'.rows = p.rows ∧ p'.closed = p.closed ∧ p'.outcome = p.outcome

variable {p p' p'' : Population}

/-- A population to which nothing happens has become what it was. -/
theorem Grows.refl (p : Population) : p.Grows p :=
  ⟨rfl, rfl, rfl, rfl, Nat.le_refl _, List.prefix_refl _, fun _ => ⟨rfl, rfl, rfl, rfl⟩⟩

/-- What a population has become later on goes on from what it had become before. -/
theorem Grows.trans (h : p.Grows p') (h' : p'.Grows p'') : p.Grows p'' where
  label_eq := h'.label_eq.trans h.label_eq
  key_eq := h'.key_eq.trans h.key_eq
  query_eq := h'.query_eq.trans h.query_eq
  outputStep_eq := h'.outputStep_eq.trans h.outputStep_eq
  rank_le := Nat.le_trans h.rank_le h'.rank_le
  rows_prefix := h.rows_prefix.trans h'.rows_prefix
  final resolved := by
    obtain ⟨phase, rows, closed, outcome⟩ := h.final resolved
    have resolved' : p'.outcome ≠ none := by rwa [outcome]
    obtain ⟨phase', rows', closed', outcome'⟩ := h'.final resolved'
    exact ⟨phase'.trans phase, rows'.trans rows, closed'.trans closed, outcome'.trans outcome⟩

/-! ## Going on -/

/-- What happens to a population without ending it. -/
inductive GoesOn (p : Population) : Population → Prop
  /-- It is put on a run, or a run refuses it. -/
  | placed (run : Option RunId) (refusal : Option Failure) : GoesOn p { p with run, refusal }
  | started : p.phase = .created → GoesOn p { p with phase := .collecting }
  | taken (row : Row) : p.closed = false → p.phase = .collecting →
    GoesOn p { p with rows := p.rows ++ [row] }

/-- A population that goes on does not end. -/
theorem GoesOn.outcome_eq (h : p.GoesOn p') : p'.outcome = p.outcome := by
  cases h <;> rfl

/-- A population that goes on keeps its waiters. -/
theorem GoesOn.waiters_eq (h : p.GoesOn p') : p'.waiters = p.waiters := by
  cases h <;> rfl

/-- A population to which nothing happens goes on. -/
theorem GoesOn.refl (p : Population) : p.GoesOn p := .placed p.run p.refusal

/-- A population grows by going on, since none takes a row or starts after its end. -/
theorem GoesOn.grows (consistent : p.Consistent) (h : p.GoesOn p') : p.Grows p' := by
  cases h with
  | placed run refusal => exact { Grows.refl p with }
  | started created =>
    have unresolved : p.outcome = none :=
      consistent.sound.outcome_eq_none (by rw [created]; rfl)
    refine ⟨rfl, rfl, rfl, rfl, ?_, List.prefix_refl _, fun resolved => absurd unresolved resolved⟩
    rw [created]
    exact Nat.zero_le _
  | taken row open_still collecting =>
    have unresolved : p.outcome = none :=
      consistent.sound.outcome_eq_none (by rw [collecting]; rfl)
    exact ⟨rfl, rfl, rfl, rfl, Nat.le_refl _, List.prefix_append _ _,
      fun resolved => absurd unresolved resolved⟩

/-- The parts of a population agree with each other as it goes on. -/
theorem GoesOn.consistent (h : p.GoesOn p') (consistent : p.Consistent) : p'.Consistent := by
  obtain ⟨sound, closed_eq, ends_with, served⟩ := consistent
  cases h with
  | placed run refusal => exact ⟨sound, closed_eq, ends_with, served⟩
  | started created =>
    have unresolved : p.outcome = none := sound.outcome_eq_none (by rw [created]; rfl)
    exact ⟨.of_none unresolved rfl, closed_eq, ends_with, served⟩
  | taken row open_still collecting =>
    have unresolved : p.outcome = none := sound.outcome_eq_none (by rw [collecting]; rfl)
    refine ⟨sound, closed_eq, ?_, served⟩
    intro result ok
    rw [unresolved] at ok
    cases ok

/-! ## Ending -/

/-- The population once it has ended. -/
def ended (p : Population) (outcome : Outcome) : Population :=
  { p with phase := outcome.phase, closed := true, outcome := some outcome, waiters := [] }

/-- The outcome is one that the population can come to: a result is that of the rows captured, for a
run that came to its end or stopped before it. -/
def Fits (p : Population) (outcome : Outcome) : Prop :=
  ∀ result, outcome = .ok result → ∃ stoppedEarly, result = p.resultAtEnd stoppedEarly

/-- A population without an outcome accepts the first one, and hands out its waiters. -/
theorem resolve_eq (unresolved : p.outcome = none) (outcome : Outcome) :
    p.resolve outcome = (p.ended outcome, p.waiters) := by
  unfold resolve
  rw [unresolved]
  rfl

/-- A population that ends keeps the reason for which it was refused. -/
theorem refusal_resolve (p : Population) (outcome : Outcome) :
    (p.resolve outcome).1.refusal = p.refusal := by
  unfold resolve
  split <;> rfl

/-- A population grows by ending, since it had no outcome before. -/
theorem grows_ended (unresolved : p.outcome = none) (outcome : Outcome) :
    p.Grows (p.ended outcome) := by
  refine ⟨rfl, rfl, rfl, rfl, ?_, List.prefix_refl _, fun resolved => absurd unresolved resolved⟩
  have last : (p.ended outcome).phase.rank = 2 :=
    (Phase.rank_eq_two_iff _).2 (Outcome.isResolved_phase outcome)
  rw [last]
  exact p.phase.rank_le_two

/-- The parts of a population agree with each other when it ends with an outcome that fits. -/
theorem consistent_ended {outcome : Outcome} (fits : p.Fits outcome) :
    (p.ended outcome).Consistent := by
  refine ⟨.of_some rfl rfl, rfl, ?_, fun _ => rfl⟩
  intro result ok
  exact fits result (Option.some.inj ok)

/-! ## Events and registrations -/

/-- What an event makes of a population, and the waiters that are informed. -/
inductive Response (p : Population) : Population × List Waiter → Prop
  | goesOn {p' : Population} : p.GoesOn p' → Response p (p', [])
  | ends (outcome : Outcome) : p.outcome = none → p.Fits outcome →
    Response p (p.ended outcome, p.waiters)

/-- To resolve a population is to end it, or to leave it as it is. -/
theorem resolve_response {outcome : Outcome} (fits : p.Fits outcome) :
    p.Response (p.resolve outcome) := by
  cases settled : p.outcome with
  | none =>
    rw [resolve_eq settled]
    exact .ends outcome settled fits
  | some o =>
    rw [resolve_eq_self settled]
    exact .goesOn (.refl p)

/-- Any failure fits as the end of a population. -/
theorem fits_error (p : Population) (failure : Failure) : p.Fits (.error failure) := by
  intro result same
  cases same

/-- The result of the rows captured so far fits as the end of a population. -/
theorem fits_resultAtEnd (p : Population) (stoppedEarly : Bool) :
    p.Fits (.ok (p.resultAtEnd stoppedEarly)) := by
  intro result same
  exact ⟨stoppedEarly, (Except.ok.inj same).symm⟩

/-- A population responds to any event by going on, by ending, or not at all. -/
theorem handle_response (p : Population) (event : PopulationEvent) :
    p.Response (p.handle event) := by
  cases event with
  | row row =>
    by_cases ignored : p.closed = true ∨ p.phase ≠ .collecting
    · rw [handle, if_pos ignored]
      exact .goesOn (.refl p)
    · rw [handle, if_neg ignored]
      obtain ⟨not_closed, collecting⟩ := not_or.1 ignored
      exact .goesOn (.taken row (Bool.eq_false_iff.2 not_closed) (Decidable.not_not.1 collecting))
  | finished stoppedEarly => exact resolve_response (p.fits_resultAtEnd stoppedEarly)
  | failed failure => exact resolve_response (p.fits_error failure)

/-- One who registers with an unresolved population waits for it. -/
theorem onResolved_of_none (unresolved : p.outcome = none) (waiter : Waiter) :
    p.onResolved waiter = ({ p with waiters := p.waiters ++ [waiter] }, []) := by
  unfold onResolved
  rw [unresolved]

/-- One who registers with a resolved population is informed at once. -/
theorem onResolved_of_some {outcome : Outcome} (resolved : p.outcome = some outcome)
    (waiter : Waiter) : p.onResolved waiter = (p, [waiter]) := by
  unfold onResolved
  rw [resolved]

/-- The result of a population has its rows, whether its run came to its end or not. -/
theorem rows_resultAtEnd (p : Population) (stoppedEarly : Bool) :
    (p.resultAtEnd stoppedEarly).rows = p.rows := by
  cases stoppedEarly <;> rfl

/-- The result of a population has its rows. -/
theorem Consistent.rows_eq (h : p.Consistent) (result : CachedResult)
    (ok : p.outcome = some (.ok result)) : result.rows = p.rows := by
  obtain ⟨stoppedEarly, same⟩ := h.ends_with result ok
  rw [same, rows_resultAtEnd]

/-- A population takes no more rows from the moment on that it has resolved. -/
theorem Consistent.isResolved_eq (h : p.Consistent) : p.phase.isResolved = p.closed := by
  rw [h.sound.isResolved_eq, h.closed_eq]

/-- A population without an outcome may get another waiter. -/
theorem Consistent.add_waiter (h : p.Consistent) (unresolved : p.outcome = none)
    (waiter : Waiter) : Consistent { p with waiters := p.waiters ++ [waiter] } := by
  obtain ⟨sound, closed_eq, ends_with, -⟩ := h
  exact ⟨sound, closed_eq, ends_with, fun resolved => absurd unresolved resolved⟩

end Population

end DataService
