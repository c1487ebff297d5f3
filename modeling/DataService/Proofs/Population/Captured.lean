import DataService.Model.Deployment.Capture
import DataService.Proofs.Population.Growth

/-!
# What a listening population captures

A population that listens to a step is told of the rows that leave the step and of its end. The first
call that is the end of the step, or a row that does not fit the layout, decides the capture: it says
what the outcome is, given the rows that came before it (`ListenerCall.verdict`). Rows that come
later, and further ends, are of no account.

`Population.captured` says so in one pass over the calls, and `foldl_handle_eq_captured` says that a
population that handles one call after the other comes to the same.
-/

set_option autoImplicit false

namespace DataService

/-- What a listener is told of a step. -/
inductive ListenerCall where
  /-- A row has left the step. -/
  | row (cells : List Document)
  /-- The step has come to its end, or was cut short. -/
  | finished (errors : List String) (stoppedEarly : Bool)

namespace ListenerCall

/-- What the call is to a population that listens to a step of the given layout. -/
def event (layout : Layout) : ListenerCall → PopulationEvent
  | .row cells =>
    match Row.capture layout cells with
    | .ok taken => .row taken
    | .error fault => .failed (.rowConversion layout.step fault)
  | .finished errors stoppedEarly => Deployment.endEvent errors stoppedEarly

/-- The row that the call brings. -/
def row? : ListenerCall → Option Row
  | .row cells => some ⟨cells⟩
  | .finished _ _ => none

/-- Whether the call decides a capture: it brings a row that does not fit a known layout, or it is
the end of the step. -/
def decides (layout : Layout) : ListenerCall → Bool
  | .row cells => decide (layout.fields ≠ [] ∧ cells.length ≠ layout.fields.length)
  | .finished _ _ => true

/-- The outcome of a capture for a query that is decided by the call, after the given rows. -/
def verdict (q : Query) (layout : Layout) (rows : List Row) : ListenerCall → Outcome
  | .row cells =>
    .error (.rowConversion layout.step (.arity layout.fields.length cells.length))
  | .finished errors stoppedEarly =>
    if errors ≠ [] then .error (.populationFailed errors)
    else if stoppedEarly then .ok (.partialFor rows q)
    else .ok (.complete rows)

/-- The rows that came before the capture was decided. -/
def rowsBefore (layout : Layout) (calls : List ListenerCall) : List Row :=
  (calls.takeWhile fun call => !call.decides layout).filterMap row?

variable {layout : Layout} {call : ListenerCall} {calls before : List ListenerCall}

/-- Nothing is captured after a call that decides. -/
theorem rowsBefore_cons_of_decides (decides : call.decides layout = true)
    (calls : List ListenerCall) : rowsBefore layout (call :: calls) = [] := by
  unfold rowsBefore
  rw [List.takeWhile_cons_of_neg (by simpa using decides)]
  rfl

/-- A call that decides nothing may bring a row, before what the others bring. -/
theorem rowsBefore_cons_of_not_decides (undecided : call.decides layout = false)
    (calls : List ListenerCall) :
    rowsBefore layout (call :: calls) = call.row?.toList ++ rowsBefore layout calls := by
  unfold rowsBefore
  rw [List.takeWhile_cons_of_pos (by simpa using undecided), List.filterMap_cons]
  cases call.row? <;> rfl

/-- Calls that decide nothing bring their rows. -/
theorem rowsBefore_append (undecided : ∀ call ∈ before, call.decides layout = false)
    (calls : List ListenerCall) :
    rowsBefore layout (before ++ calls) = before.filterMap row? ++ rowsBefore layout calls := by
  induction before with
  | nil => rfl
  | cons first rest ih =>
    have now := undecided first List.mem_cons_self
    have later := ih fun call member => undecided call (List.mem_cons_of_mem first member)
    rw [List.cons_append, rowsBefore_cons_of_not_decides now, later, List.filterMap_cons]
    cases first.row? <;> rfl

/-- No call decides among those that leave the population undecided. -/
theorem find?_of_undecided (undecided : ∀ call ∈ before, call.decides layout = false) :
    before.find? (·.decides layout) = none := by
  rw [List.find?_eq_none]
  intro call member
  rw [undecided call member]
  exact Bool.false_ne_true

/-- The first call that decides is found behind those that do not. -/
theorem find?_append_cons (undecided : ∀ call ∈ before, call.decides layout = false)
    (decides : call.decides layout = true) (calls : List ListenerCall) :
    (before ++ call :: calls).find? (·.decides layout) = some call := by
  rw [List.find?_append, find?_of_undecided undecided, Option.none_or,
    List.find?_cons_of_pos decides]

/-- A call that decides nothing brings a row, which is taken over. -/
theorem exists_row_of_not_decides (undecided : call.decides layout = false) :
    ∃ row, call.row? = some row ∧ call.event layout = .row row := by
  cases call with
  | finished errors stoppedEarly => cases undecided
  | row cells =>
    refine ⟨⟨cells⟩, rfl, ?_⟩
    unfold event
    dsimp only
    unfold Row.capture
    rw [if_neg (of_decide_eq_false undecided)]

end ListenerCall

namespace Population

open ListenerCall

variable {p : Population} {layout : Layout}

/-- What has become of a population that listens to a step, after the calls. -/
def captured (p : Population) (layout : Layout) (calls : List ListenerCall) : Population :=
  let rows := p.rows ++ rowsBefore layout calls
  match calls.find? (·.decides layout) with
  | none => { p with rows }
  | some call => { p with rows }.ended (call.verdict p.query layout rows)

/-- A population that listens: it collects, and its capture is not decided. -/
structure Listening (p : Population) : Prop where
  phase_eq : p.phase = .collecting
  closed_eq : p.closed = false
  outcome_eq : p.outcome = none

/-- Nothing that happens changes a population that has ended. -/
theorem handle_ended (p : Population) (outcome : Outcome) (event : PopulationEvent) :
    ((p.ended outcome).handle event).1 = p.ended outcome := by
  cases event with
  | row row =>
    have closed : (p.ended outcome).closed = true ∨ (p.ended outcome).phase ≠ .collecting :=
      .inl rfl
    rw [handle, if_pos closed]
  | finished stoppedEarly => rfl
  | failed failure => rfl

/-- A population that has ended is told of further calls in vain. -/
theorem foldl_handle_ended (p : Population) (outcome : Outcome) (layout : Layout)
    (calls : List ListenerCall) :
    calls.foldl (fun p call => (p.handle (call.event layout)).1) (p.ended outcome) =
      p.ended outcome := by
  induction calls with
  | nil => rfl
  | cons call rest ih => rw [List.foldl_cons, handle_ended, ih]

/-- A row is added to those that a listening population has. -/
theorem Listening.handle_row (listening : p.Listening) (row : Row) :
    (p.handle (.row row)).1 = { p with rows := p.rows ++ [row] } := by
  have counts : ¬(p.closed = true ∨ p.phase ≠ .collecting) := by
    rw [listening.closed_eq, listening.phase_eq]
    simp
  rw [handle, if_neg counts]

/-- A call that decides ends the population. -/
theorem Listening.handle_decision (listening : p.Listening) {call : ListenerCall}
    (decides : call.decides layout = true) :
    (p.handle (call.event layout)).1 = p.ended (call.verdict p.query layout p.rows) := by
  cases call with
  | row cells =>
    have unfit : layout.fields ≠ [] ∧ cells.length ≠ layout.fields.length :=
      of_decide_eq_true decides
    have event_eq : (ListenerCall.row cells).event layout =
        .failed (.rowConversion layout.step (.arity layout.fields.length cells.length)) := by
      unfold event
      dsimp only
      unfold Row.capture
      rw [if_pos unfit]
    rw [event_eq, handle, resolve_eq listening.outcome_eq]
    rfl
  | finished errors stoppedEarly =>
    cases errors with
    | nil =>
      have event_eq : (ListenerCall.finished [] stoppedEarly).event layout =
          .finished stoppedEarly := rfl
      rw [event_eq, handle, resolve_eq listening.outcome_eq]
      cases stoppedEarly <;> rfl
    | cons error rest =>
      have event_eq : (ListenerCall.finished (error :: rest) stoppedEarly).event layout =
          .failed (.populationFailed (error :: rest)) := rfl
      rw [event_eq, handle, resolve_eq listening.outcome_eq]
      rfl

/-- A listening population that handles one call after the other captures what was there before the
first call that decides, and has the outcome that this call says. -/
theorem foldl_handle_eq_captured (listening : p.Listening) (calls : List ListenerCall) :
    calls.foldl (fun p call => (p.handle (call.event layout)).1) p = p.captured layout calls := by
  induction calls generalizing p with
  | nil =>
    unfold captured rowsBefore
    simp
  | cons call rest ih =>
    rw [List.foldl_cons]
    cases decided : call.decides layout with
    | true =>
      rw [listening.handle_decision decided, foldl_handle_ended]
      unfold captured
      rw [rowsBefore_cons_of_decides decided, List.find?_cons_of_pos decided, List.append_nil]
    | false =>
      obtain ⟨row, brings, event_eq⟩ := exists_row_of_not_decides decided
      have listening' : Listening { p with rows := p.rows ++ [row] } := { listening with }
      rw [event_eq, listening.handle_row, ih listening']
      unfold captured
      rw [rowsBefore_cons_of_not_decides decided, brings,
        List.find?_cons_of_neg (by rw [decided]; exact Bool.false_ne_true)]
      dsimp only [Option.toList]
      rw [List.append_assoc]

/-- Calls that decide nothing add their rows. -/
theorem captured_of_undecided (p : Population) {calls : List ListenerCall}
    (undecided : ∀ call ∈ calls, call.decides layout = false) :
    p.captured layout calls = { p with rows := p.rows ++ calls.filterMap row? } := by
  have rows_eq := rowsBefore_append undecided []
  rw [List.append_nil] at rows_eq
  unfold captured
  rw [find?_of_undecided undecided, rows_eq]
  exact congrArg (fun rows => { p with rows := p.rows ++ rows }) (List.append_nil _)

/-- The first call that decides ends the capture, whatever follows it. -/
theorem captured_append_cons (p : Population) {before : List ListenerCall} {call : ListenerCall}
    (undecided : ∀ call ∈ before, call.decides layout = false)
    (decides : call.decides layout = true) (calls : List ListenerCall) :
    p.captured layout (before ++ call :: calls) =
      Population.ended { p with rows := p.rows ++ before.filterMap row? }
        (call.verdict p.query layout (p.rows ++ before.filterMap row?)) := by
  unfold captured
  rw [find?_append_cons undecided decides, rowsBefore_append undecided,
    rowsBefore_cons_of_decides decides, List.append_nil]

end Population

end DataService
