import DataService.Proofs.Deployment.Runs
import DataService.Proofs.Deployment.WellKept
import DataService.Proofs.Store.Keyed

/-!
# Readers of a growing population

Any number of readers go through the rows of populations while the deployment goes on. A call for
the next row is no single moment: the reader looks for the row as often as it has to wait, and when
it has seen that there is one it takes it, and between any two of these steps other readers may take
theirs and anything else may happen. An `Audience` is a deployment with its readers, and its `Turn`s
are these steps. If nothing comes between them the steps are the calls: those up to the first answer are
the question whether there is a next row (`after_reads_eq_hasMore`), and one step more takes the row
(`after_reads_eq_next`).

What keeps the readers in step with their populations is that a population only grows
(`Reading.InStep`). So every reader has returned the first rows of its population, it gets no row
only when there is none and no run is left that could bring one, and when the population has a
result it comes to an end with just the rows of that result (`readers_see_every_row_once`).
-/

set_option autoImplicit false

namespace DataService

/-- A reader on its way, and what its calls have returned. -/
structure Reading where
  reader : Reader
  /-- The rows returned so far, in order. -/
  returned : List Row := []
  /-- The call under way has seen that there is a row. -/
  sighted : Bool := false
  /-- The last call returned no row. -/
  ended : Bool := false

/-- A deployment and the readers in it. -/
structure Audience (σ : Type) where
  deployment : Deployment σ := {}
  readings : List Reading := []

/-- What comes next. -/
inductive Audience.Turn (σ : Type) where
  /-- The reader of the number takes a step of its call, or begins one. -/
  | reads (number : Nat)
  /-- A reader of a population is opened. -/
  | opens (population : PopulationId)
  | other (op : Operation σ)

/-- The turn is one of the reader of the number. -/
def Audience.Turn.isOf {σ : Type} (number : Nat) : Audience.Turn σ → Bool
  | .reads i => i = number
  | _ => false

namespace Deployment

variable {σ : Type}

/-- A reader takes a step of its call. -/
def readOn (d : Deployment σ) (g : Reading) : Deployment σ × Reading :=
  if g.sighted then
    match (d.population? g.reader.population).bind (·.rows[g.reader.position]?) with
    | some row =>
      (d, { reader := { g.reader with position := g.reader.position + 1 }
            returned := g.returned ++ [row] })
    | none => (d, { g with sighted := false, ended := true })
  else
    match d.look g.reader.population g.reader.position with
    | (d', .row _) => (d', { g with sighted := true, ended := false })
    | (d', .waiting) => (d', { g with ended := false })
    | (d', .ended) => (d', { g with ended := true })

/-- The population was last installed on a run that is there and running. -/
def HasRunningRun (d : Deployment σ) (p : Population) : Prop :=
  ∃ run r, p.run = some run ∧ d.run? run = some r ∧ r.running = true

end Deployment

namespace Audience

variable {σ : Type}

/-- A reader of the number takes a step. -/
def read (a : Audience σ) (number : Nat) : Audience σ :=
  match a.readings[number]? with
  | none => a
  | some g =>
    let next := a.deployment.readOn g
    { deployment := next.1, readings := a.readings.set number next.2 }

/-- A reader of a population is opened, if there is one. -/
def opened (a : Audience σ) (id : PopulationId) : Audience σ :=
  if (a.deployment.population? id).isSome then
    { a with readings := a.readings ++ [{ reader := ⟨id, 0⟩ }] }
  else a

def turn [ResultStore σ] (a : Audience σ) : Turn σ → Audience σ
  | .reads number => a.read number
  | .opens id => a.opened id
  | .other op => { a with deployment := a.deployment.apply op }

/-- What turns make of an audience, one after the other. -/
def after [ResultStore σ] (a : Audience σ) (turns : List (Turn σ)) : Audience σ :=
  turns.foldl turn a

end Audience

/-! ## A step of a reader -/

/-- What a reader has returned are the first rows of the population, as many as it has passed. -/
structure Reading.InStep (g : Reading) (p : Population) : Prop where
  returned_eq : g.returned = p.rows.take g.reader.position
  position_le : g.reader.position ≤ p.rows.length
  sighted_lt : g.sighted = true → g.reader.position < p.rows.length

/-- A population that grows leaves its readers in step with it. -/
theorem Reading.InStep.grows {g : Reading} {p p' : Population} (h : g.InStep p)
    (grows : p.Grows p') : g.InStep p' := by
  obtain ⟨further, rows_eq⟩ := grows.rows_prefix
  have longer := grows.rows_prefix.length_le
  refine ⟨?_, Nat.le_trans h.position_le longer, fun sighted =>
    Nat.lt_of_lt_of_le (h.sighted_lt sighted) longer⟩
  rw [← rows_eq, List.take_append_of_le_length h.position_le]
  exact h.returned_eq

/-- The row that a reader has seen is there. -/
theorem Reading.InStep.at_position {σ : Type} {d : Deployment σ} {g : Reading} {p : Population}
    (inStep : g.InStep p) (sighted : g.sighted = true)
    (here : d.population? g.reader.population = some p) :
    ∃ row, p.rows[g.reader.position]? = some row ∧
      (d.population? g.reader.population).bind (·.rows[g.reader.position]?) = some row := by
  have at_position := List.getElem?_eq_getElem (inStep.sighted_lt sighted)
  refine ⟨_, at_position, ?_⟩
  rw [here]
  exact at_position

namespace Deployment

variable {σ : Type} {d d' : Deployment σ} {id : PopulationId} {p : Population} {g : Reading}

/-- A wait that begins with a row in sight is over. -/
theorem await_of_row {position : Nat} {row : Row} (look : d.look id position = (d', .row row)) :
    d.await id position = (d', some row) := by
  rw [await]
  split <;> rename_i found <;> rw [look] at found <;> cases found
  rfl

/-- A wait that begins when no row will come is over. -/
theorem await_of_ended {position : Nat} (look : d.look id position = (d', .ended)) :
    d.await id position = (d', none) := by
  rw [await]
  split <;> rename_i found <;> rw [look] at found <;> cases found
  rfl

/-- A wait goes on as if it began after its first look. -/
theorem await_of_waiting {position : Nat} (look : d.look id position = (d', .waiting)) :
    d.await id position = d'.await id position := by
  rw [await]
  split <;> rename_i found <;> rw [look] at found <;> cases found
  rfl

/-- The row that was waited for is there when the wait is over. -/
theorem row_of_await {position : Nat} {row : Row}
    (awaits : d.await id position = (d', some row)) :
    (d'.population? id).bind (·.rows[position]?) = some row := by
  induction polls : d.pollsLeft using Nat.strongRecOn generalizing d with
  | ind n ih =>
    rcases look : d.look id position with ⟨next, sight⟩
    cases sight with
    | row row' =>
      rw [await_of_row look] at awaits
      cases awaits
      obtain ⟨rfl, at_position⟩ := row_of_look look
      exact at_position
    | ended =>
      rw [await_of_ended look] at awaits
      cases awaits
    | waiting =>
      rw [await_of_waiting look] at awaits
      have fewer : next.pollsLeft < n := by
        rw [← polls]
        exact pollsLeft_look look
      exact ih _ fewer awaits rfl

/-- A population that is open and not found live has no running run. -/
theorem not_hasRunningRun_of_isLive (here : d.population? id = some p)
    (unresolved : p.phase.isResolved = false) (told : d.isLive id = (d', false)) :
    ¬d'.HasRunningRun p := by
  rintro ⟨run, r, on_run, there, running⟩
  unfold isLive at told
  rw [here] at told
  dsimp only at told
  rw [unresolved, if_neg Bool.false_ne_true, on_run] at told
  dsimp only at told
  unfold ask at told
  cases before : d.run? run with
  | none =>
    rw [before] at told
    cases told
    rw [before] at there
    cases there
  | some r₀ =>
    rw [before] at told
    obtain ⟨rfl, answered⟩ := Prod.mk.inj told
    have same_id (r : Run) : r.ask.1.id = r.id := (Run.keepsTies_ask r).id_eq
    rw [run?_modifyRun_self before same_id] at there
    cases there
    rw [Run.running_ask_of_false answered] at running
    cases running

/-- A reader that has seen a row takes it. -/
theorem readOn_of_sighted (sighted : g.sighted = true) {row : Row}
    (at_position :
      (d.population? g.reader.population).bind (·.rows[g.reader.position]?) = some row) :
    d.readOn g =
      (d, { reader := { g.reader with position := g.reader.position + 1 }
            returned := g.returned ++ [row] }) := by
  unfold readOn
  rw [if_pos sighted, at_position]

/-- A reader that looks and finds a row has seen it, and does not take it yet. -/
theorem readOn_of_row (unsighted : g.sighted = false) {row : Row}
    (look : d.look g.reader.population g.reader.position = (d', .row row)) :
    d.readOn g = (d', { g with sighted := true, ended := false }) := by
  unfold readOn
  rw [unsighted, if_neg Bool.false_ne_true, look]

/-- A reader that looks and finds no row yet is where it was. -/
theorem readOn_of_waiting (unsighted : g.sighted = false)
    (look : d.look g.reader.population g.reader.position = (d', .waiting)) :
    d.readOn g = (d', { g with sighted := false, ended := false }) := by
  unfold readOn
  rw [unsighted, if_neg Bool.false_ne_true, look]

/-- A reader that looks and finds that no row will come has ended its call. -/
theorem readOn_of_ended (unsighted : g.sighted = false)
    (look : d.look g.reader.population g.reader.position = (d', .ended)) :
    d.readOn g = (d', { g with sighted := false, ended := true }) := by
  unfold readOn
  rw [unsighted, if_neg Bool.false_ne_true, look]

/-- A step of a reader asks a run at most, so it leaves all alike that moves are about. -/
theorem readOn_alike (d : Deployment σ) (g : Reading) : d.Alike (d.readOn g).1 := by
  have looks := d.look_alike g.reader.population g.reader.position
  unfold readOn
  split
  · split
    · exact .refl d
    · exact .refl d
  · split <;> rename_i found <;> rw [found] at looks <;> exact looks

/-- A reader stays with its population. -/
theorem population_readOn (d : Deployment σ) (g : Reading) :
    (d.readOn g).2.reader.population = g.reader.population := by
  unfold readOn
  split
  · split <;> rfl
  · split <;> rfl

/-- A step keeps a reader in step with its population. If it returns no row there is none, and none
may come. -/
theorem readOn_inStep (here : d.population? g.reader.population = some p) (consistent : p.Consistent)
    (inStep : g.InStep p) :
    (d.readOn g).2.InStep p ∧
      ((d.readOn g).2.ended = true → (d.readOn g).2.returned = p.rows ∧
        (p.outcome ≠ none ∨ ¬(d.readOn g).1.HasRunningRun p)) := by
  have returned_eq := inStep.returned_eq
  cases sighted : g.sighted with
  | true =>
    obtain ⟨row, at_row, at_position⟩ := inStep.at_position sighted here
    rw [readOn_of_sighted sighted at_position]
    refine ⟨⟨?_, inStep.sighted_lt sighted, fun h => by cases h⟩, fun h => by cases h⟩
    rw [List.take_add_one, at_row, returned_eq]
    rfl
  | false =>
    have all_returned (beyond : p.rows[g.reader.position]? = none) : g.returned = p.rows := by
      rw [returned_eq, List.take_of_length_le (List.getElem?_eq_none_iff.1 beyond)]
    rcases d.look_cases here g.reader.position with
      ⟨row, at_position, look⟩ | ⟨beyond, closed, look⟩ |
      ⟨beyond, still_open, d', ⟨live, look⟩ | ⟨live, look⟩⟩
    · rw [readOn_of_row sighted look]
      have lt := (List.getElem?_eq_some_iff.1 at_position).1
      exact ⟨⟨returned_eq, inStep.position_le, fun _ => lt⟩, fun h => by cases h⟩
    · rw [readOn_of_ended sighted look]
      rw [consistent.closed_eq] at closed
      exact ⟨⟨returned_eq, inStep.position_le, fun h => by cases h⟩, fun _ =>
        ⟨all_returned beyond, .inl (Option.isSome_iff_ne_none.1 closed)⟩⟩
    · rw [readOn_of_waiting sighted look]
      exact ⟨⟨returned_eq, inStep.position_le, fun h => by cases h⟩, fun h => by cases h⟩
    · -- the look that ended here has asked the run itself, after which nothing has happened yet
      rw [readOn_of_ended sighted look]
      have unresolved : p.phase.isResolved = false := by
        rw [consistent.sound.isResolved_eq, ← consistent.closed_eq, still_open]
      exact ⟨⟨returned_eq, inStep.position_le, fun h => by cases h⟩, fun _ =>
        ⟨all_returned beyond, .inr (not_hasRunningRun_of_isLive here unresolved live)⟩⟩

end Deployment

/-! ## Draining -/

/-- The reader has come to its end, or so many of its own steps are enough to get there. -/
def Reading.Drains (g : Reading) (p : Population) (steps : Nat) : Prop :=
  (g.ended = true ∧ g.sighted = false ∧ g.reader.position = p.rows.length) ∨
    -- a row is seen and then taken, and one more look finds that there is none
    2 * (p.rows.length - g.reader.position) + 1 ≤ steps + (if g.sighted then 1 else 0)

/-- A reader that needs no more steps has come to its end with all rows. -/
theorem Reading.Drains.at_end {g : Reading} {p : Population} (drains : g.Drains p 0)
    (inStep : g.InStep p) : g.ended = true ∧ g.returned = p.rows := by
  rcases drains with ⟨ended, -, all⟩ | few
  · refine ⟨ended, ?_⟩
    rw [inStep.returned_eq, all, List.take_length]
  · cases sighted : g.sighted with
    | true =>
      have lt := inStep.sighted_lt sighted
      rw [sighted, if_pos rfl] at few
      omega
    | false =>
      rw [sighted, if_neg Bool.false_ne_true] at few
      omega

/-- How many steps a reader needs depends on the rows of its population alone. -/
theorem Reading.Drains.congr {g : Reading} {p p' : Population} {steps : Nat}
    (drains : g.Drains p steps) (rows_eq : p'.rows = p.rows) : g.Drains p' steps := by
  unfold Reading.Drains at drains ⊢
  rw [rows_eq]
  exact drains

/-- A step of a reader of a population that has resolved brings it nearer to its end. -/
theorem Deployment.readOn_drains {σ : Type} {d : Deployment σ} {p : Population} {g : Reading}
    {steps : Nat} (here : d.population? g.reader.population = some p) (closed : p.closed = true)
    (inStep : g.InStep p) (drains : g.Drains p (steps + 1)) : (d.readOn g).2.Drains p steps := by
  cases sighted : g.sighted with
  | true =>
    obtain ⟨row, -, at_position⟩ := inStep.at_position sighted here
    have lt := inStep.sighted_lt sighted
    rw [readOn_of_sighted sighted at_position]
    rcases drains with ⟨-, unsighted, -⟩ | enough
    · rw [sighted] at unsighted
      cases unsighted
    · rw [sighted, if_pos rfl] at enough
      refine .inr ?_
      dsimp only
      rw [if_neg Bool.false_ne_true]
      omega
  | false =>
    rcases d.look_cases here g.reader.position with
      ⟨row, at_position, look⟩ | ⟨beyond, -, look⟩ | ⟨-, still_open, -⟩
    · have lt := (List.getElem?_eq_some_iff.1 at_position).1
      rw [readOn_of_row sighted look]
      rcases drains with ⟨-, -, all⟩ | enough
      · omega
      · rw [sighted, if_neg Bool.false_ne_true] at enough
        refine .inr ?_
        dsimp only
        rw [if_pos rfl]
        omega
    · have all := Nat.le_antisymm inStep.position_le (List.getElem?_eq_none_iff.1 beyond)
      rw [readOn_of_ended sighted look]
      exact .inl ⟨rfl, rfl, all⟩
    · rw [closed] at still_open
      cases still_open

/-! ## Turn after turn -/

namespace Audience

variable {σ : Type} {a : Audience σ} {number : Nat} {g : Reading} {p : Population}

/-- Populations are in order, and all readers are in step with theirs. -/
structure InOrder (a : Audience σ) : Prop where
  kept : a.deployment.WellKept
  inStep : ∀ g ∈ a.readings,
    ∃ p, a.deployment.population? g.reader.population = some p ∧ g.InStep p

/-- Nobody reads in an empty deployment. -/
theorem inOrder_empty : ({} : Audience σ).InOrder :=
  ⟨Deployment.wellKept_empty, fun g reads => by cases reads⟩

/-- In an audience that is in order a reader is in step with its population. -/
theorem InOrder.inStep_of_found (h : a.InOrder) (found : a.readings[number]? = some g)
    (here : a.deployment.population? g.reader.population = some p) : g.InStep p := by
  obtain ⟨q, here', inStep⟩ := h.inStep g (List.mem_of_getElem? found)
  obtain rfl : p = q := Option.some.inj (here.symm.trans here')
  exact inStep

/-- A turn of a reader is a step of its call, and it leaves the other readers where they are. -/
theorem read_eq (found : a.readings[number]? = some g) :
    a.read number =
      { deployment := (a.deployment.readOn g).1
        readings := a.readings.set number (a.deployment.readOn g).2 } := by
  unfold read
  rw [found]

/-- A turn of a reader leaves all readers in step. -/
theorem InOrder.read (h : a.InOrder) (number : Nat) : (a.read number).InOrder := by
  cases found : a.readings[number]? with
  | none =>
    unfold Audience.read
    rw [found]
    exact h
  | some g =>
    have alike := a.deployment.readOn_alike g
    have steps : a.deployment.Changes [] (a.deployment.readOn g).1 := .moves (.alike alike)
    rw [read_eq found]
    refine ⟨steps.wellKept h.kept, fun g' reads => ?_⟩
    show ∃ p, (a.deployment.readOn g).1.population? _ = some p ∧ _
    rw [alike.population?_eq]
    rcases List.mem_or_eq_of_mem_set reads with other | rfl
    · exact h.inStep g' other
    · obtain ⟨p, here, inStep⟩ := h.inStep g (List.mem_of_getElem? found)
      rw [Deployment.population_readOn]
      exact ⟨p, here, (Deployment.readOn_inStep here (h.kept.consistent _ p here) inStep).1⟩

/-- A reader that is opened is in step, as it has returned nothing yet. -/
theorem InOrder.opened (h : a.InOrder) (id : PopulationId) : (a.opened id).InOrder := by
  unfold Audience.opened
  cases here : a.deployment.population? id with
  | none => exact h
  | some p =>
    refine ⟨h.kept, fun g reads => ?_⟩
    rcases List.mem_append.1 reads with before | now
    · exact h.inStep g before
    · rw [List.mem_singleton.1 now]
      exact ⟨p, here, rfl, Nat.zero_le _, fun sighted => by cases sighted⟩

variable [ResultStore σ]

/-- Any turn leaves all readers in step, those of populations that grow in it included. -/
theorem InOrder.turn (h : a.InOrder) (t : Turn σ) : (a.turn t).InOrder := by
  cases t with
  | reads number => exact h.read number
  | opens id => exact h.opened id
  | other op =>
    have change := a.deployment.apply_changes op
    refine ⟨change.wellKept h.kept, fun g reads => ?_⟩
    obtain ⟨p, here, inStep⟩ := h.inStep g reads
    obtain ⟨p', here', grows⟩ := change.exists_grows h.kept here
    exact ⟨p', here', inStep.grows grows⟩

/-- In all courses of turns all readers are in step. -/
theorem InOrder.after (h : a.InOrder) (turns : List (Turn σ)) : (a.after turns).InOrder := by
  induction turns generalizing a with
  | nil => exact h
  | cons t turns ih => exact ih (h.turn t)

/-- A population grows in any turn, whoever takes it. -/
theorem exists_grows_turn (h : a.InOrder) {id : PopulationId}
    (here : a.deployment.population? id = some p) (t : Turn σ) :
    ∃ p', (a.turn t).deployment.population? id = some p' ∧ p.Grows p' := by
  cases t with
  | reads number =>
    show ∃ p', (a.read number).deployment.population? id = some p' ∧ _
    cases found : a.readings[number]? with
    | none =>
      unfold Audience.read
      rw [found]
      exact ⟨p, here, .refl p⟩
    | some g =>
      rw [read_eq found]
      exact ⟨p, ((a.deployment.readOn_alike g).population?_eq id).trans here, .refl p⟩
  | opens j =>
    have same : (a.opened j).deployment = a.deployment := by
      unfold Audience.opened
      split <;> rfl
    refine ⟨p, ?_, .refl p⟩
    show (a.opened j).deployment.population? id = some p
    rw [same]
    exact here
  | other op => exact (a.deployment.apply_changes op).exists_grows h.kept here

/-- A turn lets one reader take a step at most. -/
theorem reading_turn (found : a.readings[number]? = some g) (t : Turn σ) :
    (a.turn t).readings[number]? =
      some (if t.isOf number then (a.deployment.readOn g).2 else g) := by
  have within := (List.getElem?_eq_some_iff.1 found).1
  cases t with
  | reads i =>
    show (a.read i).readings[number]? = _
    by_cases own : i = number
    · rw [own, read_eq found, List.getElem?_set_self within]
      simp [Turn.isOf]
    · have other : (a.read i).readings[number]? = a.readings[number]? := by
        unfold Audience.read
        split
        · rfl
        · exact List.getElem?_set_ne own
      simp [other, found, Turn.isOf, own]
  | opens id =>
    show (a.opened id).readings[number]? = _
    unfold Audience.opened
    split
    · exact (List.getElem?_append_left within).trans found
    · exact found
  | other op => exact found

/-! ## Calls that nothing interrupts -/

/-- The first one of equal turns comes before all the others. -/
theorem after_replicate_succ (a : Audience σ) (steps : Nat) (t : Turn σ) :
    a.after (List.replicate (steps + 1) t) = (a.turn t).after (List.replicate steps t) := rfl

/-- The last one of equal turns comes after all the others. -/
theorem after_replicate_succ_eq_turn (a : Audience σ) (steps : Nat) (t : Turn σ) :
    a.after (List.replicate (steps + 1) t) = (a.after (List.replicate steps t)).turn t := by
  rw [List.replicate_succ', Audience.after, List.foldl_append]
  rfl

/-- A reader that takes one step after the other finds out whether there is a next row. -/
theorem after_reads_eq_hasMore (found : a.readings[number]? = some g)
    (unsighted : g.sighted = false) :
    ∃ steps, a.after (List.replicate steps (.reads number)) =
      { deployment := (a.deployment.hasMore g.reader).1
        readings := a.readings.set number
          { g with sighted := (a.deployment.hasMore g.reader).2
                   ended := !(a.deployment.hasMore g.reader).2 } } := by
  -- a look that has to wait uses up a poll
  induction polls : a.deployment.pollsLeft using Nat.strongRecOn generalizing a g with
  | ind n ih =>
    have step : a.turn (.reads number) =
        { deployment := (a.deployment.readOn g).1
          readings := a.readings.set number (a.deployment.readOn g).2 } := read_eq found
    have within := (List.getElem?_eq_some_iff.1 found).1
    unfold Deployment.hasMore
    rcases look : a.deployment.look g.reader.population g.reader.position with ⟨d', sight⟩
    cases sight with
    | row row =>
      refine ⟨1, ?_⟩
      rw [after_replicate_succ, step, Deployment.readOn_of_row unsighted look,
        Deployment.await_of_row look]
      rfl
    | ended =>
      refine ⟨1, ?_⟩
      rw [after_replicate_succ, step, Deployment.readOn_of_ended unsighted look,
        Deployment.await_of_ended look]
      rfl
    | waiting =>
      let waits : Audience σ :=
        { deployment := d'
          readings := a.readings.set number { g with sighted := false, ended := false } }
      have found' : waits.readings[number]? = some { g with sighted := false, ended := false } :=
        List.getElem?_set_self within
      have fewer : d'.pollsLeft < n := by
        rw [← polls]
        exact Deployment.pollsLeft_look look
      obtain ⟨steps, rest⟩ := ih _ fewer found' rfl rfl
      refine ⟨steps + 1, ?_⟩
      rw [after_replicate_succ, step, Deployment.readOn_of_waiting unsighted look,
        Deployment.await_of_waiting look]
      show waits.after _ = _
      rw [rest]
      show Audience.mk _ ((a.readings.set number _).set number _) = _
      rw [List.set_set]
      rfl

/-- A reader that takes one step after the other makes the call for the next row: it finds out
whether there is one, and if there is it takes it in one step more. -/
theorem after_reads_eq_next (found : a.readings[number]? = some g) (unsighted : g.sighted = false) :
    ∃ steps, a.after (List.replicate steps (.reads number)) =
      { deployment := (a.deployment.next g.reader).1
        readings := a.readings.set number
          { reader := (a.deployment.next g.reader).2.1
            returned := g.returned ++ (a.deployment.next g.reader).2.2.toList
            ended := (a.deployment.next g.reader).2.2.isNone } } := by
  obtain ⟨steps, asked⟩ := after_reads_eq_hasMore found unsighted
  have within := (List.getElem?_eq_some_iff.1 found).1
  unfold Deployment.hasMore at asked
  unfold Deployment.next
  rcases awaits : a.deployment.await g.reader.population g.reader.position with ⟨d', row?⟩
  rw [awaits] at asked
  cases row? with
  | none =>
    refine ⟨steps, asked.trans ?_⟩
    show Audience.mk _ _ = _
    dsimp only [Option.toList]
    rw [List.append_nil]
    rfl
  | some row =>
    let sighted : Reading := { g with sighted := true, ended := false }
    have at_position := Deployment.row_of_await awaits
    have taken := Deployment.readOn_of_sighted (d := d') (g := sighted) rfl at_position
    have found' : (a.after (List.replicate steps (.reads number))).readings[number]? =
        some sighted := by
      rw [asked]
      exact List.getElem?_set_self within
    refine ⟨steps + 1, ?_⟩
    rw [after_replicate_succ_eq_turn]
    refine (read_eq found').trans ?_
    rw [asked]
    dsimp only [Option.isSome]
    rw [taken, List.set_set]
    rfl

/-! ## Whole courses -/

/-- A reader of a population that has resolved comes to its end if it is given steps enough. -/
theorem InOrder.drained (h : a.InOrder) (found : a.readings[number]? = some g)
    (here : a.deployment.population? g.reader.population = some p) (resolved : p.outcome ≠ none)
    {turns : List (Turn σ)} (drains : g.Drains p (turns.countP (·.isOf number))) :
    ∃ g', (a.after turns).readings[number]? = some g' ∧ g'.ended = true ∧ g'.returned = p.rows := by
  induction turns generalizing a g p with
  | nil => exact ⟨g, found, drains.at_end (h.inStep_of_found found here)⟩
  | cons t turns ih =>
    obtain ⟨p', here', grows⟩ := exists_grows_turn h here t
    obtain ⟨-, rows_eq, -, outcome_eq⟩ := grows.final resolved
    have resolved' : p'.outcome ≠ none := by rwa [outcome_eq]
    have found' := reading_turn found t
    rw [List.countP_cons] at drains
    cases own : t.isOf number with
    | true =>
      have closed : p.closed = true := by
        rw [(h.kept.consistent _ p here).closed_eq]
        exact Option.isSome_iff_ne_none.2 resolved
      rw [own, if_pos rfl] at found' drains
      have inStep := h.inStep_of_found found here
      have drains' := Deployment.readOn_drains here closed inStep drains
      rw [← a.deployment.population_readOn g] at here'
      have drained := ih (h.turn t) found' here' resolved' (drains'.congr rows_eq)
      rwa [rows_eq] at drained
    | false =>
      rw [own, if_neg Bool.false_ne_true] at found' drains
      have drained := ih (h.turn t) found' here' resolved' (drains.congr rows_eq)
      rwa [rows_eq] at drained

/-- **Readers see every row once, in order.** Whatever comes between their steps, the rows that a
reader has returned are the first rows of its population, as many as it has passed. A call returns
no row only when all rows captured so far were returned, and the population has resolved or has no
running run; these are the rows of its result, if it has one. And once it has one, the reader comes
to its end if it is given steps enough. The steps of a reader that nothing comes between are the
question whether there is a next row, and then the call for it. -/
theorem readers_see_every_row_once (turns : List (Turn σ))
    (found : (({} : Audience σ).after turns).readings[number]? = some g) :
    let a := ({} : Audience σ).after turns
    ∃ p, a.deployment.population? g.reader.population = some p ∧
      g.returned = p.rows.take g.reader.position ∧ g.returned.length = g.reader.position ∧
      (∀ g', (a.turn (.reads number)).readings[number]? = some g' → g'.ended = true →
        g'.returned = p.rows ∧
        (p.outcome ≠ none ∨ ¬(a.turn (.reads number)).deployment.HasRunningRun p) ∧
        ∀ result, p.outcome = some (.ok result) → g'.returned = result.rows) ∧
      (∀ result, p.outcome = some (.ok result) → ∀ later : List (Turn σ),
        2 * p.rows.length < later.countP (·.isOf number) →
        ∃ g', (a.after later).readings[number]? = some g' ∧ g'.ended = true ∧
          g'.returned = result.rows) ∧
      (g.sighted = false →
        (∃ steps, a.after (List.replicate steps (.reads number)) =
          { deployment := (a.deployment.hasMore g.reader).1
            readings := a.readings.set number
              { g with sighted := (a.deployment.hasMore g.reader).2
                       ended := !(a.deployment.hasMore g.reader).2 } }) ∧
        ∃ steps, a.after (List.replicate steps (.reads number)) =
          { deployment := (a.deployment.next g.reader).1
            readings := a.readings.set number
              { reader := (a.deployment.next g.reader).2.1
                returned := g.returned ++ (a.deployment.next g.reader).2.2.toList
                ended := (a.deployment.next g.reader).2.2.isNone } }) := by
  intro a
  have inOrder : a.InOrder := inOrder_empty.after turns
  obtain ⟨p, here, inStep⟩ := inOrder.inStep g (List.mem_of_getElem? found)
  have consistent := inOrder.kept.consistent _ p here
  refine ⟨p, here, inStep.returned_eq, ?_, ?_, ?_, fun unsighted =>
    ⟨after_reads_eq_hasMore found unsighted, after_reads_eq_next found unsighted⟩⟩
  · rw [inStep.returned_eq, List.length_take, Nat.min_eq_left inStep.position_le]
  · intro g' found' ended
    have own : (Turn.reads number : Turn σ).isOf number = true := by simp [Turn.isOf]
    have read_deployment : (a.turn (.reads number)).deployment = (a.deployment.readOn g).1 := by
      show (a.read number).deployment = _
      rw [read_eq found]
    rw [reading_turn found, if_pos own] at found'
    cases found'
    obtain ⟨-, all⟩ := Deployment.readOn_inStep here consistent inStep
    obtain ⟨returned_eq, no_more⟩ := all ended
    rw [read_deployment]
    refine ⟨returned_eq, no_more, fun result ok => ?_⟩
    rw [returned_eq, consistent.rows_eq result ok]
  · intro result ok later enough
    have resolved : p.outcome ≠ none := by
      rw [ok]
      exact Option.some_ne_none _
    have drains : g.Drains p (later.countP (·.isOf number)) := .inr (by omega)
    rw [consistent.rows_eq result ok]
    exact inOrder.drained found here resolved drains

/-- A reader that was opened before its population had started has returned one row of two when the
run comes to its end. -/
def growingCapture : List (Turn KeyedMap) :=
  [.other (.addRun "run" [("out", ["n"])] [] 3 []),
    .other (.addPopulation "population" { pipelineVersion := 7 } { fingerprint := some 7 } "out"),
    .other (.install ⟨1⟩ ⟨"run", 0⟩),
    .opens ⟨1⟩,
    .reads 0,
    .other (.engine (.start "run")),
    .other (.engine (.emit "run" "out" [.integer 1])),
    .reads 0,
    .other (.engine (.emit "run" "out" [.integer 2])),
    .reads 0,
    .other (.engine (.finish "run" "out" [] false))]

/-- It returns the other row and comes to its end. -/
theorem readers_see_growing_capture :
    let a := ({} : Audience KeyedMap).after growingCapture
    ∃ g g', a.readings[0]? = some g ∧ g.returned.length = 1 ∧
      (a.after (List.replicate 5 (.reads 0))).readings[0]? = some g' ∧ g'.ended = true ∧
      g'.returned.length = 2 := by
  intro a
  obtain ⟨g, found⟩ : ∃ g, a.readings[0]? = some g := ⟨_, rfl⟩
  obtain ⟨p, here, -, length_eq, -, drained, -⟩ := readers_see_every_row_once growingCapture found
  cases found
  cases here
  obtain ⟨g', found', ended, returned_eq⟩ :=
    drained _ rfl (List.replicate 5 (.reads 0)) (by decide)
  refine ⟨_, g', rfl, length_eq, found', ended, ?_⟩
  rw [returned_eq]
  rfl

end Audience

end DataService
