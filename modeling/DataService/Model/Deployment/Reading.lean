import DataService.Model.Deployment.Polls

/-!
# Reading along

Readers go through the rows of a population while it still grows. A reader that has seen all rows
waits for the next one as long as the population is open and its run is found running; each look
at the run uses up one of its polls, and `pollsLeft` counts what is left of them, so that every
wait comes to an end.
-/

set_option autoImplicit false

namespace DataService

namespace Deployment

variable {σ : Type}

/-- Whether rows may still come to a population: it has not resolved, and the run it was last
installed on is running. -/
def isLive (d : Deployment σ) (id : PopulationId) : Deployment σ × Bool :=
  match d.population? id with
  | none => (d, false)
  | some p =>
    if p.phase.isResolved then (d, false)
    else
      match p.run with
      | none => (d, false)
      | some run => d.ask run

/-- What a reader finds at a position. -/
inductive Sight where
  | row (row : Row)
  /-- No row is there yet, and one may still come. -/
  | waiting
  /-- No row will come. -/
  | ended

/-- Looks for the row of a population at a position. -/
def look (d : Deployment σ) (id : PopulationId) (position : Nat) : Deployment σ × Sight :=
  match d.population? id with
  | none => (d, .ended)
  | some p =>
    match p.rows[position]? with
    | some row => (d, .row row)
    | none =>
      if p.closed then (d, .ended)
      else
        match d.isLive id with
        | (d', true) => (d', .waiting)
        | (d', false) => (d', .ended)

/-- A population that is found live costs a poll. -/
theorem pollsLeft_isLive {d d' : Deployment σ} {id : PopulationId}
    (h : d.isLive id = (d', true)) : d'.pollsLeft < d.pollsLeft := by
  unfold isLive at h
  split at h
  · simp at h
  · split at h
    · simp at h
    · split at h
      · simp at h
      · exact pollsLeft_ask h

/-- Finding out whether a population is live adds no polls. -/
theorem pollsLeft_isLive_le (d : Deployment σ) (id : PopulationId) :
    (d.isLive id).1.pollsLeft ≤ d.pollsLeft := by
  unfold isLive
  split
  · exact Nat.le_refl _
  · split
    · exact Nat.le_refl _
    · split
      · exact Nat.le_refl _
      · exact pollsLeft_ask_le ..

/-- Looking for a row adds no polls. -/
theorem pollsLeft_look_le (d : Deployment σ) (id : PopulationId) (position : Nat) :
    (d.look id position).1.pollsLeft ≤ d.pollsLeft := by
  have hlive := d.pollsLeft_isLive_le id
  unfold look
  split
  · exact Nat.le_refl _
  · split
    · exact Nat.le_refl _
    · split
      · exact Nat.le_refl _
      · split <;> rename_i d' heq <;> rw [heq] at hlive <;> exact hlive

/-- A reader that has to wait has cost a poll. -/
theorem pollsLeft_look {d d' : Deployment σ} {id : PopulationId} {position : Nat}
    (h : d.look id position = (d', .waiting)) : d'.pollsLeft < d.pollsLeft := by
  unfold look at h
  split at h
  · simp at h
  · split at h
    · simp at h
    · split at h
      · simp at h
      · split at h
        · rename_i hlive
          obtain rfl : _ = d' := (Prod.mk.inj h).1
          exact pollsLeft_isLive hlive
        · simp at h

/-- Waits for the row of a population at a position. -/
def await (d : Deployment σ) (id : PopulationId) (position : Nat) : Deployment σ × Option Row :=
  match _h : d.look id position with
  | (d', .row row) => (d', some row)
  | (d', .ended) => (d', none)
  | (d', .waiting) => d'.await id position
termination_by d.pollsLeft
decreasing_by exact pollsLeft_look _h

end Deployment

/-- A reader of a population. -/
structure Reader where
  population : PopulationId
  /-- The number of rows that the reader has passed. -/
  position : Nat := 0
  deriving DecidableEq, Repr, Inhabited

namespace Deployment

variable {σ : Type}

/-- Whether there is a row for the reader, after waiting for it if need be. -/
def hasMore (d : Deployment σ) (r : Reader) : Deployment σ × Bool :=
  let (d', row) := d.await r.population r.position
  (d', row.isSome)

/-- The next row of the reader. -/
def next (d : Deployment σ) (r : Reader) : Deployment σ × Reader × Option Row :=
  match d.await r.population r.position with
  | (d', some row) => (d', { r with position := r.position + 1 }, some row)
  | (d', none) => (d', r, none)

/-- The next rows of the reader, up to a number of them. -/
def nextRows (d : Deployment σ) (r : Reader) : Nat → Deployment σ × List Row
  | 0 => (d, [])
  | n + 1 =>
    match d.next r with
    | (d', _, none) => (d', [])
    | (d', r', some row) =>
      let (last, rows) := d'.nextRows r' n
      (last, row :: rows)

/-- All rows that a new reader of a population gets. The population does not grow while the reader
is at it, so that there is one look more than there are rows. -/
def allRows (d : Deployment σ) (id : PopulationId) : Deployment σ × List Row :=
  d.nextRows ⟨id, 0⟩ (((d.population? id).map (·.rows.length)).getD 0 + 1)

end Deployment

end DataService
