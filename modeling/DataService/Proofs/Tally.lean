/-!
# Tallies

A tally adds up a measure of what comes to a system, one thing after the other, each taken in the
state that it finds. It is how counters that a system keeps are compared with what happened to it.
-/

set_option autoImplicit false

namespace DataService

universe u v

variable {S : Type u} {I : Type v}

/-- A measure of inputs, added up along them, each in the state that it finds. -/
def tally (step : S → I → S) (measure : S → I → Nat) : S → List I → Nat
  | _, [] => 0
  | s, i :: rest => measure s i + tally step measure (step s i) rest

/-- The tally of inputs that come later goes on from the state which the others have led to. -/
theorem tally_append (step : S → I → S) (measure : S → I → Nat) (s : S) (inputs later : List I) :
    tally step measure s (inputs ++ later) =
      tally step measure s inputs + tally step measure (inputs.foldl step s) later := by
  induction inputs generalizing s with
  | nil => exact (Nat.zero_add _).symm
  | cons i rest ih => rw [List.cons_append, tally, tally, ih, Nat.add_assoc, List.foldl_cons]

/-- A tally depends on what is measured at each input. -/
theorem tally_congr {step : S → I → S} {measure measure' : S → I → Nat}
    (same : ∀ s i, measure s i = measure' s i) (s : S) (inputs : List I) :
    tally step measure s inputs = tally step measure' s inputs := by
  induction inputs generalizing s with
  | nil => rfl
  | cons i rest ih => rw [tally, tally, same, ih]

/-- The tally of a sum is the sum of the tallies. -/
theorem tally_add (step : S → I → S) (measure measure' : S → I → Nat) (s : S) (inputs : List I) :
    tally step (fun s i => measure s i + measure' s i) s inputs =
      tally step measure s inputs + tally step measure' s inputs := by
  induction inputs generalizing s with
  | nil => rfl
  | cons i rest ih => rw [tally, tally, tally, ih, Nat.add_add_add_comm]

theorem tally_zero (step : S → I → S) (s : S) (inputs : List I) :
    tally step (fun _ _ => 0) s inputs = 0 := by
  induction inputs generalizing s with
  | nil => rfl
  | cons i rest ih => rw [tally, ih]

end DataService
