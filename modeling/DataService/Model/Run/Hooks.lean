/-!
# Lifecycle hooks of a run

Two things hang on a run. One population at a time may own it: the first owner to claim a run keeps
it, and may claim it again. And callbacks wait for the run to become ready: those registered before
run in their order when it does, a later one runs at once, and becoming ready a second time runs
nothing.

Callbacks are data. An operation that makes some of them run hands them out, and whoever called it
runs them.
-/

set_option autoImplicit false

namespace DataService

universe u v

/-- The hooks of a run, with owners in `ω` and callbacks in `κ`. -/
structure Hooks (ω : Type u) (κ : Type v) where
  owner : Option ω := none
  /-- The callbacks that wait for the run to become ready, in the order of registration. -/
  waiting : List κ := []
  ready : Bool := false

namespace Hooks

variable {ω : Type u} {κ : Type v}

instance : Inhabited (Hooks ω κ) := ⟨{}⟩

/-- Claims the run for an owner, or names the owner that it has. -/
def claim [DecidableEq ω] (h : Hooks ω κ) (owner : ω) : Except ω (Hooks ω κ) :=
  match h.owner with
  | some holder => if holder = owner then .ok h else .error holder
  | none => .ok { h with owner := some owner }

/-- Registers a callback. It waits unless the run is ready; then it is to be run now. -/
def onReady (h : Hooks ω κ) (callback : κ) : Hooks ω κ × Option κ :=
  if h.ready then (h, some callback)
  else ({ h with waiting := h.waiting ++ [callback] }, none)

/-- Marks the run as ready. The callbacks handed out are to be run now, in their order. -/
def fire (h : Hooks ω κ) : Hooks ω κ × List κ :=
  if h.ready then (h, []) else ({ h with waiting := [], ready := true }, h.waiting)

end Hooks

end DataService
