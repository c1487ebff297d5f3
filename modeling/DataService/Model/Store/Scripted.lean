import DataService.Model.Store.Interface

/-!
# Stores that fail on cue

A scripted store stands in front of another one and lets chosen calls fail. Each kind of call has
its own list of outcomes, of which every call takes the next; a call for which none is left works.
A call that fails does not reach the store behind.
-/

set_option autoImplicit false

namespace DataService

universe u

/-- How a call is made to fail. -/
inductive ScriptedFault where
  /-- The cache is unknown. -/
  | unknownCache
  /-- The store fails for a reason. -/
  | backend (reason : String)
  deriving DecidableEq, Repr

/-- The fault that a call on a cache reports. -/
def ScriptedFault.on (cache : String) : ScriptedFault → StoreFault
  | .unknownCache => .unknownCache cache
  | .backend reason => .backend reason

/-- A store with scripted outcomes in front of it; `none` lets a call through. -/
structure ScriptedStore (σ : Type u) where
  inner : σ
  gets : List (Option ScriptedFault) := []
  puts : List (Option ScriptedFault) := []
  evicts : List (Option ScriptedFault) := []

namespace ScriptedStore

variable {σ : Type u}

/-- The next outcome of a script, if it is a fault. -/
def next (script : List (Option ScriptedFault)) : Option ScriptedFault := script.head?.join

/-- The outcome of a call that has the given fault in its way, on the store behind it. -/
def through {α : Type} (s : ScriptedStore σ) (cache : String) (fault : Option ScriptedFault)
    (call : σ → σ × Except StoreFault α) : ScriptedStore σ × Except StoreFault α :=
  match fault with
  | some f => (s, .error (f.on cache))
  | none => ({ s with inner := (call s.inner).1 }, (call s.inner).2)

instance [ResultStore σ] : ResultStore (ScriptedStore σ) where
  get s cache key :=
    { s with gets := s.gets.tail }.through cache (next s.gets) (ResultStore.get · cache key)
  put s cache key result :=
    { s with puts := s.puts.tail }.through cache (next s.puts) (ResultStore.put · cache key result)
  evict s cache key :=
    { s with evicts := s.evicts.tail }.through cache (next s.evicts)
      (ResultStore.evict · cache key)

/-- Adds outcomes at the end of the scripts. -/
def script (s : ScriptedStore σ) (gets puts evicts : List (Option ScriptedFault)) :
    ScriptedStore σ :=
  { s with gets := s.gets ++ gets, puts := s.puts ++ puts, evicts := s.evicts ++ evicts }

end ScriptedStore

end DataService
