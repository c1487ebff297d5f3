import DataService.Model.Metrics
import DataService.Model.Service.Basic
import DataService.Model.Store.Interface

/-!
# Looking up a query

A look-up goes through the keys of a query, the most specific first, and stops at the first entry.
If that entry cannot answer the query the look-up fails to find one: looser keys are not tried
after it. A store that fails is taken for one without an entry.
-/

set_option autoImplicit false

namespace DataService

universe u

variable {σ : Type u} [ResultStore σ]

/-- What a look-up came to. -/
structure LookupAnswer where
  /-- How the look-up is counted. -/
  outcome : LookupOutcome
  result : Option CachedResult

/-- What an entry found on the way, or none, is worth to a query. -/
def LookupAnswer.ofEntry (q : Query) : Option (CacheKey × CachedResult) → LookupAnswer
  | none => ⟨.miss, none⟩
  | some (_, result) => if result.answers q then ⟨.hit, some result⟩ else ⟨.insufficient, none⟩

/-- The entry in an answer of the store; a fault counts as no entry. -/
def entryOf {α : Type} : Except StoreFault (Option α) → Option α
  | .ok entry => entry
  | .error _ => none

/-- Looks up a query in the cache of a service. A service that keeps no results has no answer. -/
def Service.lookup (s : Service) (q : Query) (w : Watched σ) :
    Watched σ × Except Failure (Option LookupAnswer) :=
  match s.definition.resultCache? with
  | none => (w, .ok none)
  | some _ =>
    match CacheKey.ofQuery q with
    | .error failure => (w, .error failure)
    | .ok key =>
      let (w', found) := w.getFirst s.cacheName key.lookupOrder
      (w', .ok (some (.ofEntry q (entryOf found))))

end DataService
