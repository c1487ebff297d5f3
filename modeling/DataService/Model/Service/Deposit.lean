import DataService.Model.Store.Interface

/-!
# Depositing a result

A complete result goes under the key without an order, where look-ups for every order find it, and
whatever sits under the exact key, which is looked at first, is dropped. A bounded result goes
under the exact key, unless a complete one on the way of a look-up already answers more.
-/

set_option autoImplicit false

namespace DataService

universe u

variable {σ : Type u} [ResultStore σ]

namespace Watched

/-- Deposits a complete result. When it cannot be kept, nothing is dropped for it. -/
def depositComplete (w : Watched σ) (cache : String) (key : CacheKey) (result : CachedResult) :
    Watched σ :=
  match w.put cache key.withoutOrder result with
  | (w', .error _) => w'
  | (w', .ok _) => if key = key.withoutOrder then w' else (w'.evict cache key).1

/-- Looks through the keys for an entry that a result may not take the place of, and stops at the
first one. A look-up that fails is passed over. -/
def findSuperior (w : Watched σ) (cache : String) (result : CachedResult) :
    List CacheKey → Watched σ × Bool
  | [] => (w, false)
  | key :: rest =>
    match w.get cache key with
    | (w', .ok (some existing)) =>
      if result.supersedes existing then w'.findSuperior cache result rest else (w', true)
    | (w', _) => w'.findSuperior cache result rest

/-- Deposits a bounded result. -/
def depositBounded (w : Watched σ) (cache : String) (key : CacheKey) (result : CachedResult) :
    Watched σ :=
  match w.findSuperior cache result key.lookupOrder with
  | (w', true) => w'
  | (w', false) => (w'.put cache key result).1

/-- Deposits the result of a population that has the given exact key. -/
def deposit (w : Watched σ) (cache : String) (key : CacheKey) (result : CachedResult) : Watched σ :=
  if result.isComplete then w.depositComplete cache key result
  else w.depositBounded cache key result

end Watched

end DataService
