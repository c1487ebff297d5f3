import DataService.Model.Row

/-!
# Failures

Why caching, population or replay failed, and how each failure is worded. A fatal failure ends the
query; every other one costs it no more than the cache.
-/

set_option autoImplicit false

namespace DataService

/-- Why a store could not be used. -/
inductive StoreFault where
  /-- The store has no cache of this name. -/
  | unknownCache (cache : String)
  /-- The store itself failed. -/
  | backend (reason : String)
  deriving DecidableEq, Repr

/-- The wording of a store's fault. -/
def StoreFault.message : StoreFault → String
  | .unknownCache cache => "Cache '" ++ cache ++ "' not found"
  | .backend reason => "Storage backend error: " ++ reason

/-- What is missing in a query, a run or a service. -/
inductive Misconfiguration where
  /-- The query's pipeline has no fingerprint. -/
  | noFingerprint
  /-- The run has no output step of this name. -/
  | noOutputStep (step : String)
  /-- The run has no injection step of this name. -/
  | noInjectionStep (step : String)
  /-- The service has no result cache. -/
  | noResultCache (service : String)
  /-- A reason given in words. -/
  | stated (reason : String)
  deriving DecidableEq, Repr

/-- The wording of a misconfiguration. -/
def Misconfiguration.message : Misconfiguration → String
  | .noFingerprint => "pipeline fingerprint unavailable"
  | .noOutputStep step => "output step '" ++ step ++ "' not found"
  | .noInjectionStep step => "injection step '" ++ step ++ "' not found"
  | .noResultCache service => "service '" ++ service ++ "' has no result cache"
  | .stated reason => reason

/-- What was waited for in vain. -/
inductive Awaited where
  /-- The start of a population. -/
  | start (population : String)
  /-- Something given in words. -/
  | stated (what : String)
  deriving DecidableEq, Repr

/-- The wording of what was waited for. -/
def Awaited.message : Awaited → String
  | .start population => "population " ++ population ++ " to start"
  | .stated what => what

/-- Why caching, population or replay failed. -/
inductive Failure where
  | configuration (cause : Misconfiguration)
  /-- Another population owns the run. -/
  | alreadyTracked (owner : String)
  /-- A row could not be taken over. -/
  | rowConversion (step : String) (fault : RowFault)
  /-- Something did not happen in time. -/
  | timeout (awaited : Awaited) (milliseconds : UInt64)
  /-- The run reported errors. -/
  | populationFailed (reasons : List String)
  | store (fault : StoreFault)
  deriving DecidableEq, Repr

namespace Failure

/-- The wording of a failure. -/
def message : Failure → String
  | .configuration cause => "configuration error: " ++ cause.message
  | .alreadyTracked owner => "run is already tracked by population " ++ owner
  | .rowConversion step fault =>
    "row conversion failed on step '" ++ step ++ "': " ++ fault.message
  | .timeout awaited ms =>
    "timed out after " ++ toString ms.toNat ++ "ms waiting for " ++ awaited.message
  | .populationFailed reasons => "population failed: " ++ String.intercalate "; " reasons
  | .store fault => fault.message

/-- Whether the failure ends the query. -/
def isFatal : Failure → Bool
  | .configuration _ | .timeout _ _ => true
  | _ => false

end Failure

end DataService
