import DataService.Model.Document.Record

/-!
# Settings

The settings of a service. All of them have defaults, so that an empty document is a document of
settings. Waiting times are given in milliseconds; polling and offering a row wait for one
millisecond at least.
-/

set_option autoImplicit false

namespace DataService

/-- The settings of a service. -/
structure Settings where
  /-- What the name of a service's cache begins with. -/
  cacheNameStart : String := "dataservice_cache_"
  /-- How long a reader without rows waits before it looks again. -/
  pollInterval : UInt64 := 50
  /-- How long a replay waits for one row to be accepted. -/
  putTimeout : UInt64 := 50
  /-- How long a replay waits for a population to start. -/
  startupTimeout : UInt64 := 30000
  /-- The number of results a store in memory keeps in each cache. -/
  maxEntriesPerCache : UInt64 := 1000
  deriving DecidableEq, Repr, Inhabited

namespace Settings

/-- A waiting time of at least one millisecond. -/
def atLeastOne (milliseconds : UInt64) : UInt64 := max 1 milliseconds

/-- The time between two looks of a reader. -/
def effectivePollInterval (s : Settings) : UInt64 := atLeastOne s.pollInterval

/-- The time for which a row is offered. -/
def effectivePutTimeout (s : Settings) : UInt64 := atLeastOne s.putTimeout

/-- Reads settings. -/
def ofDocument? (d : Document) : Option Settings := do
  let standard : Settings := {}
  match (← d.fields? ["cache_name_prefix", "poll_interval_ms", "replay_put_timeout_ms",
      "replay_startup_timeout_ms", "max_entries_per_cache"]).values with
  | [start, poll, put, startup, entries] =>
    return {
      cacheNameStart := ← Document.defaulting standard.cacheNameStart Document.text? start
      pollInterval := ← Document.defaulting standard.pollInterval Document.uint64? poll
      putTimeout := ← Document.defaulting standard.putTimeout Document.uint64? put
      startupTimeout := ← Document.defaulting standard.startupTimeout Document.uint64? startup
      maxEntriesPerCache :=
        ← Document.defaulting standard.maxEntriesPerCache Document.uint64? entries }
  | _ => none

end Settings

end DataService
