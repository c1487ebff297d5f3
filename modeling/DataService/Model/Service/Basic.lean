import DataService.Model.Identity
import DataService.Model.Service.Definition
import DataService.Model.Service.Settings

/-!
# Services

A service is a definition at work: it has settings, keeps its results in a store and notes its
populations in flight on a board, and may share both with other services.
-/

set_option autoImplicit false

namespace DataService

/-- A service. -/
structure Service where
  definition : Definition
  settings : Settings
  store : StoreId
  board : BoardId
  deriving Inhabited

namespace Service

/-- The name of a service. -/
def name (s : Service) : String := s.definition.name

/-- The cache that holds the results of the service under all keys. -/
def cacheName (s : Service) : String := s.settings.cacheNameStart ++ s.name

end Service

end DataService
