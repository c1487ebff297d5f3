import DataService.Model.Cache.Rank
import DataService.Model.Row

/-!
# Cached results

A cached result is a list of rows together with the two bounds under which they were captured. A
result without bounds is complete and answers every query of its key. A bounded one answers the
queries that neither aggregate nor need more rows than its bounds allow.
-/

set_option autoImplicit false

namespace DataService

/-- A captured result. -/
structure CachedResult where
  rows : List Row
  /-- The bound on the output rows of the capture. -/
  rowRank : Option UInt64
  /-- The bound on the source rows of the capture. -/
  sourceRank : Option UInt64
  deriving Inhabited

instance : BEq CachedResult :=
  ⟨fun a b => a.rows == b.rows && a.rowRank == b.rowRank && a.sourceRank == b.sourceRank⟩

namespace CachedResult

/-- Rows with their bounds. An unbounded rank is no bound. -/
def ofRanks (rows : List Row) (rowRank sourceRank : Option UInt64) : CachedResult :=
  ⟨rows, rowRank.bind boundOf, sourceRank.bind boundOf⟩

/-- All rows of a run. -/
def complete (rows : List Row) : CachedResult := ofRanks rows none none

/-- The rows of a run that stopped within the bounds of a query. -/
def partialFor (rows : List Row) (q : Query) : CachedResult :=
  ofRanks rows (boundOf q.rank) (boundOf q.sourceRank)

/-- Whether the result has no bounds. -/
def isComplete (r : CachedResult) : Bool := r.rowRank.isNone && r.sourceRank.isNone

/-- Whether a bound leaves room for a rank. -/
def admits (bound : Option UInt64) (rank : UInt64) : Bool := bound.all fun b => decide (rank ≤ b)

/-- Whether the result holds everything the query needs. -/
def answers (r : CachedResult) (q : Query) : Bool :=
  r.isComplete || (!q.requestsAggregation && admits r.rowRank q.rank
    && admits r.sourceRank q.sourceRank)

/-- Whether the result may take the place of another one: a bounded result takes no complete
one's. -/
def supersedes (r existing : CachedResult) : Bool := r.isComplete || !existing.isComplete

end CachedResult

end DataService
