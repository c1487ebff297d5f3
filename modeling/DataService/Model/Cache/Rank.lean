import DataService.Model.Query

/-!
# Ranks

A rank is an upper bound on a number of rows, with the largest 64-bit integer for no bound at all.
A query has two of them, one for its output rows and one for the rows read from the source, and
they are never combined.
-/

set_option autoImplicit false

namespace DataService

/-- The rank that bounds nothing. -/
def unbounded : UInt64 := 0xFFFFFFFFFFFFFFFF

/-- A rank as a bound, where it is one. -/
def boundOf (rank : UInt64) : Option UInt64 := if rank = unbounded then none else some rank

/-- The sum of two ranks; one that is too large is unbounded. -/
def addRanks (a b : UInt64) : UInt64 :=
  if a.toNat + b.toNat < unbounded.toNat then a + b else unbounded

namespace Query

/-- How many output rows the query can use: its limit and offset together, else the bound on the
rows of its run. -/
def rank (q : Query) : UInt64 :=
  match q.limit with
  | some limit => addRanks limit (q.offset.getD 0)
  | none => q.rowCap.getD unbounded

/-- How many rows of the source the query can use. -/
def sourceRank (q : Query) : UInt64 := q.sourceRowCap.getD unbounded

end Query

end DataService
