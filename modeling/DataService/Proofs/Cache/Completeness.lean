import DataService.Model.Cache.Result

/-!
# Complete results

A result under the bounds of a query is complete exactly if the query is uncapped
(`CachedResult.isComplete_partialFor_iff`): no bound is kept for a rank that is unbounded. A query
can be uncapped in several ways. A cap of zero counts as none, the largest number is the unbounded
rank itself, and a limit and an offset whose sum is too large add up to it
(`Query.rank_eq_unbounded_iff`, `Query.sourceRank_eq_unbounded_iff`). What the other results answer
is told by the bounds of two queries (`CachedResult.answers_partialFor_iff`).
-/

set_option autoImplicit false

namespace DataService

/-- The only rank that is no bound is the greatest one. -/
theorem boundOf_eq_none_iff (rank : UInt64) : boundOf rank = none ↔ rank = unbounded := by
  unfold boundOf
  split
  case isTrue h => exact iff_of_true rfl h
  case isFalse h => exact iff_of_false nofun h

/-- A bound is a bound already. -/
theorem boundOf_bind_boundOf (rank : UInt64) : (boundOf rank).bind boundOf = boundOf rank := by
  by_cases h : rank = unbounded
  · rw [(boundOf_eq_none_iff rank).2 h]
    rfl
  · have bound : boundOf rank = some rank := if_neg h
    rw [bound, Option.bind_some, bound]

/-- A sum of ranks is unbounded from the greatest rank on. -/
theorem addRanks_eq_unbounded_iff (a b : UInt64) :
    addRanks a b = unbounded ↔ unbounded.toNat ≤ a.toNat + b.toNat := by
  unfold addRanks
  split
  case isTrue h =>
    refine iff_of_false ?_ (Nat.not_le.2 h)
    intro sum
    have small : (a + b).toNat = a.toNat + b.toNat := by
      rw [UInt64.toNat_add]
      exact Nat.mod_eq_of_lt (Nat.lt_trans h (by decide))
    rw [← small, sum] at h
    exact Nat.lt_irrefl _ h
  case isFalse h => exact iff_of_true rfl (Nat.not_lt.1 h)

namespace Query

/-- A bound in force is unbounded if none is given, or zero, or the unbounded rank. -/
theorem nonzero_getD_eq_unbounded_iff (bound : Option UInt64) :
    (nonzero bound).getD unbounded = unbounded ↔
      bound = none ∨ bound = some 0 ∨ bound = some unbounded := by
  cases bound with
  | none => exact iff_of_true rfl (.inl rfl)
  | some n =>
    by_cases zero : n = 0
    · rw [zero]
      exact iff_of_true rfl (.inr (.inl rfl))
    · have kept : nonzero (some n) = some n := by simp [nonzero, zero]
      rw [kept, Option.getD_some]
      simp [zero]

/-- A query asks for any number of rows where its limit and its offset add up to the greatest rank
or more, or where it has no limit and no row limit that counts. -/
theorem rank_eq_unbounded_iff (q : Query) :
    q.rank = unbounded ↔
      (∃ limit, q.limit = some limit ∧
        unbounded.toNat ≤ limit.toNat + (q.offset.getD 0).toNat) ∨
      q.limit = none ∧ (q.rowLimit = none ∨ q.rowLimit = some 0 ∨ q.rowLimit = some unbounded) := by
  unfold rank
  cases limited : q.limit with
  | none =>
    have cap := nonzero_getD_eq_unbounded_iff q.rowLimit
    simpa [rowCap] using cap
  | some limit => simp [addRanks_eq_unbounded_iff]

/-- A query reads any number of rows of the source where its row limit there is absent, zero or the
greatest rank. -/
theorem sourceRank_eq_unbounded_iff (q : Query) :
    q.sourceRank = unbounded ↔
      q.sourceRowLimit = none ∨ q.sourceRowLimit = some 0 ∨ q.sourceRowLimit = some unbounded :=
  nonzero_getD_eq_unbounded_iff q.sourceRowLimit

/-- The query bounds neither its output rows nor the rows of the source. -/
def Uncapped (q : Query) : Prop := q.rank = unbounded ∧ q.sourceRank = unbounded

end Query

namespace CachedResult

theorem isComplete_complete (rows : List Row) : (complete rows).isComplete = true := rfl

/-- A result under the bounds of a query is complete exactly if the query is uncapped. -/
theorem isComplete_partialFor_iff (rows : List Row) (q : Query) :
    (partialFor rows q).isComplete = true ↔ q.Uncapped := by
  unfold isComplete partialFor ofRanks Query.Uncapped
  simp only [boundOf_bind_boundOf, Bool.and_eq_true, Option.isNone_iff_eq_none, boundOf_eq_none_iff]

/-- A bound admits the ranks up to it. -/
theorem admits_boundOf_iff (bound rank : UInt64) :
    admits (boundOf bound) rank = true ↔ rank ≤ bound := by
  by_cases h : bound = unbounded
  · rw [(boundOf_eq_none_iff bound).2 h, h]
    refine iff_of_true rfl ?_
    rw [UInt64.le_iff_toNat_le]
    exact Nat.le_of_lt_succ rank.toNat_lt
  · have kept : boundOf bound = some bound := if_neg h
    rw [kept]
    exact decide_eq_true_iff

/-- A capture within the bounds of a query answers another query if there are no bounds, or if that
one does not aggregate and keeps within them. -/
theorem answers_partialFor_iff (rows : List Row) (captured q : Query) :
    (partialFor rows captured).answers q = true ↔ captured.Uncapped ∨
      q.requestsAggregation = false ∧ q.rank ≤ captured.rank ∧ q.sourceRank ≤ captured.sourceRank := by
  unfold answers
  rw [Bool.or_eq_true, isComplete_partialFor_iff, Bool.and_eq_true, Bool.and_eq_true,
    Bool.not_eq_true', and_assoc]
  unfold partialFor ofRanks
  simp only [boundOf_bind_boundOf, admits_boundOf_iff]

end CachedResult

end DataService
