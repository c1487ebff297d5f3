import DataService.Model.Population
import DataService.Proofs.Cache.Completeness

/-!
# Queries within the bounds of a capture

A capture answers a query that asks for no more than the capture's own query did: it covers that
query (`Query.Covers`). What a query asks for is a rank of rows and a rank of source rows. A limit
and an offset add up to a rank that never overflows (`addRanks_toNat`), a rank that bounds nothing
is the greatest of all (`le_unbounded`), and a result keeps it as no bound
(`CachedResult.tight_ofRanks`).

Covering is transitive (`Query.Covers.trans`). A capture that covers an uncapped query is uncapped
itself, so nothing is lost where aggregation comes in.
-/

set_option autoImplicit false

namespace DataService

theorem le_unbounded (rank : UInt64) : rank ≤ unbounded := by
  rw [UInt64.le_iff_toNat_le]
  exact Nat.le_of_lt_succ rank.toNat_lt

/-- Ranks add up as numbers, as far as the rank that bounds nothing. -/
theorem addRanks_toNat (a b : UInt64) :
    (addRanks a b).toNat = min (a.toNat + b.toNat) unbounded.toNat := by
  have hword : unbounded.toNat < 2 ^ 64 := by decide
  unfold addRanks
  split
  · rename_i hsum
    rw [UInt64.toNat_add, Nat.mod_eq_of_lt (by omega)]
    omega
  · omega

namespace Query

/-- A query requests no aggregation if it has no aggregate functions, no distinct rows and no
groups. -/
theorem requestsAggregation_eq_false_iff (q : Query) :
    q.requestsAggregation = false ↔
      q.aggregate = false ∧ q.distinct = false ∧ q.groupBy = false := by
  rw [requestsAggregation, Bool.or_eq_false_iff, Bool.or_eq_false_iff, and_assoc]

/-- A bound other than zero is in force as it is. -/
theorem nonzero_getD_of_ne_zero {bound : Option UInt64} {n : UInt64} (h : bound = some n)
    (positive : n ≠ 0) : (nonzero bound).getD unbounded = n := by
  have kept : nonzero (some n) = some n := by simp [nonzero, positive]
  rw [h, kept, Option.getD_some]

/-- Without a limit the rank is the bound on the rows of the run. -/
theorem rank_of_rowLimit {q : Query} {n : UInt64} (unlimited : q.limit = none)
    (h : q.rowLimit = some n) (positive : n ≠ 0) : q.rank = n := by
  rw [rank, unlimited]
  exact nonzero_getD_of_ne_zero h positive

/-- A capture for the first query holds what the second query needs. -/
def Covers (captured q : Query) : Prop :=
  captured.Uncapped ∨
    q.requestsAggregation = false ∧ q.rank ≤ captured.rank ∧ q.sourceRank ≤ captured.sourceRank

/-- Only uncapped queries need no less than an uncapped one. -/
theorem Uncapped.of_le {captured q : Query} (h : q.Uncapped) (hrank : q.rank ≤ captured.rank)
    (hsource : q.sourceRank ≤ captured.sourceRank) : captured.Uncapped := by
  rw [h.1] at hrank
  rw [h.2] at hsource
  exact ⟨UInt64.le_antisymm (le_unbounded _) hrank, UInt64.le_antisymm (le_unbounded _) hsource⟩

/-- A query that covers another one covers all that the other one covers. -/
theorem Covers.trans {first second third : Query} (h : first.Covers second)
    (h' : second.Covers third) : first.Covers third := by
  rcases h with huncapped | ⟨-, hrank, hsource⟩
  · exact .inl huncapped
  · rcases h' with huncapped | ⟨hplain, hrank', hsource'⟩
    · exact .inl (huncapped.of_le hrank hsource)
    · exact .inr ⟨hplain, UInt64.le_trans hrank' hrank, UInt64.le_trans hsource' hsource⟩

end Query

/-- A population can answer the queries that its own query covers. -/
theorem Population.canAnswer_iff (p : Population) (q : Query) :
    p.canAnswer q = true ↔ p.query.Covers q :=
  CachedResult.answers_partialFor_iff [] p.query q

namespace CachedResult

/-- The result keeps no bound that bounds nothing. -/
def Tight (r : CachedResult) : Prop :=
  r.rowRank ≠ some unbounded ∧ r.sourceRank ≠ some unbounded

/-- No result is bounded by the greatest rank. -/
theorem bind_boundOf_ne_unbounded (rank : Option UInt64) :
    rank.bind boundOf ≠ some unbounded := by
  intro h
  obtain ⟨bound, -, hbound⟩ := Option.bind_eq_some_iff.1 h
  unfold boundOf at hbound
  split at hbound
  · cases hbound
  · rename_i hne
    exact hne (Option.some.inj hbound)

/-- However a result is made, it keeps no bound that bounds nothing. -/
theorem tight_ofRanks (rows : List Row) (rowRank sourceRank : Option UInt64) :
    (ofRanks rows rowRank sourceRank).Tight :=
  ⟨bind_boundOf_ne_unbounded rowRank, bind_boundOf_ne_unbounded sourceRank⟩

/-- **What a bounded result answers.** A result under the bounds of a query answers another query
exactly if that query is uncapped, or the other one has neither aggregate functions nor distinct
rows nor groups and keeps within both bounds. A limit and an offset add up without overflow, a cap is
taken as it is, and what bounds nothing is a cap that is missing, zero or the greatest number, or a
sum that is too large. The rank that bounds nothing is never kept as a bound. So what a population
can answer, another one can that can answer the population's query. -/
theorem answers_exactly_within_bounds :
    (∀ (rows : List Row) (captured q : Query),
      (partialFor rows captured).answers q = true ↔
        (captured.rank = unbounded ∧ captured.sourceRank = unbounded) ∨
        ((q.aggregate = false ∧ q.distinct = false ∧ q.groupBy = false) ∧
          q.rank ≤ captured.rank ∧ q.sourceRank ≤ captured.sourceRank)) ∧
    (∀ (q : Query) (limit : UInt64), q.limit = some limit →
      q.rank.toNat = min (limit.toNat + (q.offset.getD 0).toNat) unbounded.toNat) ∧
    (∀ (q : Query) (n : UInt64), n ≠ 0 →
      (q.limit = none → q.rowLimit = some n → q.rank = n) ∧
      (q.sourceRowLimit = some n → q.sourceRank = n)) ∧
    (∀ q : Query,
      (q.rank = unbounded ↔
        (∃ limit, q.limit = some limit ∧
          unbounded.toNat ≤ limit.toNat + (q.offset.getD 0).toNat) ∨
        q.limit = none ∧
          (q.rowLimit = none ∨ q.rowLimit = some 0 ∨ q.rowLimit = some unbounded)) ∧
      (q.sourceRank = unbounded ↔
        q.sourceRowLimit = none ∨ q.sourceRowLimit = some 0 ∨
          q.sourceRowLimit = some unbounded)) ∧
    (∀ (rows : List Row) (rowRank sourceRank : Option UInt64),
      (ofRanks rows rowRank sourceRank).Tight) ∧
    (∀ (p p' : Population) (q : Query),
      p.canAnswer p'.query = true → p'.canAnswer q = true → p.canAnswer q = true) := by
  refine ⟨?_, ?_, ?_, ?_, tight_ofRanks, ?_⟩
  · intro rows captured q
    rw [answers_partialFor_iff, Query.requestsAggregation_eq_false_iff, Query.Uncapped]
  · intro q limit hlimit
    rw [Query.rank, hlimit]
    exact addRanks_toNat limit (q.offset.getD 0)
  · intro q n positive
    exact ⟨fun unlimited h => Query.rank_of_rowLimit unlimited h positive,
      fun h => Query.nonzero_getD_of_ne_zero h positive⟩
  · intro q
    exact ⟨q.rank_eq_unbounded_iff, q.sourceRank_eq_unbounded_iff⟩
  · intro p p' q h h'
    rw [Population.canAnswer_iff] at h h' ⊢
    exact h.trans h'

/-- Two captures of which the one bounds its source rows, and its rows by a limit and an offset that
are too large to add up, and the other one its source rows further, with a cap of zero on its rows. -/
theorem answers_exactly_within_bounds_of_source_rows :
    let wide : Query := { limit := some 18446744073709551615, offset := some 5,
                          sourceRowLimit := some 500 }
    let narrow : Query := { rowLimit := some 0, sourceRowLimit := some 400 }
    let q : Query := { limit := some 10, sourceRowLimit := some 400 }
    let capture (query : Query) : Population :=
      { label := "T", key := { pipelineVersion := 7 }, query, outputStep := "output" }
    wide.rank.toNat = 18446744073709551615 ∧ (capture wide).canAnswer q = true ∧
      (capture narrow).canAnswer wide = false := by
  intro wide narrow q capture
  obtain ⟨answers, saturates, -, -, -, transitive⟩ := answers_exactly_within_bounds
  refine ⟨saturates wide _ rfl, ?_, ?_⟩
  · exact transitive (capture wide) (capture narrow) q (by decide) (by decide)
  · rw [Population.canAnswer, ← Bool.not_eq_true, answers]
    decide

end CachedResult

end DataService
