import DataService.Model.Filter.Tree

/-!
# Compiled queries

What the cache has to know about one compiled query: the fingerprint of its pipeline, the bounds on
its rows, whether it aggregates, its parameters, its filter and its order. A bound of zero on the
rows of the run or of the source is no bound.
-/

set_option autoImplicit false

namespace DataService

/-- Named parameters, sorted by name, each name once. -/
structure Parameters where
  bindings : List (String × String) := []
  sorted : bindings.Pairwise (fun a b => a.1 < b.1) := by simp

namespace Parameters

/-- Parameters are given by their bindings. -/
@[ext] theorem ext {p q : Parameters} (h : p.bindings = q.bindings) : p = q := by
  cases p; cases q; simp_all

instance : DecidableEq Parameters := fun p q =>
  decidable_of_iff (p.bindings = q.bindings) ⟨ext, fun h => h ▸ rfl⟩

instance : Hashable Parameters := ⟨fun p => hash p.bindings⟩

/-- No parameters. -/
def empty : Parameters := {}

instance : Inhabited Parameters := ⟨empty⟩

/-- Writes a binding into a sorted list, over an older one of the same name. -/
def insertBinding (name value : String) : List (String × String) → List (String × String)
  | [] => [(name, value)]
  | (n, v) :: rest =>
    if name < n then (name, value) :: (n, v) :: rest
    else if name = n then (name, value) :: rest
    else (n, v) :: insertBinding name value rest

/-- A binding that is inserted brings no other name in. -/
private theorem mem_insertBinding {name value : String} {bs : List (String × String)}
    {b : String × String} (h : b ∈ insertBinding name value bs) : b.1 = name ∨ b ∈ bs := by
  induction bs with
  | nil => simp [insertBinding] at h; simp [h]
  | cons e rest ih =>
    obtain ⟨n, v⟩ := e
    simp only [insertBinding] at h
    split at h
    · rcases List.mem_cons.1 h with rfl | h
      · exact .inl rfl
      · exact .inr h
    · split at h
      · rcases List.mem_cons.1 h with rfl | h
        · exact .inl rfl
        · exact .inr (List.mem_cons_of_mem _ h)
      · rcases List.mem_cons.1 h with rfl | h
        · exact .inr (List.mem_cons_self ..)
        · exact (ih h).imp_right (List.mem_cons_of_mem _)

/-- Bindings stay in the order of their names, each name once. -/
theorem pairwise_insertBinding {name value : String} {bs : List (String × String)}
    (h : bs.Pairwise (fun a b => a.1 < b.1)) :
    (insertBinding name value bs).Pairwise (fun a b => a.1 < b.1) := by
  induction bs with
  | nil => simp [insertBinding]
  | cons e rest ih =>
    obtain ⟨n, v⟩ := e
    have hr := List.pairwise_cons.1 h
    simp only [insertBinding]
    split
    · rename_i hlt
      refine List.pairwise_cons.2 ⟨fun b hb => ?_, h⟩
      rcases List.mem_cons.1 hb with rfl | hb
      · exact hlt
      · exact String.lt_trans hlt (hr.1 b hb)
    · split
      · rename_i _ heq
        subst heq
        exact List.pairwise_cons.2 ⟨hr.1, hr.2⟩
      · rename_i hnlt hne
        refine List.pairwise_cons.2 ⟨fun b hb => ?_, ih hr.2⟩
        rcases mem_insertBinding hb with hb | hb
        · rw [hb]
          exact Decidable.byContradiction fun hn =>
            hne (String.le_antisymm (String.not_lt.1 hn) (String.not_lt.1 hnlt))
        · exact hr.1 b hb

/-- Binds a parameter, over an older binding of the same name. -/
def insert (p : Parameters) (name value : String) : Parameters :=
  ⟨insertBinding name value p.bindings, pairwise_insertBinding p.sorted⟩

/-- The parameters that result from binding one after the other. -/
def ofList (bindings : List (String × String)) : Parameters :=
  bindings.foldl (fun p b => p.insert b.1 b.2) empty

end Parameters

/-- A compiled query. -/
structure Query where
  /-- The fingerprint of the compiled pipeline, where it could be computed. -/
  fingerprint : Option UInt64 := none
  /-- The bound on the rows of the run. -/
  rowLimit : Option UInt64 := none
  /-- The bound on the rows read from the source. -/
  sourceRowLimit : Option UInt64 := none
  /-- The LIMIT of the query. -/
  limit : Option UInt64 := none
  /-- The OFFSET of the query. -/
  offset : Option UInt64 := none
  /-- The query has aggregate functions. -/
  aggregate : Bool := false
  /-- The query is a SELECT DISTINCT. -/
  distinct : Bool := false
  /-- The query has a GROUP BY. -/
  groupBy : Bool := false
  parameters : Parameters := .empty
  filter : Option Filter := none
  orderBy : List String := []
  deriving Inhabited

namespace Query

/-- Whether the query asks for more than rows: aggregation, distinct rows or groups. -/
def requestsAggregation (q : Query) : Bool := q.aggregate || q.distinct || q.groupBy

/-- A bound that is not zero. -/
def nonzero (bound : Option UInt64) : Option UInt64 := bound.filter (· ≠ 0)

/-- The bound on the rows of the run that is in force. -/
def rowCap (q : Query) : Option UInt64 := nonzero q.rowLimit

/-- The bound on the rows of the source that is in force. -/
def sourceRowCap (q : Query) : Option UInt64 := nonzero q.sourceRowLimit

end Query

end DataService
