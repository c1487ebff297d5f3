import DataService.Model.Document.Basic
import DataService.Model.Document.Record

/-!
# The order of members

What is read from an object does not depend on the order of its members. `Document.tidy` brings the
members into the order of their names, everywhere in a document, and here it is shown of the rules
of reading that they find in the tidy document what they found before, itself made tidy: the fields
of a record (`fields?_tidy`) and the content of a case (`case?_tidy`).

Tidying keeps one member of each name. Nothing is lost by that, since a name that is asked for and
repeated is refused.
-/

set_option autoImplicit false

namespace DataService.Document

/-! ## Inserting members -/

/-- A member that is inserted brings no other member in. -/
theorem mem_insertMember {name : String} {value : Document} {members : List (String × Document)}
    {m : String × Document} (h : m ∈ insertMember name value members) :
    m = (name, value) ∨ m ∈ members := by
  induction members with
  | nil => exact .inl (List.mem_singleton.1 h)
  | cons e rest ih =>
    obtain ⟨n, v⟩ := e
    rw [insertMember] at h
    split at h
    · exact List.mem_cons.1 h
    · split at h
      · exact (List.mem_cons.1 h).imp_right (List.mem_cons_of_mem _)
      · rcases List.mem_cons.1 h with rfl | later
        · exact .inr List.mem_cons_self
        · exact (ih later).imp_right (List.mem_cons_of_mem _)

/-- Members stay in the order of their names, each name once. -/
theorem pairwise_insertMember {name : String} {value : Document}
    {members : List (String × Document)} (sorted : members.Pairwise fun a b => a.1 < b.1) :
    (insertMember name value members).Pairwise fun a b => a.1 < b.1 := by
  induction members with
  | nil => simp [insertMember]
  | cons e rest ih =>
    obtain ⟨n, v⟩ := e
    obtain ⟨first, later⟩ := List.pairwise_cons.1 sorted
    rw [insertMember]
    split
    · rename_i before
      refine List.pairwise_cons.2 ⟨fun m member => ?_, sorted⟩
      rcases List.mem_cons.1 member with rfl | behind
      · exact before
      · exact String.lt_trans before (first m behind)
    · rename_i notBefore
      split
      · rename_i same
        subst same
        exact List.pairwise_cons.2 ⟨first, later⟩
      · rename_i different
        refine List.pairwise_cons.2 ⟨fun m member => ?_, ih later⟩
        rcases mem_insertMember member with rfl | behind
        · exact Std.lt_of_le_of_ne (String.not_lt.1 notBefore) (Ne.symm different)
        · exact first m behind

/-- A name that comes before all others is not among them. -/
theorem filter_eq_nil_of_lt {members : List (String × Document)} {n : String}
    (above : ∀ m ∈ members, n < m.1) : members.filter (·.1 == n) = [] := by
  refine List.filter_eq_nil_iff.2 fun m member named => ?_
  have below := above m member
  rw [eq_of_beq named] at below
  exact String.lt_irrefl n below

/-- Of an inserted name there is the new member, and of all others what there was. -/
theorem filter_insertMember {name : String} {value : Document} {members : List (String × Document)}
    (sorted : members.Pairwise fun a b => a.1 < b.1) (n : String) :
    (insertMember name value members).filter (·.1 == n) =
      if name = n then [(name, value)] else members.filter (·.1 == n) := by
  induction members with
  | nil => by_cases h : name = n <;> simp [insertMember, h]
  | cons e rest ih =>
    obtain ⟨m, v⟩ := e
    obtain ⟨first, later⟩ := List.pairwise_cons.1 sorted
    rw [insertMember]
    split
    · rename_i before
      have above : ∀ b ∈ (m, v) :: rest, name < b.1 :=
        List.forall_mem_cons.2 ⟨before, fun b behind => String.lt_trans before (first b behind)⟩
      by_cases h : name = n
      · subst h
        rw [List.filter_cons, filter_eq_nil_of_lt above]
        simp
      · simp [h]
    · split
      · rename_i same
        subst same
        by_cases h : name = n
        · subst h
          rw [List.filter_cons, filter_eq_nil_of_lt first]
          simp
        · simp [h]
      · rename_i different
        rw [List.filter_cons, List.filter_cons, ih later]
        by_cases h : name = n
        · subst h
          simp [Ne.symm different]
        · simp [h]

/-! ## Tidy documents -/

theorem tidyItems_eq_map (items : List Document) : tidyItems items = items.map tidy := by
  induction items with
  | nil => rfl
  | cons d rest ih => rw [tidyItems, ih, List.map_cons]

/-- Of a name that no member has there is what was sorted before. -/
theorem filter_tidyMembers_of_absent {members sorted : List (String × Document)} {n : String}
    (ordered : sorted.Pairwise fun a b => a.1 < b.1) (absent : members.filter (·.1 == n) = []) :
    (tidyMembers members sorted).filter (·.1 == n) = sorted.filter (·.1 == n) := by
  induction members generalizing sorted with
  | nil => rfl
  | cons e rest ih =>
    obtain ⟨m, v⟩ := e
    have different : m ≠ n := fun same => by simp [same] at absent
    have absent' : rest.filter (·.1 == n) = [] := by simpa [different] using absent
    rw [tidyMembers, ih (pairwise_insertMember ordered) absent', filter_insertMember ordered,
      if_neg different]

/-- Of a name that one member has there is that one, made tidy. -/
theorem filter_tidyMembers_of_single {members sorted : List (String × Document)} {n : String}
    {found : String × Document} (ordered : sorted.Pairwise fun a b => a.1 < b.1)
    (single : members.filter (·.1 == n) = [found]) :
    (tidyMembers members sorted).filter (·.1 == n) = [(n, found.2.tidy)] := by
  induction members generalizing sorted with
  | nil => cases single
  | cons e rest ih =>
    obtain ⟨m, v⟩ := e
    rw [tidyMembers]
    by_cases same : m = n
    · subst same
      obtain ⟨rfl, absent⟩ : (m, v) = found ∧ rest.filter (·.1 == m) = [] := by
        simpa using single
      rw [filter_tidyMembers_of_absent (pairwise_insertMember ordered) absent,
        filter_insertMember ordered, if_pos rfl]
    · exact ih (pairwise_insertMember ordered) (by simpa [same] using single)

/-- What there is of a name, there is of it in the tidy object. -/
theorem member?_tidyMembers {members : List (String × Document)} {n : String}
    {value : Option Document} (h : member? members n = some value) :
    member? (tidyMembers members []) n = some (value.map tidy) := by
  unfold member? at h
  split at h
  · rename_i absent
    cases h
    rw [member?, filter_tidyMembers_of_absent .nil absent]
    rfl
  · rename_i found single
    cases h
    rw [member?, filter_tidyMembers_of_single .nil single]
    rfl
  · cases h

/-- The members that are read by their names are the same in tidied members. -/
theorem mapM_member?_tidyMembers {members : List (String × Document)} {names : List String}
    {values : List (Option Document)} (h : names.mapM (member? members) = some values) :
    names.mapM (member? (tidyMembers members [])) = some (values.map (·.map tidy)) := by
  induction names generalizing values with
  | nil =>
    cases h
    rfl
  | cons n rest ih =>
    simp only [List.mapM_cons, Option.pure_def, Option.bind_eq_bind, Option.bind_eq_some_iff,
      Option.some.injEq] at h ⊢
    obtain ⟨value, found, later, read, rfl⟩ := h
    exact ⟨value.map tidy, member?_tidyMembers found, later.map (·.map tidy), ih read, rfl⟩

/-- The fields of a record are found in the tidy document as well. -/
theorem fields?_tidy {names : List String} {d : Document} {fs : Fields}
    (h : d.fields? names = some fs) :
    d.tidy.fields? names = some ⟨fs.values.map (·.map tidy), fs.positional⟩ := by
  cases d with
  | object members =>
    rw [fields?, Option.map_eq_some_iff] at h
    obtain ⟨values, read, rfl⟩ := h
    rw [tidy, fields?, mapM_member?_tidyMembers read]
    rfl
  | array items =>
    rw [fields?] at h
    split at h
    · rename_i short
      cases h
      have short' : (items.map tidy).length ≤ names.length := by simpa using short
      rw [tidy, tidyItems_eq_map, fields?, if_pos short']
      simp
    · cases h
  | _ => cases h

/-- The content of a case is found in the tidy document as well. -/
theorem case?_tidy {d : Document} {name : String} {content : Option Document}
    (h : d.case? = some (name, content)) : d.tidy.case? = some (name, content.map tidy) := by
  unfold case? at h
  split at h
  · cases h
    rfl
  · cases h
    rfl
  · cases h

/-- A case without content has none after tidying either. -/
theorem isBare_map_tidy (content : Option Document) :
    isBare (content.map tidy) = isBare content := by
  cases content with
  | none => rfl
  | some d => cases d <;> rfl

/-- A bare case is read alike from a tidied document. -/
theorem bareCase?_tidy {α : Type} {named : String → Option α} {d : Document} {a : α}
    (h : bareCase? named d = some a) : bareCase? named d.tidy = some a := by
  unfold bareCase? at h
  split at h
  · rename_i found
    rw [bareCase?, case?_tidy found]
    dsimp only
    rw [isBare_map_tidy]
    exact h
  · cases h

/-- A required field is read alike from a tidied document, if its content is. -/
theorem required_tidy {α : Type} {read : Document → Option α} {field : Option Document} {a : α}
    (same : ∀ d, read d = some a → read d.tidy = some a) (h : required read field = some a) :
    required read (field.map tidy) = some a := by
  obtain ⟨d, rfl, here⟩ := Option.bind_eq_some_iff.1 h
  exact same d here

end DataService.Document
