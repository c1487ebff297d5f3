import DataService.Model.Filter.Documents
import DataService.Proofs.Document.MemberOrder
import DataService.Proofs.Filter.Nodes
import DataService.Proofs.Filter.Shown

/-!
# Filters survive as documents

A filter that is written as a document is read back as it was (`Filter.ofDocument?_toDocument`), and
so is one whose document was brought into another order of its members on the way
(`Filter.ofDocument?_tidy`). Reading accepts more than what is written: members that it does not
know, arrays in the place of objects, objects in the place of bare names. Whatever it made of such a
document, the filter is written in one form only, and read from that form as well
(`Filter.survives_documents`).

Each kind of value has a lemma that takes its reading apart: a literal is read by its case
(`Literal.ofDocument?_of_case`), conditions and filters by their fields
(`Condition.ofDocument?_eq_some_iff`, `Filter.ofDocument?_eq_some_iff`). In documents, numbers stand
as they are; they are left out of the theorem since one that is no number differs from itself.
-/

set_option autoImplicit false

namespace DataService

/-! ## Names and scalars -/

/-- An operator is read from its name. -/
theorem Operator.named?_name (o : Operator) : Operator.named? o.name = some o := by
  cases o <;> rfl

/-- A comparator is read from its name. -/
theorem Comparator.named?_name (c : Comparator) : Comparator.named? c.name = some c := by
  cases c <;> rfl

/-- An integer of 64 bits is read from the number that it is. -/
theorem Document.int64?_integer (n : Int64) : (Document.integer n.toInt).int64? = some n := by
  have above := n.toInt_lt
  have below := n.le_toInt
  rw [int64?, if_pos (by omega), Int64.ofInt_toInt]

/-- A truth value is read in whatever order members stand. -/
theorem Document.bool?_tidy (d : Document) : d.tidy.bool? = d.bool? := by
  cases d <;> rfl

/-- An integer is read in whatever order members stand. -/
theorem Document.int64?_tidy (d : Document) : d.tidy.int64? = d.int64? := by
  cases d <;> rfl

/-- A number is read in whatever order members stand. -/
theorem Document.number?_tidy (d : Document) : d.tidy.number? = d.number? := by
  cases d <;> rfl

/-- A text is read in whatever order members stand. -/
theorem Document.text?_tidy (d : Document) : d.tidy.text? = d.text? := by
  cases d <;> rfl

/-! ## Literals -/

namespace Literal

/-- What the name of a case and its content stand for. -/
def ofCase? : String → Option Document → Option Literal
  | "Null", content => if Document.isBare content then some .null else none
  | "Boolean", some content => content.bool?.map .boolean
  | "Integer", some content => content.int64?.map .integer
  | "Number", some content => content.number?.map .number
  | "Text", some content => content.text?.map .text
  | "List", some (.array items) => (listOfDocuments? items).map .list
  | _, _ => none

/-- A literal is read by the case of its document. -/
theorem ofDocument?_of_case {d : Document} {name : String} {content : Option Document}
    (h : d.case? = some (name, content)) : ofDocument? d = ofCase? name content := by
  rw [ofDocument?]
  split
  case h_7 =>
    unfold ofCase?
    split
    case h_7 => rfl
    all_goals simp_all
  all_goals
    rename_i found
    rw [h] at found
    cases found
    rfl

/-- A document that a literal is read from names one of its cases. -/
theorem exists_case_of_ofDocument? {d : Document} {v : Literal} (h : ofDocument? d = some v) :
    ∃ name content, d.case? = some (name, content) ∧ ofCase? name content = some v := by
  cases found : d.case? with
  | none =>
    rw [ofDocument?] at h
    split at h <;> simp_all
  | some case =>
    obtain ⟨name, content⟩ := case
    exact ⟨name, content, rfl, (ofDocument?_of_case found).symm.trans h⟩

mutual

/-- A literal that is written is read back. -/
theorem ofDocument?_toDocument : (v : Literal) → ofDocument? v.toDocument = some v
  | .null | .boolean _ | .number _ | .text _ => by
    rw [toDocument, ofDocument?_of_case rfl]
    rfl
  | .integer n => by
    rw [toDocument, ofDocument?_of_case rfl]
    exact congrArg (Option.map integer) (Document.int64?_integer n)
  | .list items => by
    rw [toDocument, ofDocument?_of_case rfl]
    exact congrArg (Option.map list) (listOfDocuments?_listToDocuments items)

/-- Literals that are written one after the other are read back. -/
theorem listOfDocuments?_listToDocuments :
    (vs : List Literal) → listOfDocuments? (listToDocuments vs) = some vs
  | [] => by rw [listToDocuments, listOfDocuments?]
  | v :: vs => by
    rw [listToDocuments, listOfDocuments?, ofDocument?_toDocument v,
      listOfDocuments?_listToDocuments vs]
    rfl

end

mutual

/-- A literal is read from the tidy document as well. -/
theorem ofDocument?_tidy (d : Document) (v : Literal) (h : ofDocument? d = some v) :
    ofDocument? d.tidy = some v := by
  obtain ⟨name, content, found, read⟩ := exists_case_of_ofDocument? h
  rw [ofDocument?_of_case (Document.case?_tidy found)]
  unfold ofCase? at read
  split at read
  · show (if Document.isBare _ then _ else _) = _
    rw [Document.isBare_map_tidy]
    exact read
  · exact (congrArg (Option.map boolean) (Document.bool?_tidy _)).trans read
  · exact (congrArg (Option.map integer) (Document.int64?_tidy _)).trans read
  · exact (congrArg (Option.map number) (Document.number?_tidy _)).trans read
  · exact (congrArg (Option.map text) (Document.text?_tidy _)).trans read
  · rename_i items
    obtain ⟨vs, each, rfl⟩ := Option.map_eq_some_iff.1 read
    show (match (Document.array items).tidy with
      | .array items => (listOfDocuments? items).map list
      | _ => none) = _
    rw [Document.tidy, Document.tidyItems_eq_map]
    exact congrArg (Option.map list) (listOfDocuments?_map_tidy items vs each)
  · cases read
termination_by sizeOf d
decreasing_by
  have smaller := Document.sizeOf_lt_of_case? found
  simp only [Document.array.sizeOf_spec] at smaller
  omega

/-- Literals are read from tidy documents as well, one after the other. -/
theorem listOfDocuments?_map_tidy (ds : List Document) (vs : List Literal)
    (h : listOfDocuments? ds = some vs) : listOfDocuments? (ds.map Document.tidy) = some vs := by
  match ds with
  | [] => exact h
  | d :: rest =>
    rw [listOfDocuments?] at h
    obtain ⟨v, first, h⟩ := Option.bind_eq_some_iff.1 h
    obtain ⟨others, later, h⟩ := Option.bind_eq_some_iff.1 h
    rw [List.map_cons, listOfDocuments?, ofDocument?_tidy d v first,
      listOfDocuments?_map_tidy rest others later]
    exact h
termination_by sizeOf ds

end

end Literal

/-! ## Conditions -/

namespace Condition

/-- A condition is read by its fields. -/
theorem ofDocument?_eq_some_iff {d : Document} {c : Condition} :
    ofDocument? d = some c ↔ ∃ field comparator value positional,
      d.fields? ["field", "comparator", "value"] =
        some ⟨[field, comparator, value], positional⟩ ∧
      Document.required Document.text? field = some c.field ∧
      Document.required Comparator.ofDocument? comparator = some c.comparator ∧
      Document.required Literal.ofDocument? value = some c.value := by
  unfold ofDocument?
  constructor
  · intro h
    obtain ⟨⟨values, positional⟩, fields, read⟩ := Option.bind_eq_some_iff.1 h
    dsimp only at read
    split at read
    · rename_i field comparator value
      obtain ⟨f, fielded, read⟩ := Option.bind_eq_some_iff.1 read
      obtain ⟨k, compared, read⟩ := Option.bind_eq_some_iff.1 read
      obtain ⟨v, valued, read⟩ := Option.bind_eq_some_iff.1 read
      cases read
      exact ⟨field, comparator, value, positional, fields, fielded, compared, valued⟩
    · cases read
  · rintro ⟨field, comparator, value, positional, fields, fielded, compared, valued⟩
    simp [fields, fielded, compared, valued]

/-- A condition that is written is read back. -/
theorem ofDocument?_toDocument (c : Condition) : ofDocument? c.toDocument = some c := by
  refine ofDocument?_eq_some_iff.2
    ⟨some (.text c.field), some (.text c.comparator.name), some c.value.toDocument, false, rfl, rfl,
      c.comparator.named?_name, c.value.ofDocument?_toDocument⟩

/-- A condition is read from the tidy document as well. -/
theorem ofDocument?_tidy {d : Document} {c : Condition} (h : ofDocument? d = some c) :
    ofDocument? d.tidy = some c := by
  obtain ⟨field, comparator, value, positional, fields, fielded, compared, valued⟩ :=
    ofDocument?_eq_some_iff.1 h
  refine ofDocument?_eq_some_iff.2 ⟨_, _, _, _, Document.fields?_tidy fields, ?_, ?_, ?_⟩
  · exact Document.required_tidy (fun d read => (Document.text?_tidy d).trans read) fielded
  · exact Document.required_tidy (fun d read => Document.bareCase?_tidy read) compared
  · exact Document.required_tidy (fun d read => Literal.ofDocument?_tidy d _ read) valued

end Condition

/-! ## Filters -/

namespace Filter

/-- A filter is read by its fields. -/
theorem ofDocument?_eq_some_iff {d : Document} {f : Filter} :
    ofDocument? d = some f ↔ ∃ operator negated children condition positional,
      d.fields? ["operator", "negated", "children", "condition"] =
        some ⟨[operator, negated, some (.array children), condition], positional⟩ ∧
      Document.required Operator.ofDocument? operator = some f.operator ∧
      Document.required Document.bool? negated = some f.negated ∧
      listOfDocuments? children = some f.children ∧
      conditionOf? positional condition = some f.condition := by
  rw [ofDocument?]
  constructor
  · intro h
    split at h
    · rename_i operator negated children condition positional fields
      obtain ⟨o, operated, h⟩ := Option.bind_eq_some_iff.1 h
      obtain ⟨n, signed, h⟩ := Option.bind_eq_some_iff.1 h
      obtain ⟨fs, below, h⟩ := Option.bind_eq_some_iff.1 h
      obtain ⟨c, conditioned, h⟩ := Option.bind_eq_some_iff.1 h
      cases h
      exact ⟨operator, negated, children, condition, positional, fields, operated, signed, below,
        conditioned⟩
    · cases h
  · rintro ⟨operator, negated, children, condition, positional, fields, operated, signed, below,
      conditioned⟩
    split
    · rename_i found
      rw [fields] at found
      cases found
      rw [operated, signed, below, conditioned]
      obtain ⟨_, _, _, _⟩ := f
      rfl
    · rename_i other
      exact absurd fields (other _ _ _ _ _)

/-- The condition that a node is written with is read back; none is written as null. -/
theorem conditionOf?_toDocument (condition : Option Condition) :
    conditionOf? false (some ((condition.map Condition.toDocument).getD .null)) =
      some condition := by
  cases condition with
  | none => rfl
  | some c => exact congrArg (Option.map some) c.ofDocument?_toDocument

/-- A condition that is given and not null is read as one. -/
theorem conditionOf?_of_ne_null {positional : Bool} {d : Document} (h : d ≠ .null) :
    conditionOf? positional (some d) = (Condition.ofDocument? d).map some := by
  unfold conditionOf?
  split
  · rename_i absent
    cases absent
  · rename_i bare
    exact absurd (Option.some.inj bare) h
  · rename_i present
    cases present
    rfl

/-- What stands in the place of a condition is read from the tidy document as well. -/
theorem conditionOf?_tidy {positional : Bool} {field : Option Document}
    {condition : Option Condition} (h : conditionOf? positional field = some condition) :
    conditionOf? positional (field.map Document.tidy) = some condition := by
  cases field with
  | none => exact h
  | some d =>
    by_cases bare : d = .null
    · rw [bare] at h ⊢
      exact h
    · have present : d.tidy ≠ .null := by cases d <;> simp_all [Document.tidy]
      rw [conditionOf?_of_ne_null bare] at h
      obtain ⟨c, read, rfl⟩ := Option.map_eq_some_iff.1 h
      rw [Option.map_some, conditionOf?_of_ne_null present, Condition.ofDocument?_tidy read]
      rfl

mutual

/-- A filter that is written is read back. -/
theorem ofDocument?_toDocument : (f : Filter) → ofDocument? f.toDocument = some f
  | ⟨operator, negated, children, condition⟩ => by
    rw [toDocument]
    exact ofDocument?_eq_some_iff.2
      ⟨some (.text operator.name), some (.bool negated), listToDocuments children, _, false, rfl,
        operator.named?_name, rfl, listOfDocuments?_listToDocuments children,
        conditionOf?_toDocument condition⟩

/-- Filters that are written one after the other are read back. -/
theorem listOfDocuments?_listToDocuments :
    (fs : List Filter) → listOfDocuments? (listToDocuments fs) = some fs
  | [] => by rw [listToDocuments, listOfDocuments?]
  | f :: fs => by
    rw [listToDocuments, listOfDocuments?, ofDocument?_toDocument f,
      listOfDocuments?_listToDocuments fs]
    rfl

end

mutual

/-- A filter is read from the tidy document as well. -/
theorem ofDocument?_tidy (d : Document) (f : Filter) (h : ofDocument? d = some f) :
    ofDocument? d.tidy = some f := by
  obtain ⟨operator, negated, children, condition, positional, fields, operated, signed, below,
    conditioned⟩ := ofDocument?_eq_some_iff.1 h
  have fields' := Document.fields?_tidy fields
  simp only [List.map_cons, List.map_nil, Option.map_some, Document.tidy,
    Document.tidyItems_eq_map] at fields'
  refine ofDocument?_eq_some_iff.2 ⟨_, _, _, _, _, fields', ?_, ?_, ?_, ?_⟩
  · exact Document.required_tidy (fun d read => Document.bareCase?_tidy read) operated
  · exact Document.required_tidy (fun d read => (Document.bool?_tidy d).trans read) signed
  · exact listOfDocuments?_map_tidy children f.children below
  · exact conditionOf?_tidy conditioned
termination_by sizeOf d
decreasing_by
  have smaller := Document.sizeOf_lt_of_mem_fields? (.array children) fields (by simp)
  simp only [Document.array.sizeOf_spec] at smaller
  omega

/-- Filters are read from tidy documents as well, one after the other. -/
theorem listOfDocuments?_map_tidy (ds : List Document) (fs : List Filter)
    (h : listOfDocuments? ds = some fs) : listOfDocuments? (ds.map Document.tidy) = some fs := by
  match ds with
  | [] => exact h
  | d :: rest =>
    rw [listOfDocuments?] at h
    obtain ⟨f, first, h⟩ := Option.bind_eq_some_iff.1 h
    obtain ⟨others, later, h⟩ := Option.bind_eq_some_iff.1 h
    rw [List.map_cons, listOfDocuments?, ofDocument?_tidy d f first,
      listOfDocuments?_map_tidy rest others later]
    exact h
termination_by sizeOf ds

end

end Filter

/-! ## Trees without a number -/

/-- A literal compares equal to itself if there is no number in it that may be none. -/
theorem Literal.NumberFree.beq_self {v : Literal} (h : v.NumberFree) : v.beq v = true := by
  induction h with
  | null => rfl
  | boolean b => exact beq_self_eq_true b
  | integer n => exact beq_self_eq_true n
  | text s => exact beq_self_eq_true s
  | @list items _ ih =>
    rw [beq]
    clear * - ih
    induction items with
    | nil => rfl
    | cons v rest each =>
      obtain ⟨first, later⟩ := List.forall_mem_cons.1 ih
      rw [beqItems, first, each later]
      rfl

namespace Filter

mutual

/-- A tree without a number is equal to itself. -/
theorem beq_self : (f : Filter) → (∀ c ∈ f.conditions, c.value.NumberFree) → f.beq f = true
  | ⟨operator, negated, children, condition⟩, h => by
    rw [conditions_eq, List.forall_mem_append] at h
    have below := beqAll_self children h.2
    have own : (condition == condition) = true := by
      cases condition with
      | none => rfl
      | some c =>
        show (c.field == c.field && c.comparator == c.comparator && c.value.beq c.value) = true
        simp [(h.1 c (by simp)).beq_self]
    simp [beq, below, own]

/-- Filters compare equal to themselves if there are no numbers in their literals. -/
theorem beqAll_self :
    (fs : List Filter) → (∀ c ∈ fs.flatMap conditions, c.value.NumberFree) → beqAll fs fs = true
  | [], _ => rfl
  | f :: fs, h => by
    rw [List.flatMap_cons, List.forall_mem_append] at h
    rw [beqAll, beq_self f h.1, beqAll_self fs h.2]
    rfl

end

/-- **A filter survives as a document.** A tree without a number is read back equal from the
document that it is written as, also if the members of its objects come in another order. The same
is true of every document that the tree is read from: in the order of its names it is read as that
tree too, and what is written after reading it is read as that tree again. -/
theorem survives_documents {f : Filter} (numberFree : ∀ c ∈ f.conditions, c.value.NumberFree) :
    (f == f) = true ∧ ofDocument? f.toDocument = some f ∧ ofDocument? f.toDocument.tidy = some f ∧
      ∀ d, ofDocument? d = some f → ofDocument? d.tidy = some f ∧
        ∃ e, (ofDocument? d).map toDocument = some e ∧ ofDocument? e = some f := by
  have written := ofDocument?_toDocument f
  refine ⟨beq_self f numberFree, written, ofDocument?_tidy _ f written, fun d read => ?_⟩
  refine ⟨ofDocument?_tidy d f read, f.toDocument, ?_, written⟩
  rw [read]
  rfl

/-- A negated leaf with an operator, a child that it does not need, and lists in a list. -/
def strayLeaf : Filter :=
  ⟨.or, true, [⟨.none, false, [], none⟩],
    some ⟨"", .isIn, .list [.integer (-0x8000000000000000), .list [.null, .text "Null"]]⟩⟩

/-- A document that `strayLeaf` is read from: an array, objects in the place of names, and members
in another order with one that is not known. -/
def strayLeafDocument : Document :=
  .array [.object [("Or", .null)], .bool true,
    .array [.object
      [("children", .array []), ("negated", .bool false), ("operator", .text "None")]],
    .object [("value", .object [("List", .array
      [.object [("Integer", .integer (-0x8000000000000000))],
      .object [("List", .array [.object [("Null", .null)], .object [("Text", .text "Null")]])]])]),
      ("note", .unreadable), ("field", .text ""), ("comparator", .object [("In", .null)])]]

/-- What is written after reading this document is read as the same tree. -/
theorem survives_documents_of_stray_leaf :
    (∀ c ∈ strayLeaf.conditions, c.value.NumberFree) ∧
      ofDocument? strayLeafDocument = some strayLeaf ∧
      ∃ e, (ofDocument? strayLeafDocument).map toDocument = some e ∧
        ofDocument? e = some strayLeaf := by
  have inner : (Literal.list [.null, .text "Null"]).NumberFree :=
    .list (by simp [Literal.NumberFree.null, Literal.NumberFree.text])
  have numberFree : ∀ c ∈ strayLeaf.conditions, c.value.NumberFree := by
    intro c member
    rw [List.mem_singleton.1 (show c ∈ [_] from member)]
    exact .list (by simp [Literal.NumberFree.integer, inner])
  have of_case {d : Document} {name : String} {content : Option Document} {v : Literal}
      (found : d.case? = some (name, content)) (read : Literal.ofCase? name content = some v) :
      Literal.ofDocument? d = some v := (Literal.ofDocument?_of_case found).trans read
  have of_list {items : List Document} {vs : List Literal}
      (each : Literal.listOfDocuments? items = some vs) :
      Literal.ofDocument? (.object [("List", .array items)]) = some (.list vs) :=
    of_case rfl (congrArg (Option.map Literal.list) each)
  have of_pair {d d' : Document} {v v' : Literal} (first : Literal.ofDocument? d = some v)
      (second : Literal.ofDocument? d' = some v') :
      Literal.listOfDocuments? [d, d'] = some [v, v'] := by
    simp [Literal.listOfDocuments?, first, second]
  have least : Literal.ofDocument? (.object [("Integer", .integer (-0x8000000000000000))]) =
      some (.integer (-0x8000000000000000)) := of_case rfl rfl
  have value := of_list (of_pair least (of_list (of_pair
    (of_case (d := .object [("Null", .null)]) rfl rfl)
    (of_case (d := .object [("Text", .text "Null")]) rfl rfl))))
  have condition := (Condition.ofDocument?_eq_some_iff (c := ⟨"", .isIn, _⟩)
    (d := .object [("value", _), ("note", .unreadable), ("field", .text ""),
      ("comparator", .object [("In", .null)])])).2
    ⟨some (.text ""), some (.object [("In", .null)]), some _, false, rfl, rfl, rfl, value⟩
  have child : listOfDocuments? [.object [("children", .array []), ("negated", .bool false),
      ("operator", .text "None")]] = some [⟨.none, false, [], none⟩] := by
    have no_children : listOfDocuments? [] = some [] := by rw [listOfDocuments?]
    rw [listOfDocuments?, no_children, (ofDocument?_eq_some_iff (f := ⟨.none, false, [], none⟩)).2
      ⟨some (.text "None"), some (.bool false), [], none, false, rfl, rfl, rfl, no_children, rfl⟩]
    rfl
  have read : ofDocument? strayLeafDocument = some strayLeaf :=
    ofDocument?_eq_some_iff.2 ⟨_, _, _, _, true, rfl, rfl, rfl, child,
      congrArg (Option.map some) condition⟩
  obtain ⟨-, -, -, again⟩ := survives_documents numberFree
  exact ⟨numberFree, read, (again _ read).2⟩

end Filter

end DataService
