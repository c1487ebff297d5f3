import DataService.Model.Filter.Tree
import DataService.Model.Document.Reader
import DataService.Model.Document.Record
import DataService.Model.Document.Writer

/-!
# Filters as documents

A filter is written as an object with the members `operator`, `negated`, `children` and
`condition`, a condition as one with `field`, `comparator` and `value`; literals and names are
cases. `Filter.ofDocument?` reads every form that `Document.fields?` and `Document.case?` allow, so
it accepts more than `Filter.toDocument` writes. A condition may be missing from an object, but not
from the array of the four fields.
-/

set_option autoImplicit false

namespace DataService

namespace Operator

/-- The name of an operator. -/
def name : Operator → String
  | .none => "None"
  | .and => "And"
  | .or => "Or"

/-- The operator of a name. -/
def named? : String → Option Operator
  | "None" => some .none
  | "And" => some .and
  | "Or" => some .or
  | _ => Option.none

/-- Reads an operator. -/
def ofDocument? : Document → Option Operator := Document.bareCase? named?

end Operator

namespace Comparator

/-- The name of a comparator. -/
def name : Comparator → String
  | .eq => "Eq"
  | .ne => "Ne"
  | .lt => "Lt"
  | .le => "Le"
  | .gt => "Gt"
  | .ge => "Ge"
  | .like => "Like"
  | .isIn => "In"
  | .isNull => "IsNull"
  | .isNotNull => "IsNotNull"

/-- The comparator of a name. -/
def named? : String → Option Comparator
  | "Eq" => some .eq
  | "Ne" => some .ne
  | "Lt" => some .lt
  | "Le" => some .le
  | "Gt" => some .gt
  | "Ge" => some .ge
  | "Like" => some .like
  | "In" => some .isIn
  | "IsNull" => some .isNull
  | "IsNotNull" => some .isNotNull
  | _ => none

/-- Reads a comparator. -/
def ofDocument? : Document → Option Comparator := Document.bareCase? named?

end Comparator

namespace Document

/-- The items of an array are smaller than the array. -/
theorem sizeOf_lt_of_mem_array {d : Document} {items : List Document} (h : d ∈ items) :
    sizeOf d < sizeOf (Document.array items) := by
  have := List.sizeOf_lt_of_mem h
  simp only [array.sizeOf_spec]; omega

/-- The members of an object are smaller than the object. -/
theorem sizeOf_lt_of_member? {members : List (String × Document)} {n : String} {d : Document}
    (h : member? members n = some (some d)) : sizeOf d < sizeOf (Document.object members) := by
  unfold member? at h
  split at h
  · simp at h
  · rename_i m heq
    have hm : m ∈ members := (List.mem_filter.1 (heq ▸ List.mem_singleton.2 rfl)).1
    have h1 := List.sizeOf_lt_of_mem hm
    simp only [Option.some.injEq] at h
    subst h
    obtain ⟨k, v⟩ := m
    simp only [Prod.mk.sizeOf_spec, object.sizeOf_spec] at h1 ⊢
    omega
  · simp at h

/-- Values that were read for several names are members under these names. -/
private theorem exists_member?_of_mapM {members : List (String × Document)} {names : List String}
    {values : List (Option Document)} (h : names.mapM (member? members) = some values)
    {d : Document} (hd : some d ∈ values) : ∃ n, member? members n = some (some d) := by
  induction names generalizing values with
  | nil => simp at h; subst h; simp at hd
  | cons n ns ih =>
    simp only [List.mapM_cons, Option.pure_def, Option.bind_eq_bind, Option.bind_eq_some_iff,
      Option.some.injEq] at h
    obtain ⟨v, hv, vs, hvs, rfl⟩ := h
    rcases List.mem_cons.1 hd with rfl | hd
    · exact ⟨n, hv⟩
    · exact ih hvs hd

/-- The fields of a record are smaller than the document they came in. -/
theorem sizeOf_lt_of_mem_fields? {names : List String} {d : Document} {fs : Fields}
    (field : Document) (h : d.fields? names = some fs) (hf : some field ∈ fs.values) :
    sizeOf field < sizeOf d := by
  cases d with
  | object members =>
    simp only [fields?, Option.map_eq_some_iff] at h
    obtain ⟨values, hv, rfl⟩ := h
    obtain ⟨n, hn⟩ := exists_member?_of_mapM hv hf
    exact sizeOf_lt_of_member? hn
  | array items =>
    simp only [fields?] at h
    split at h
    · simp only [Option.some.injEq] at h
      subst h
      simp only [List.mem_append, List.mem_map, Option.some.injEq, exists_eq_right,
        List.mem_replicate, reduceCtorEq, and_false, or_false] at hf
      exact sizeOf_lt_of_mem_array hf
    · simp at h
  | _ => simp [fields?] at h

/-- The content of a case is smaller than the document it came in. -/
theorem sizeOf_lt_of_case? {d content : Document} {n : String}
    (h : d.case? = some (n, some content)) : sizeOf content < sizeOf d := by
  unfold case? at h
  split at h
  · simp at h
  · simp only [Option.some.injEq, Prod.mk.injEq] at h
    obtain ⟨rfl, rfl⟩ := h
    simp; omega
  · simp at h

end Document

namespace Literal

mutual

/-- Reads a literal. -/
def ofDocument? (d : Document) : Option Literal :=
  match _h : d.case? with
  | some ("Null", content) => if Document.isBare content then some .null else none
  | some ("Boolean", some content) => content.bool?.map .boolean
  | some ("Integer", some content) => content.int64?.map .integer
  | some ("Number", some content) => content.number?.map .number
  | some ("Text", some content) => content.text?.map .text
  | some ("List", some (.array items)) => (listOfDocuments? items).map .list
  | _ => none
termination_by sizeOf d
decreasing_by
  have := Document.sizeOf_lt_of_case? _h
  simp only [Document.array.sizeOf_spec] at this; omega

/-- Reads literals one after the other. -/
def listOfDocuments? (ds : List Document) : Option (List Literal) :=
  match ds with
  | [] => some []
  | d :: rest => do
    let v ← ofDocument? d
    let vs ← listOfDocuments? rest
    return v :: vs
termination_by sizeOf ds

end

mutual

/-- Writes a literal. -/
def toDocument : Literal → Document
  | .null => .text "Null"
  | .boolean b => .object [("Boolean", .bool b)]
  | .integer n => .object [("Integer", .integer n.toInt)]
  | .number x => .object [("Number", .number x)]
  | .text s => .object [("Text", .text s)]
  | .list items => .object [("List", .array (listToDocuments items))]

/-- Writes literals one after the other. -/
def listToDocuments : List Literal → List Document
  | [] => []
  | v :: vs => toDocument v :: listToDocuments vs

end

end Literal

namespace Condition

/-- Reads a condition. -/
def ofDocument? (d : Document) : Option Condition := do
  match (← d.fields? ["field", "comparator", "value"]).values with
  | [field, comparator, value] =>
    return { field := ← Document.required Document.text? field
             comparator := ← Document.required Comparator.ofDocument? comparator
             value := ← Document.required Literal.ofDocument? value }
  | _ => none

/-- Writes a condition. -/
def toDocument (c : Condition) : Document :=
  .object [("field", .text c.field), ("comparator", .text c.comparator.name),
    ("value", c.value.toDocument)]

end Condition

namespace Filter

/-- Reads the condition of a node: absent and null are none, but an array has to give it. -/
def conditionOf? (positional : Bool) : Option Document → Option (Option Condition)
  | none => if positional then none else some none
  | some .null => some none
  | some d => (Condition.ofDocument? d).map some

mutual

/-- Reads a filter. -/
def ofDocument? (d : Document) : Option Filter :=
  match _h : d.fields? ["operator", "negated", "children", "condition"] with
  | some ⟨[operator, negated, some (.array children), condition], positional⟩ => do
    return { operator := ← Document.required Operator.ofDocument? operator
             negated := ← Document.required Document.bool? negated
             children := ← listOfDocuments? children
             condition := ← conditionOf? positional condition }
  | _ => none
termination_by sizeOf d
decreasing_by
  have := Document.sizeOf_lt_of_mem_fields? (.array children) _h (by simp)
  simp only [Document.array.sizeOf_spec] at this; omega

/-- Reads filters one after the other. -/
def listOfDocuments? (ds : List Document) : Option (List Filter) :=
  match ds with
  | [] => some []
  | d :: rest => do
    let f ← ofDocument? d
    let fs ← listOfDocuments? rest
    return f :: fs
termination_by sizeOf ds

end

mutual

/-- Writes a filter. -/
def toDocument : Filter → Document
  | ⟨operator, negated, children, condition⟩ =>
    .object [("operator", .text operator.name), ("negated", .bool negated),
      ("children", .array (listToDocuments children)),
      ("condition", (condition.map Condition.toDocument).getD .null)]

/-- Writes filters one after the other. -/
def listToDocuments : List Filter → List Document
  | [] => []
  | f :: fs => toDocument f :: listToDocuments fs

end

/-- Reads a filter from text. -/
def ofText? (text : String) : Option Filter := (Document.read? text).bind ofDocument?

/-- Writes a filter as text. -/
def toText (f : Filter) : String := f.toDocument.write

end Filter

end DataService
