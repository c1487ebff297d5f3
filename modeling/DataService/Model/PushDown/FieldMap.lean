import DataService.Model.Table
import DataService.Model.Document.Record

/-!
# Field maps

A field map says under which name an earlier step knows a field of a query. Of two mappings of
one field the later one stands.
-/

set_option autoImplicit false

namespace DataService

/-- The renaming of one field. -/
structure FieldMapping where
  source : String
  target : String
  deriving DecidableEq, Repr, Inhabited

/-- Reads a mapping. -/
def FieldMapping.ofDocument? (d : Document) : Option FieldMapping := do
  match (← d.fields? ["source", "target"]).values with
  | [source, target] =>
    return { source := ← Document.required Document.text? source
             target := ← Document.required Document.text? target }
  | _ => none

/-- The names by which an earlier step knows fields. -/
structure FieldMap where
  targets : Table String String := .empty

namespace FieldMap

/-- The map without fields. -/
def empty : FieldMap := {}

instance : Inhabited FieldMap := ⟨empty⟩

/-- Adds a mapping over an older one of the same field. -/
def insert (m : FieldMap) (source target : String) : FieldMap := ⟨m.targets.put source target⟩

/-- The map of a list of mappings. -/
def ofList (mappings : List FieldMapping) : FieldMap :=
  mappings.foldl (fun m p => m.insert p.source p.target) empty

/-- The name by which the earlier step knows a field. -/
def target? (m : FieldMap) (source : String) : Option String := m.targets.get? source

/-- The number of mapped fields. -/
def size (m : FieldMap) : Nat := m.targets.size

@[simp] theorem target?_empty (source : String) : empty.target? source = none := rfl

/-- A new mapping decides its own field and no other. -/
theorem target?_insert (m : FieldMap) (source target field : String) :
    (m.insert source target).target? field =
      if field = source then some target else m.target? field := by
  simp [target?, insert, Table.get?_put]

end FieldMap

end DataService
