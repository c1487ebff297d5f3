import DataService.Model.Document.Record

/-!
# Rows and their layouts

A row is a list of cells that nothing here looks into. A `Layout` names the step that rows leave
and the fields they have; a layout without fields is unknown and lets every row pass.
-/

set_option autoImplicit false

namespace DataService

/-- A captured row. -/
structure Row where
  cells : List Document

instance : BEq Row := ⟨fun a b => a.cells == b.cells⟩

instance : Inhabited Row := ⟨⟨[]⟩⟩

/-- The layout of the rows that leave a step. -/
structure Layout where
  step : String := ""
  fields : List String := []
  deriving DecidableEq, Repr, Inhabited

namespace Layout

/-- The position of a field. -/
def indexOf? (layout : Layout) (field : String) : Option Nat := layout.fields.idxOf? field

/-- Reads a layout. -/
def ofDocument? (d : Document) : Option Layout := do
  match (← d.fields? ["step", "fields"]).values with
  | [step, fields] =>
    return { step := ← Document.required Document.text? step
             fields := ← Document.required (Document.listOf? Document.text?) fields }
  | _ => none

end Layout

/-- Why a row could not be taken over. -/
inductive RowFault where
  /-- The row has another number of cells than its layout has fields. -/
  | arity (expected found : Nat)
  /-- A reason given in words. -/
  | stated (reason : String)
  deriving DecidableEq, Repr

/-- The wording of a fault. -/
def RowFault.message : RowFault → String
  | .arity expected found => "expected " ++ toString expected ++ " values, got " ++ toString found
  | .stated reason => reason

/-- Takes over a row that was written under a layout. A known layout fixes the number of cells. -/
def Row.capture (layout : Layout) (cells : List Document) : Except RowFault Row :=
  if layout.fields ≠ [] ∧ cells.length ≠ layout.fields.length then
    .error (.arity layout.fields.length cells.length)
  else .ok ⟨cells⟩

end DataService
