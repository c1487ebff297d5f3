import DataService.Model.Document.Basic

/-!
# Reading values out of documents

The rules by which documents are read are strict. A scalar is taken only from a document of its
own kind; an integer has to be written as one and to fit its range. A record is taken from an
object, whose unknown members are passed over and whose known members come at most once, or from
the array of its fields in order. A named case without content is its bare name, or an object with
the name as its only member and null under it; a case with content is the object with the content
under the name. Reading fails as a whole, and says no more than that it failed.
-/

set_option autoImplicit false

namespace DataService.Document

/-- Reads a truth value. -/
def bool? : Document → Option Bool
  | .bool b => some b
  | _ => none

/-- Reads a text. -/
def text? : Document → Option String
  | .text s => some s
  | _ => none

/-- Reads an unsigned 64-bit integer. -/
def uint64? : Document → Option UInt64
  | .integer n =>
    if 0 ≤ n ∧ n < 0x10000000000000000 then some (UInt64.ofNat n.toNat) else none
  | _ => none

/-- Reads a signed 64-bit integer. -/
def int64? : Document → Option Int64
  | .integer n =>
    if -0x8000000000000000 ≤ n ∧ n < 0x8000000000000000 then some (Int64.ofInt n) else none
  | _ => none

/-- Reads a floating point number; an integer is taken for the nearest one. -/
def number? : Document → Option Float
  | .number x => some x
  | .integer n => some (Float.ofInt n)
  | _ => none

/-- Reads the items of an array. -/
def array? : Document → Option (List Document)
  | .array items => some items
  | _ => none

/-- Reads every item of an array by one rule. -/
def listOf? {α : Type} (item : Document → Option α) (d : Document) : Option (List α) :=
  d.array?.bind (·.mapM item)

/-- Reads an object whose member names are free as pairs. -/
def bindings? {α : Type} (value : Document → Option α) : Document → Option (List (String × α))
  | .object members => members.mapM fun m => (value m.2).map (m.1, ·)
  | _ => none

/-- The fields of a record, before they are read: absent ones are `none`. -/
structure Fields where
  /-- One entry for each field, in the order of the record. -/
  values : List (Option Document)
  /-- The fields came as an array, so that a field can only be absent at the end. -/
  positional : Bool

/-- The only member of a name: `none` if the name is repeated, `some none` if it is absent. -/
def member? (members : List (String × Document)) (name : String) : Option (Option Document) :=
  match members.filter (·.1 == name) with
  | [] => some none
  | [m] => some (some m.2)
  | _ => none

/-- The fields of a record with the given names. -/
def fields? (names : List String) : Document → Option Fields
  | .object members => (names.mapM (member? members)).map (⟨·, false⟩)
  | .array items =>
    if items.length ≤ names.length then
      some ⟨items.map some ++ List.replicate (names.length - items.length) none, true⟩
    else none
  | _ => none

/-- Reads a field that has to be there. -/
def required {α : Type} (read : Document → Option α) (field : Option Document) : Option α :=
  field.bind read

/-- Reads a field that stands for a default where it is absent. Null is not the default. -/
def defaulting {α : Type} (default : α) (read : Document → Option α) :
    Option Document → Option α
  | none => some default
  | some d => read d

/-- The name and the content of a case: a bare name has no content. -/
def case? : Document → Option (String × Option Document)
  | .text name => some (name, none)
  | .object [(name, content)] => some (name, some content)
  | _ => none

/-- Whether the content of a case is that of a case without content: nothing, or null. -/
def isBare : Option Document → Bool
  | none => true
  | some .null => true
  | _ => false

/-- Reads a case without content by its name. -/
def bareCase? {α : Type} (named : String → Option α) (d : Document) : Option α :=
  match d.case? with
  | some (name, content) => if isBare content then named name else none
  | none => none

/-- The value under a name in an object, and null in every other case. -/
def get (d : Document) (name : String) : Document :=
  match d with
  | .object members => (members.lookup name).getD .null
  | _ => .null

end DataService.Document
