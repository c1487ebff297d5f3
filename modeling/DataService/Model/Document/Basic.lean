/-!
# Documents

A `Document` is a value of the usual interchange format: null, booleans, numbers, text, arrays and
objects. Settings, service definitions and filters are read from documents, and the cells of a row
are documents that pass through unread. Integers and floating point numbers are different
documents, also where their values agree. An object keeps its members as they were written, a
repeated name included; `tidy` gives the object that counts as equal whatever the order.

A written document may have parts that keep to its grammar and yet stand for no value, such as a
number too large. They are `unreadable`: nothing is read from one, and it does no harm where nobody
reads it.
-/

set_option autoImplicit false

namespace DataService

/-- A document of the interchange format. -/
inductive Document where
  | null
  | bool (value : Bool)
  | integer (value : Int)
  | number (value : Float)
  | text (value : String)
  | array (items : List Document)
  | object (members : List (String × Document))
  /-- A part that stands for no value. -/
  | unreadable

namespace Document

instance : Inhabited Document := ⟨.null⟩

mutual

/-- Equality of documents, with numbers compared as floating point numbers and the members of
objects compared in order. -/
def beq : Document → Document → Bool
  | .null, .null => true
  | .bool a, .bool b => a == b
  | .integer a, .integer b => a == b
  | .number a, .number b => a == b
  | .text a, .text b => a == b
  | .array a, .array b => beqItems a b
  | .object a, .object b => beqMembers a b
  | .unreadable, .unreadable => true
  | _, _ => false

/-- Equality of the items of arrays, one by one. -/
def beqItems : List Document → List Document → Bool
  | [], [] => true
  | a :: as, b :: bs => beq a b && beqItems as bs
  | _, _ => false

/-- Equality of the members of objects, one by one. -/
def beqMembers : List (String × Document) → List (String × Document) → Bool
  | [], [] => true
  | (k, a) :: as, (j, b) :: bs => k == j && beq a b && beqMembers as bs
  | _, _ => false

end

instance : BEq Document := ⟨beq⟩

mutual

/-- Whether every part of a document stands for a value. -/
def isReadable : Document → Bool
  | .unreadable => false
  | .array items => itemsReadable items
  | .object members => membersReadable members
  | _ => true

/-- Whether every item of an array is readable. -/
def itemsReadable : List Document → Bool
  | [] => true
  | d :: ds => isReadable d && itemsReadable ds

/-- Whether the value of every member is readable. -/
def membersReadable : List (String × Document) → Bool
  | [] => true
  | (_, d) :: rest => isReadable d && membersReadable rest

end

/-- Writes a member into a list that is sorted by name, over an older one of the same name. -/
def insertMember (name : String) (value : Document) :
    List (String × Document) → List (String × Document)
  | [] => [(name, value)]
  | (n, v) :: rest =>
    if name < n then (name, value) :: (n, v) :: rest
    else if name = n then (name, value) :: rest
    else (n, v) :: insertMember name value rest

mutual

/-- The same document with the members of every object sorted by name; of members with one name
the last stands. -/
def tidy : Document → Document
  | .array items => .array (tidyItems items)
  | .object members => .object (tidyMembers members [])
  | d => d

/-- The items of an array, each of them tidy. -/
def tidyItems : List Document → List Document
  | [] => []
  | d :: ds => tidy d :: tidyItems ds

/-- Adds the members of an object, each of them tidy, to a sorted list. -/
def tidyMembers : List (String × Document) → List (String × Document) → List (String × Document)
  | [], sorted => sorted
  | (n, d) :: rest, sorted => tidyMembers rest (insertMember n (tidy d) sorted)

end

end Document

end DataService
