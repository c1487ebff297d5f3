import DataService.Model.Filter.Simplify
import DataService.Model.Decimal.NumberForm

/-!
# Canonical filter text

The text by which a filter enters a cache key. `Filter.render` writes a tree: a composite is its
parts in parentheses with the operator between them; a negated tree has `NOT` in front of the
parentheses, which are added where there are none; a field that is no plain name and every text
stand in quotes, which are doubled inside. `canonicalText` simplifies first, and has no text for a
filter of which nothing is left.

Everything is written as lists of characters; the text is put together once, at the end.
-/

set_option autoImplicit false

namespace DataService

/-- The items with a separator between them. -/
def separated (separator : List Char) : List (List Char) → List Char
  | [] => []
  | [item] => item
  | item :: rest => item ++ separator ++ separated separator rest

/-- The characters in quotes, with the quotes inside them doubled. -/
def quoted (mark : Char) (cs : List Char) : List Char :=
  mark :: cs.flatMap (fun c => if c = mark then [mark, mark] else [c]) ++ [mark]

/-- The characters a plain name begins with: ASCII letters and the underscore. -/
def isNameStart (c : Char) : Bool := c.isAlpha || c == '_'

/-- The characters a plain name goes on with: ASCII letters and digits and the underscore. -/
def isNameRest (c : Char) : Bool := c.isAlphanum || c == '_'

/-- Whether a field is written without quotes. -/
def isPlainName : List Char → Bool
  | [] => false
  | c :: cs => isNameStart c && cs.all isNameRest

/-- A field as it is written. -/
def writtenField (field : List Char) : List Char :=
  if isPlainName field then field else quoted '"' field

namespace Literal

mutual

/-- A literal as it is written. -/
def written : Literal → List Char
  | .null => "NULL".toList
  | .boolean b => if b then "TRUE".toList else "FALSE".toList
  | .integer n => (toString n.toInt).toList
  | .number x => (Decimal.NumberForm.plain.write x).toList
  | .text s => quoted '\'' s.toList
  | .list items => '(' :: separated [',', ' '] (writtenItems items) ++ [')']

/-- The items of a list as they are written. -/
def writtenItems : List Literal → List (List Char)
  | [] => []
  | v :: vs => written v :: writtenItems vs

end

end Literal

/-- A condition as it is written. -/
def Condition.written (c : Condition) : List Char :=
  let front := writtenField c.field.toList ++ ' ' :: c.comparator.sql.toList
  if c.comparator.isUnary then front else front ++ ' ' :: c.value.written

/-- What stands between the parts of a composite. -/
def Operator.joiner : Operator → List Char
  | .or => " OR ".toList
  | .and | .none => " AND ".toList

namespace Filter

/-- The body of a tree with its negation in front. -/
def writtenSign (negated : Bool) (body : List Char) : List Char :=
  if negated then
    if body.head? = some '(' then "NOT ".toList ++ body
    else "NOT (".toList ++ body ++ [')']
  else body

mutual

/-- A tree as it is written. -/
def written : Filter → List Char
  | ⟨_, negated, _, some condition⟩ => writtenSign negated condition.written
  | ⟨operator, negated, children, none⟩ =>
    writtenSign negated ('(' :: separated operator.joiner (writtenAll children) ++ [')'])

/-- Several trees as they are written. -/
def writtenAll : List Filter → List (List Char)
  | [] => []
  | f :: fs => written f :: writtenAll fs

end

/-- The text of a tree. -/
def render (f : Filter) : String := String.ofList f.written

/-- The canonical text of a filter; none if it has neither a condition nor children left. -/
def canonicalText (f : Filter) : Option String :=
  let s := f.simplify
  if !s.isLeaf && s.children.isEmpty then none else some s.render

end Filter

end DataService
