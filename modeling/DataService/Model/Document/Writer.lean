import DataService.Model.Document.Basic
import DataService.Model.Decimal.NumberForm

/-!
# Writing documents as text

`Document.write` gives the compact text of a document: no blanks between the parts, members in
their order. In a text only the quote, the backslash and the control characters are escaped; a
control character with a short name is written by it, the others by two hexadecimal digits. What
has no written form, such as a number that is not finite, is written as null.
-/

set_option autoImplicit false

namespace DataService.Document

/-- The lower-case hexadecimal digit of a value below sixteen. -/
def hexDigit (n : Nat) : Char := Nat.digitChar n

/-- A character as it is written inside a text. -/
def escape (c : Char) : List Char :=
  match c with
  | '"' => ['\\', '"']
  | '\\' => ['\\', '\\']
  | '\x08' => ['\\', 'b']
  | '\x0c' => ['\\', 'f']
  | '\n' => ['\\', 'n']
  | '\r' => ['\\', 'r']
  | '\t' => ['\\', 't']
  | c =>
    if c.toNat < 0x20 then ['\\', 'u', '0', '0', hexDigit (c.toNat / 16), hexDigit (c.toNat % 16)]
    else [c]

/-- A text in quotes. -/
def quote (s : String) : String :=
  String.ofList ('"' :: s.toList.flatMap escape ++ ['"'])

mutual

/-- The compact text of a document. -/
def write : Document → String
  | .null => "null"
  | .bool b => if b then "true" else "false"
  | .integer n => toString n
  | .number x => if x.isFinite then Decimal.NumberForm.document.write x else "null"
  | .text s => quote s
  | .array items => "[" ++ String.intercalate "," (writeItems items) ++ "]"
  | .object members => "\x7b" ++ String.intercalate "," (writeMembers members) ++ "\x7d"
  | .unreadable => "null"

/-- The texts of the items of an array. -/
def writeItems : List Document → List String
  | [] => []
  | d :: ds => write d :: writeItems ds

/-- The texts of the members of an object. -/
def writeMembers : List (String × Document) → List String
  | [] => []
  | (n, d) :: rest => (quote n ++ ":" ++ write d) :: writeMembers rest

end

end DataService.Document
