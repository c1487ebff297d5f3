import DataService.Model.Text.Printable

/-!
# Text in quotes

`Text.quoted` writes a text so that every character of it can be seen. The quote and the backslash
are escaped, a line end, a return, a tab and NUL have short names, and any other character that
does not print, or is a mark on the one before, is given by its code point in hexadecimal digits.
-/

set_option autoImplicit false

namespace DataService.Text

/-- A character as it stands in quotes. -/
def quotedChar (c : Char) : String :=
  match c with
  | '"' => "\\\""
  | '\\' => "\\\\"
  | '\n' => "\\n"
  | '\r' => "\\r"
  | '\t' => "\\t"
  | '\x00' => "\\0"
  | c =>
    if isPrintable c && !isExtendingMark c then String.singleton c
    else "\\u\x7b" ++ String.ofList (Nat.toDigits 16 c.toNat) ++ "\x7d"

/-- A text in quotes. -/
def quoted (s : String) : String := "\"" ++ String.join (s.toList.map quotedChar) ++ "\""

end DataService.Text
