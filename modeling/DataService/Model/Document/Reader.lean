import DataService.Model.Document.Basic

/-!
# Reading documents from text

`Document.read?` takes a text apart into a document, or fails. The grammar is the usual one: blanks
are the space, the tab and the two line ends; a number has no leading zero and no leading point; a
text holds no raw control character. An integer within the range of the signed or the unsigned
64-bit integers is an integer, any other number a floating point number, read to the nearest; minus
zero is not an integer.

What keeps to the grammar but is no document is `unreadable` where it stands: a number too large
for a floating point number, a text that spells half of a surrogate pair, an object with a member
of such a name, and arrays and objects nested deeper than allowed; `nestingLimit` is what is usually
allowed. Only a text without such parts is read by `Document.readWhole?`.

Each reader hands back what is left of its input together with a proof that this is shorter, and
the recursion goes by the length of the input.
-/

set_option autoImplicit false

namespace DataService.Document

/-- Arrays and objects may usually stand inside one another this many times. -/
def nestingLimit : Nat := 127

/-- What a reader found at the front of `input`, and what comes after it. -/
structure Found (α : Type) (input : List Char) where
  value : α
  rest : List Char
  shorter : rest.length < input.length

/-- The blanks between the parts of a document. -/
def isBlank (c : Char) : Bool := c == ' ' || c == '\t' || c == '\n' || c == '\r'

/-- The input without the blanks at its front. -/
def skipBlanks (input : List Char) : List Char := input.dropWhile isBlank

/-- Skipping blanks makes an input no longer. -/
theorem length_skipBlanks_le (input : List Char) : (skipBlanks input).length ≤ input.length :=
  (List.dropWhile_suffix isBlank).length_le

/-- The value of a hexadecimal digit. -/
def hexDigit? (c : Char) : Option Nat :=
  if '0' ≤ c ∧ c ≤ '9' then some (c.toNat - '0'.toNat)
  else if 'a' ≤ c ∧ c ≤ 'f' then some (c.toNat - 'a'.toNat + 10)
  else if 'A' ≤ c ∧ c ≤ 'F' then some (c.toNat - 'A'.toNat + 10)
  else none

/-- The number that four hexadecimal digits spell. -/
def hexUnit? (a b c d : Char) : Option Nat := do
  let a ← hexDigit? a
  let b ← hexDigit? b
  let c ← hexDigit? c
  let d ← hexDigit? d
  return ((a * 16 + b) * 16 + c) * 16 + d

/-- The character that a letter behind a backslash stands for. -/
def escaped? : Char → Option Char
  | '"' => some '"'
  | '\\' => some '\\'
  | '/' => some '/'
  | 'b' => some '\x08'
  | 'f' => some '\x0c'
  | 'n' => some '\n'
  | 'r' => some '\r'
  | 't' => some '\t'
  | _ => none

/-- A piece of a text as it was written: a character, or a 16-bit unit that its number names. -/
inductive Piece where
  | char (c : Char)
  | unit (number : Nat)

/-- Reads the pieces of a text up to its closing quote; the opening one is already read. The pieces
found so far are kept latest first. -/
def textTail? (found : List Piece) : List Char → Option (List Piece × List Char)
  | [] => none
  | '"' :: rest => some (found.reverse, rest)
  | '\\' :: 'u' :: a :: b :: c :: d :: rest =>
    match hexUnit? a b c d with
    | none => none
    | some unit => textTail? (.unit unit :: found) rest
  | '\\' :: c :: rest =>
    match escaped? c with
    | none => none
    | some e => textTail? (.char e :: found) rest
  | c :: rest => if c.toNat < 0x20 then none else textTail? (.char c :: found) rest

/-- The rest behind a text is shorter than the input, since the closing quote at least was read. -/
theorem length_lt_of_textTail? {found pieces : List Piece} {input rest : List Char}
    (h : textTail? found input = some (pieces, rest)) : rest.length < input.length := by
  fun_induction textTail? found input <;> simp_all <;> omega

/-- Whether a unit is the first half of a surrogate pair. -/
def isHighHalf (unit : Nat) : Bool := 0xD800 ≤ unit && unit < 0xDC00

/-- Whether a unit is the second half of a surrogate pair. -/
def isLowHalf (unit : Nat) : Bool := 0xDC00 ≤ unit && unit < 0xE000

/-- The text that pieces spell. The two halves of a surrogate pair are one character together, and
a half on its own spells nothing. The characters found so far are kept latest first. -/
def spelled? (found : List Char) : List Piece → Option String
  | [] => some (String.ofList found.reverse)
  | .char c :: rest => spelled? (c :: found) rest
  | .unit n :: rest =>
    if isHighHalf n then
      match rest with
      | .unit m :: rest' =>
        if isLowHalf m then
          spelled? (Char.ofNat (0x10000 + (n - 0xD800) * 0x400 + (m - 0xDC00)) :: found) rest'
        else none
      | _ => none
    else if isLowHalf n then none
    else spelled? (Char.ofNat n :: found) rest

/-- The value of a run of decimal digits. -/
def digitsValue (digits : List Char) : Nat :=
  digits.foldl (fun n c => n * 10 + (c.toNat - '0'.toNat)) 0

/-- A number as it was written: `mantissa * 10 ^ (scale - places)`, integral when it had neither a
point nor an exponent. -/
structure Numeral where
  negative : Bool
  mantissa : Nat
  places : Nat
  scale : Int
  integral : Bool

/-- The digits at the front of the input, of which there must be one. -/
def digits1? (input : List Char) : Option (Found (List Char) input) :=
  match h : input with
  | [] => none
  | c :: cs =>
    if c.isDigit then
      some ⟨c :: cs.takeWhile Char.isDigit, cs.dropWhile Char.isDigit, by
        have := (List.dropWhile_suffix Char.isDigit (l := cs)).length_le
        simp only [List.length_cons]; omega⟩
    else none

/-- Reads the part of a number before its point: a lone zero, or digits that start with no zero. -/
def wholePart? (input : List Char) : Option (Found (List Char) input) :=
  match digits1? input with
  | none => none
  | some found =>
    match found.value with
    | '0' :: _ :: _ => none
    | _ => some found

/-- Reads the fraction of a number, if one follows. -/
def fractionPart? (input : List Char) : Option (Option (Found (List Char) input)) :=
  match h : input with
  | '.' :: rest =>
    match digits1? rest with
    | none => none
    | some f => some (some ⟨f.value, f.rest, by
        have := f.shorter
        simp only [List.length_cons]; omega⟩)
  | _ => some none

/-- Reads the exponent of a number, if one follows. -/
def exponentPart? (input : List Char) : Option (Option (Found Int input)) :=
  match h : input with
  | c :: rest =>
    if c = 'e' ∨ c = 'E' then
      match hr : rest with
      | '-' :: rest' =>
        match digits1? rest' with
        | none => none
        | some f => some (some ⟨-(digitsValue f.value : Int), f.rest, by
            have := f.shorter; simp only [List.length_cons]; omega⟩)
      | '+' :: rest' =>
        match digits1? rest' with
        | none => none
        | some f => some (some ⟨digitsValue f.value, f.rest, by
            have := f.shorter; simp only [List.length_cons]; omega⟩)
      | _ =>
        match digits1? rest with
        | none => none
        | some f => some (some ⟨digitsValue f.value, f.rest, by
            have := f.shorter; simp only [hr, List.length_cons] at this ⊢; omega⟩)
    else some none
  | [] => some none

/-- Reads a number that has no sign, or whose sign is already read. -/
def numeral? (negative : Bool) (input : List Char) : Option (Found Numeral input) := do
  let whole ← wholePart? input
  let fraction ← fractionPart? whole.rest
  match fraction with
  | none =>
    match ← exponentPart? whole.rest with
    | none => return ⟨⟨negative, digitsValue whole.value, 0, 0, true⟩, whole.rest, whole.shorter⟩
    | some e =>
      return ⟨⟨negative, digitsValue whole.value, 0, e.value, false⟩, e.rest,
        Nat.lt_trans e.shorter whole.shorter⟩
  | some f =>
    let mantissa := digitsValue (whole.value ++ f.value)
    match ← exponentPart? f.rest with
    | none => return ⟨⟨negative, mantissa, f.value.length, 0, false⟩, f.rest,
        Nat.lt_trans f.shorter whole.shorter⟩
    | some e =>
      return ⟨⟨negative, mantissa, f.value.length, e.value, false⟩, e.rest,
        Nat.lt_trans e.shorter (Nat.lt_trans f.shorter whole.shorter)⟩

/-- The floating point number nearest to a written one; `none` if it is too large. Far outside the
range of floating point numbers the digits need not be looked at. -/
def Numeral.float? (n : Numeral) : Option Float :=
  let exponent := n.scale - n.places
  let leading := (Nat.toDigits 10 n.mantissa).length + exponent
  let magnitude : Float :=
    if n.mantissa = 0 ∨ leading < -400 then 0.0
    else if leading > 400 then 1.0 / 0.0
    else if exponent < 0 then Float.ofScientific n.mantissa true exponent.natAbs
    else Float.ofScientific n.mantissa false exponent.natAbs
  if magnitude.isInf then none else some (if n.negative then -magnitude else magnitude)

/-- The document that a written number stands for. -/
def Numeral.document (n : Numeral) : Document :=
  let whole : Int := if n.negative then -(n.mantissa : Int) else n.mantissa
  if n.integral && !(n.negative && n.mantissa == 0)
      && decide (-0x8000000000000000 ≤ whole) && decide (whole < 0x10000000000000000) then
    .integer whole
  else (n.float?.map .number).getD .unreadable

/-- The object of some members, unless one of their names spells nothing. -/
def ofMembers (members : List (Option String × Document)) : Document :=
  let named? : Option (List (String × Document)) := members.mapM fun m => m.1.map (·, m.2)
  (named?.map .object).getD .unreadable

/-- An array or object at a place where `depth` more may be opened: with none left it is
unreadable. -/
def atDepth (depth : Nat) (d : Document) : Document := if depth = 0 then .unreadable else d

mutual

/-- Reads one document at the front of the input, which may open `depth` more arrays and objects
inside one another; what is nested deeper is unreadable. -/
def value? (depth : Nat) (input : List Char) : Option (Found Document input) :=
  match hs : skipBlanks input with
  | [] => none
  | '{' :: rest =>
    have bound : rest.length < input.length := by
      have := length_skipBlanks_le input; simp only [hs, List.length_cons] at this; omega
    match hr : skipBlanks rest with
    | '}' :: rest' => some ⟨atDepth depth (.object []), rest', by
        have := length_skipBlanks_le rest; simp only [hr, List.length_cons] at this; omega⟩
    | _ => (members? (depth - 1) rest).map fun f =>
        ⟨atDepth depth (ofMembers f.value), f.rest, Nat.lt_trans f.shorter bound⟩
  | '[' :: rest =>
    have bound : rest.length < input.length := by
      have := length_skipBlanks_le input; simp only [hs, List.length_cons] at this; omega
    match hr : skipBlanks rest with
    | ']' :: rest' => some ⟨atDepth depth (.array []), rest', by
        have := length_skipBlanks_le rest; simp only [hr, List.length_cons] at this; omega⟩
    | _ => (items? (depth - 1) rest).map fun f =>
        ⟨atDepth depth (.array f.value), f.rest, Nat.lt_trans f.shorter bound⟩
  | '"' :: rest =>
    match ht : textTail? [] rest with
    | none => none
    | some (pieces, rest') => some ⟨((spelled? [] pieces).map .text).getD .unreadable, rest', by
        have h1 := length_lt_of_textTail? ht
        have h2 := length_skipBlanks_le input
        simp only [hs, List.length_cons] at h2; omega⟩
  | 'n' :: 'u' :: 'l' :: 'l' :: rest => some ⟨.null, rest, by
      have := length_skipBlanks_le input; simp only [hs, List.length_cons] at this; omega⟩
  | 't' :: 'r' :: 'u' :: 'e' :: rest => some ⟨.bool true, rest, by
      have := length_skipBlanks_le input; simp only [hs, List.length_cons] at this; omega⟩
  | 'f' :: 'a' :: 'l' :: 's' :: 'e' :: rest => some ⟨.bool false, rest, by
      have := length_skipBlanks_le input; simp only [hs, List.length_cons] at this; omega⟩
  | '-' :: rest =>
    match numeral? true rest with
    | none => none
    | some f => some ⟨f.value.document, f.rest, by
        have h1 := f.shorter
        have h2 := length_skipBlanks_le input
        simp only [hs, List.length_cons] at h2; omega⟩
  | c :: rest =>
    match numeral? false (c :: rest) with
    | none => none
    | some f => some ⟨f.value.document, f.rest, by
        have h1 := f.shorter
        have h2 := length_skipBlanks_le input
        simp only [hs] at h2; omega⟩
termination_by (input.length, 0)
decreasing_by
  all_goals apply Prod.Lex.left; exact bound

/-- Reads the items of an array that is not empty, up to its closing bracket. -/
def items? (depth : Nat) (input : List Char) : Option (Found (List Document) input) :=
  match value? depth input with
  | none => none
  | some first =>
    match hs : skipBlanks first.rest with
    | ']' :: rest => some ⟨[first.value], rest, by
        have h1 := first.shorter
        have h2 := length_skipBlanks_le first.rest
        simp only [hs, List.length_cons] at h2; omega⟩
    | ',' :: rest =>
      have bound : rest.length < input.length := by
        have h1 := first.shorter
        have h2 := length_skipBlanks_le first.rest
        simp only [hs, List.length_cons] at h2; omega
      (items? depth rest).map fun f =>
        ⟨first.value :: f.value, f.rest, Nat.lt_trans f.shorter bound⟩
    | _ => none
termination_by (input.length, 1)
decreasing_by
  · apply Prod.Lex.right; omega
  · apply Prod.Lex.left; exact bound

/-- Reads the members of an object that is not empty, up to its closing brace. A name that spells
nothing is `none`. -/
def members? (depth : Nat) (input : List Char) :
    Option (Found (List (Option String × Document)) input) :=
  match hs : skipBlanks input with
  | '"' :: rest =>
    match ht : textTail? [] rest with
    | none => none
    | some (pieces, rest1) =>
      let name := spelled? [] pieces
      match hc : skipBlanks rest1 with
      | ':' :: rest2 =>
        have bound2 : rest2.length < input.length := by
          have h1 := length_skipBlanks_le input
          have h2 := length_lt_of_textTail? ht
          have h3 := length_skipBlanks_le rest1
          simp only [hs, hc, List.length_cons] at h1 h3; omega
        match value? depth rest2 with
        | none => none
        | some first =>
          match hd : skipBlanks first.rest with
          | '}' :: rest3 => some ⟨[(name, first.value)], rest3, by
              have h1 := first.shorter
              have h2 := length_skipBlanks_le first.rest
              simp only [hd, List.length_cons] at h2; omega⟩
          | ',' :: rest3 =>
            have bound3 : rest3.length < input.length := by
              have h1 := first.shorter
              have h2 := length_skipBlanks_le first.rest
              simp only [hd, List.length_cons] at h2; omega
            (members? depth rest3).map fun f =>
              ⟨(name, first.value) :: f.value, f.rest, Nat.lt_trans f.shorter bound3⟩
          | _ => none
      | _ => none
  | _ => none
termination_by (input.length, 1)
decreasing_by
  · apply Prod.Lex.left; exact bound2
  · apply Prod.Lex.left; exact bound3

end

/-- Reads a text as one document, nested up to a limit, with nothing but blanks around it. -/
def readNested? (limit : Nat) (text : String) : Option Document :=
  match value? limit text.toList with
  | some found => if (skipBlanks found.rest).isEmpty then some found.value else none
  | none => none

/-- Reads a text as one document within the usual limit of nesting. -/
def read? (text : String) : Option Document := readNested? nestingLimit text

/-- Reads a text as one document of which every part is readable. There is no limit of nesting:
nothing nests deeper than its text is long. -/
def readWhole? (text : String) : Option Document :=
  (readNested? text.length text).filter isReadable

end DataService.Document
