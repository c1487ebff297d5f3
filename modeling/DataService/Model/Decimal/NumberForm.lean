import DataService.Model.Decimal.Shortest

/-!
# Written forms of floating point numbers

A `NumberForm` holds the decisions of one written form: where positional notation ends, whether an
integral value keeps a `.0`, which of two equally near decimals stands. Two forms are in use:
`plain`, the form of numbers in canonical filter text, and `document`, the form of numbers in
serialized documents.
-/

set_option autoImplicit false

namespace DataService.Decimal

/-- The decisions of one written form of numbers. -/
structure NumberForm where
  /-- Whether a number is written without an exponent, given the exponent of its first digit. -/
  positional : Int → Bool
  /-- Whether an integral number ends in `.0`. -/
  pointZero : Bool
  /-- Which of two equally near decimals is written. -/
  tie : Tie

/-- Numbers in canonical text never have an exponent and have a point only before a fraction. -/
def NumberForm.plain : NumberForm := ⟨fun _ => true, false, .up⟩

/-- Numbers in documents have an exponent from `10 ^ 16` on and below `10 ^ -5`, and always show
that they are not integers: `1.0`, `1e+16`, `1e-6`. -/
def NumberForm.document : NumberForm := ⟨fun e => decide (-5 ≤ e) && decide (e ≤ 15), true, .even⟩

/-- Writes an exponent, always with its sign. -/
def signedExponent (e : Int) : String := (if 0 ≤ e then "+" else "") ++ toString e

/-- Writes a decimal that is not zero. -/
def NumberForm.layout (form : NumberForm) (d : Decimal) : String :=
  let digits := Nat.toDigits 10 d.digits
  let leading := (digits.length : Int) - 1 + d.exponent
  let fraction := if form.pointZero then ['.', '0'] else []
  if form.positional leading then
    if leading < 0 then
      String.ofList ('0' :: '.' :: List.replicate (-leading - 1).toNat '0' ++ digits)
    else
      let whole := leading.toNat + 1
      if digits.length ≤ whole then
        String.ofList (digits ++ List.replicate (whole - digits.length) '0' ++ fraction)
      else String.ofList (digits.take whole ++ '.' :: digits.drop whole)
  else
    let head := match digits with
      | [] => []
      | [d] => [d]
      | d :: rest => d :: '.' :: rest
    String.ofList head ++ "e" ++ signedExponent leading

/-- Writes a number. A zero keeps its sign. -/
def NumberForm.write (form : NumberForm) (x : Float) : String :=
  if x.isNaN then "NaN"
  else
    let bits := x.toBits
    let sign := if bits >>> 63 = 1 then "-" else ""
    if x.isInf then sign ++ "inf"
    else
      let m := Magnitude.ofBits bits
      sign ++ if m.mantissa = 0 then (if form.pointZero then "0.0" else "0")
        else form.layout (shortest form.tie m)

end DataService.Decimal
