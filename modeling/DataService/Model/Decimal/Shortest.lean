/-!
# The shortest decimal of a binary number

A binary64 number stands for a small interval of reals: all those that round to it. Among the
decimals in this interval the ones with the fewest digits are its shortest names, and of these
the nearest to the number itself is the one to print. `shortest` finds it by trying one grid of
decimals after the other, from the coarsest to the finest, in exact integer arithmetic. On a grid
only the two neighbours of the number can be its nearest points, so only they are tested. Where
the two are equally near, the printed form decides which of them stands (`Tie`).
-/

set_option autoImplicit false

namespace DataService

/-- The decimal `digits * 10 ^ exponent`. -/
structure Decimal where
  digits : Nat
  exponent : Int
  deriving DecidableEq, Repr

namespace Decimal

/-- The magnitude `mantissa * 2 ^ exponent` of a finite binary64 number. -/
structure Magnitude where
  mantissa : Nat
  exponent : Int
  /-- The number below is half as far away as the number above. -/
  narrowBelow : Bool
  deriving DecidableEq, Repr

/-- The magnitude that the bits of a finite number spell; the sign bit is left out. -/
def Magnitude.ofBits (bits : UInt64) : Magnitude :=
  let biased := ((bits >>> 52) &&& 0x7FF).toNat
  let fraction := (bits &&& 0xFFFFFFFFFFFFF).toNat
  if biased = 0 then ⟨fraction, -1074, false⟩
  else ⟨0x10000000000000 + fraction, (biased : Int) - 1075, fraction == 0 && decide (1 < biased)⟩

/-- Which of two equally near decimals is taken. -/
inductive Tie where
  /-- The larger one. -/
  | up
  /-- The one whose last digit is even. -/
  | even
  deriving DecidableEq, Repr

/-- A number on a grid of decimals: with the step of the grid as the unit, the number is
`value / unit`, and the reals that round to it reach from `low / unit` to `high / unit`. -/
structure OnGrid where
  value : Nat
  low : Nat
  high : Nat
  unit : Nat
  /-- Both ends of the interval belong to it. -/
  closed : Bool

/-- The magnitude `x` on the grid with the step `10 ^ exponent`. A quarter of the spacing of the
numbers around `x` is the common measure of the value and the two ends. -/
def Magnitude.onGrid (x : Magnitude) (exponent : Int) : OnGrid :=
  let quarter := x.exponent - 2
  let scale := Nat.pow 2 quarter.toNat * Nat.pow 10 (-exponent).toNat
  { value := 4 * x.mantissa * scale
    low := (4 * x.mantissa - if x.narrowBelow then 1 else 2) * scale
    high := (4 * x.mantissa + 2) * scale
    unit := Nat.pow 2 (-quarter).toNat * Nat.pow 10 exponent.toNat
    closed := x.mantissa % 2 == 0 }

/-- Whether the grid point `n` rounds to the number. -/
def OnGrid.holds (g : OnGrid) (n : Nat) : Bool :=
  if g.closed then decide (g.low ≤ n * g.unit) && decide (n * g.unit ≤ g.high)
  else decide (g.low < n * g.unit) && decide (n * g.unit < g.high)

/-- The nearer of the number's two neighbours on the grid that round to it, if one does. -/
def OnGrid.nearest? (g : OnGrid) (tie : Tie) : Option Nat :=
  let below := g.value / g.unit
  let above := below + 1
  match g.holds below, g.holds above with
  | false, false => none
  | true, false => some below
  | false, true => some above
  | true, true =>
    match compare (2 * g.value) ((below + above) * g.unit) with
    | .lt => some below
    | .gt => some above
    | .eq =>
      match tie with
      | .up => some above
      | .even => if below % 2 = 0 then some below else some above

/-- The number of digits in front of the point, or the negated number of zeros behind it: the
exponent `p` with `10 ^ (p - 1) ≤ x < 10 ^ p`. No finite number is below `10 ^ -400`. -/
def Magnitude.places (x : Magnitude) : Int :=
  let g := x.onGrid (-400)
  ((Nat.toDigits 10 (g.value / g.unit)).length : Int) - 400

/-- Writes a decimal without zeros at the end of its digits. The first argument bounds the
number of zeros taken off. -/
def trim : Nat → Decimal → Decimal
  | 0, d => d
  | n + 1, d => if d.digits % 10 = 0 then trim n ⟨d.digits / 10, d.exponent + 1⟩ else d

/-- The shortest decimal that reads back as `x`, and of those the nearest to `x`. Seventeen
digits tell all binary64 numbers apart, so the search always ends with a decimal. -/
def shortest (tie : Tie) (x : Magnitude) : Decimal :=
  let places := x.places
  let found := (List.range 17).findSome? fun (n : Nat) =>
    let exponent := places - (n + 1)
    ((x.onGrid exponent).nearest? tie).map fun digits => (⟨digits, exponent⟩ : Decimal)
  match found with
  | some d => d.trim 17
  | none => ⟨0, 0⟩

end Decimal

end DataService
