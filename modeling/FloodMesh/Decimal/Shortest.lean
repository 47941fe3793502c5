import FloodMesh.Decimal.Binary64

/-!
# FloodMesh.Decimal.Shortest

The decimal text of a binary64 number: the fewest digits that read back as the same number, and of
those the digits nearest to it. The reals that read back form an interval around the number, which
holds its ends when the mantissa is even; if a point of a decimal grid lies in it, so does one of
the number's two neighbours on that grid.
-/

namespace FloodMesh
namespace Decimal

/-- Number of decimal digits; zero has none. -/
def digitCount (n : Nat) : Nat := if n = 0 then 0 else (Nat.toDigits 10 n).length

/-- The greatest `e` with 10 ^ `e` at most the fraction, which is positive. -/
def order (num den : Nat) : Int :=
  if den ≤ num then (digitCount (num / den) : Int) - 1
  else -(digitCount ((den + num - 1) / num - 1) : Int)

/-- A positive number on a common scale: `low`, `value` and `high` are the ends of the interval
that reads back and the number itself, in units of 2 ^ `unit`. -/
structure Interval where
  low : Nat
  value : Nat
  high : Nat
  unit : Int
  closed : Bool

/-- The reals that round to a positive number. The gap below a power of two is half as wide. -/
def interval (x : Binary64) : Interval :=
  let below := if x.mantissa = Nat.pow 2 52 ∧ Binary64.leastExponent < x.exponent then 1 else 2
  { low := 4 * x.mantissa - below, value := 4 * x.mantissa, high := 4 * x.mantissa + 2
    unit := x.exponent - 2, closed := x.mantissa % 2 == 0 }

/-- The better of the number's neighbours on the grid of multiples of 10 ^ `k`, if one reads
back. -/
def onGrid? (i : Interval) (k : Int) : Option Nat :=
  let a := Nat.pow 10 k.toNat * Nat.pow 2 (-i.unit).toNat
  let b := Nat.pow 10 (-k).toNat * Nat.pow 2 i.unit.toNat
  let inside (c : Nat) : Bool :=
    if i.closed then i.low * b ≤ c * a && c * a ≤ i.high * b
    else i.low * b < c * a && c * a < i.high * b
  let down := i.value * b / a
  let below := i.value * b - down * a
  let above := (down + 1) * a - i.value * b
  match inside down, inside (down + 1) with
  | true, true =>
    if below < above ∨ (below = above ∧ down % 2 = 0) then some down else some (down + 1)
  | true, false => some down
  | false, true => some (down + 1)
  | false, false => none

/-- The first grid with a hit, from the coarsest of `n` grids on: a coefficient and its power of
ten. -/
def search (i : Interval) (k : Int) : Nat → Nat × Int
  | 0 => (0, k)
  | n + 1 =>
    match onGrid? i k with
    | some c => (c, k)
    | none => search i (k - 1) n

/-- The coefficient without its trailing zeros, of which there are fewer than `n`. -/
def stripZeros : Nat → Nat × Int → Nat × Int
  | 0, r => r
  | n + 1, (c, k) => if c ≠ 0 ∧ c % 10 = 0 then stripZeros n (c / 10, k + 1) else (c, k)

/-- The shortest digits of a positive number, as a coefficient that does not end in zero and its
power of ten. Seventeen digits always read back. -/
def shortest (x : Binary64) : Nat × Int :=
  let (num, den) := x.magnitude
  stripZeros 20 (search (interval x) (order num den) 17)

/-- How a number's digits are laid out: the orders of magnitude that are written with a point among
the digits. All others are written with one digit before the point and an exponent. -/
structure Layout where
  leastOrder : Int
  greatestOrder : Int

/-- The exponent with its sign. -/
def exponentText (e : Int) : String :=
  (if e < 0 then "e-" else "e+") ++ Nat.repr e.natAbs

/-- The text of a coefficient's digits with a power of ten, at least one place after the point
where there is no exponent. -/
def Layout.text (l : Layout) (coefficient : Nat) (k : Int) : String :=
  let digits := Nat.toDigits 10 coefficient
  let order : Int := digits.length - 1 + k
  if l.leastOrder ≤ order ∧ order ≤ l.greatestOrder then
    if order < 0 then
      "0." ++ String.ofList (List.replicate (-order - 1).toNat '0' ++ digits)
    else
      let whole := digits.take (order.toNat + 1)
      let rest := digits.drop (order.toNat + 1)
      String.ofList (whole ++ List.replicate (order.toNat + 1 - whole.length) '0') ++ "." ++
        (if rest = [] then "0" else String.ofList rest)
  else
    let rest := digits.drop 1
    String.ofList (digits.take 1) ++
      (if rest = [] then "" else "." ++ String.ofList rest) ++ exponentText order

/-- The shortest text of a number. -/
def Layout.format (l : Layout) (x : Binary64) : String :=
  (if x.negative then "-" else "") ++
    (if x.isZero then "0.0" else
      let (c, k) := shortest x
      l.text c k)

end Decimal
end FloodMesh
