/-!
# FloodMesh.Decimal.Binary64

Finite numbers of the IEEE 754 binary64 format, held exactly: a sign, a mantissa below 2 ^ 53 and
a power of two. Rounding is to nearest, ties to the even mantissa, computed on fractions of natural
numbers, so no operation of the machine is involved.
-/

namespace FloodMesh

/-- The number ±mantissa · 2 ^ exponent. -/
structure Binary64 where
  negative : Bool
  mantissa : Nat
  exponent : Int
  deriving DecidableEq, Repr

namespace Binary64

/-- Exponent of the numbers next to zero. -/
def leastExponent : Int := -1074

/-- Exponent of the numbers next to overflow. -/
def greatestExponent : Int := 971

/-- A fraction times a power of two, as a fraction. -/
def shift (num den : Nat) (e : Int) : Nat × Nat :=
  (num * Nat.pow 2 e.toNat, den * Nat.pow 2 (-e).toNat)

/-- The quotient rounded to nearest, ties to even. -/
def roundDiv (num den : Nat) : Nat :=
  let q := num / den
  let r := num % den
  if 2 * r < den then q
  else if den < 2 * r then q + 1
  else if q % 2 = 0 then q else q + 1

/-- Exponent of the mantissa that represents a positive fraction best: the mantissa has 53 bits
unless the number is next to zero. -/
def exponentFor (num den : Nat) : Int :=
  let e : Int := (num.log2 : Int) - den.log2 - 53
  let (n, d) := shift num den (-e)
  let e := if d * Nat.pow 2 53 ≤ n then e + 1 else e
  if e < leastExponent then leastExponent else e

/-- The number nearest to a fraction; `none` if that is out of range. -/
def ofFraction? (negative : Bool) (num den : Nat) : Option Binary64 :=
  if num = 0 then some ⟨negative, 0, leastExponent⟩
  else
    let e := exponentFor num den
    let (n, d) := shift num den (-e)
    let m := roundDiv n d
    let (m, e) := if m = Nat.pow 2 53 then (Nat.pow 2 52, e + 1) else (m, e)
    if greatestExponent < e then none else some ⟨negative, m, e⟩

/-- The magnitude as a fraction. -/
def magnitude (x : Binary64) : Nat × Nat := shift x.mantissa 1 x.exponent

def isZero (x : Binary64) : Bool := x.mantissa == 0

/-- The product, rounded. -/
def mul? (x y : Binary64) : Option Binary64 :=
  let (a, b) := x.magnitude
  let (c, d) := y.magnitude
  ofFraction? (x.negative != y.negative) (a * c) (b * d)

/-- The quotient by a number other than zero, rounded. -/
def div? (x y : Binary64) : Option Binary64 :=
  let (a, b) := x.magnitude
  let (c, d) := y.magnitude
  ofFraction? (x.negative != y.negative) (a * d) (b * c)

/-- The number nearest to a natural number; `none` if that is out of range. -/
def ofNat? (n : Nat) : Option Binary64 := ofFraction? false n 1

/-- A coefficient times a power of ten as a scanner computes it: the coefficient is rounded first,
then multiplied or divided by the rounded power. A power beyond 10 ^ 308 is out of range, and one
below 10 ^ -308 is applied in several divisions, of which `steps` bounds the number. -/
def scaleTen? (steps : Nat) (x : Binary64) (e : Int) : Option Binary64 :=
  if 0 ≤ e ∧ e ≤ 308 then (ofNat? (Nat.pow 10 e.toNat)).bind x.mul?
  else if -308 ≤ e ∧ e < 0 then (ofNat? (Nat.pow 10 (-e).toNat)).bind x.div?
  else if x.isZero then some x
  else if 0 < e then none
  else match steps with
    | 0 => none
    | steps + 1 => ((ofNat? (Nat.pow 10 308)).bind x.div?).bind fun y => scaleTen? steps y (e + 308)

/-- The value of `coefficient` · 10 ^ `e` as a scanner computes it. A coefficient below 2 ^ 64
divided by 10 ^ 308 three times is zero. -/
def ofDecimal? (negative : Bool) (coefficient : Nat) (e : Int) : Option Binary64 :=
  ((ofNat? coefficient).bind fun x => scaleTen? 3 x e).map fun x => { x with negative }

end Binary64
end FloodMesh
