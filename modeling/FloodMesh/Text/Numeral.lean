import FloodMesh.Text.Blank

/-!
# FloodMesh.Text.Numeral

Decimal numerals as people write them: an optional plus sign and one or more ASCII digits, any
number of them zeros in front, with white space around. A numeral is read against a bound and
refused when its value is not below it. Numbers that may have a fraction and a power of ten are
recognised only.
-/

namespace FloodMesh
namespace Text

/-- The value of a run of ASCII digits, most significant first. -/
def decimalValue (digits : List Char) : Nat :=
  digits.foldl (fun n c => 10 * n + (c.toNat - '0'.toNat)) 0

/-- The digits of a numeral: what follows an optional plus sign. -/
def unsigned : List Char → List Char
  | '+' :: cs => cs
  | cs => cs

/-- The value of a numeral below `bound`, with nothing around it. -/
def numeral? (bound : Nat) (cs : List Char) : Option Nat :=
  let digits := unsigned cs
  if digits ≠ [] ∧ digits.all Char.isDigit = true then
    let n := decimalValue digits
    if n < bound then some n else none
  else none

/-- The value of a numeral below `bound` with white space around it. -/
def paddedNumeral? (bound : Nat) (text : String) : Option Nat :=
  numeral? bound (trim text.toList)

/-- A count: a numeral below 2 ^ 64. -/
def count? (text : String) : Option Nat := paddedNumeral? UInt64.size text

/-- A port: a numeral below 2 ^ 16. -/
def port? (text : String) : Option UInt16 := (paddedNumeral? UInt16.size text).map UInt16.ofNat

/-- An exponent: nothing, or a mark, a sign if need be and digits. -/
def isExponent : List Char → Bool
  | [] => true
  | mark :: cs =>
    let digits := match cs with
      | '+' :: cs | '-' :: cs => cs
      | cs => cs
    (mark == 'e' || mark == 'E') && digits ≠ [] && digits.all Char.isDigit

/-- Digits with at most one point anywhere among them, and an exponent behind. -/
def isDecimal (cs : List Char) : Bool :=
  let whole := cs.takeWhile Char.isDigit
  match cs.dropWhile Char.isDigit with
  | '.' :: cs =>
    (whole ≠ [] || cs.head?.any Char.isDigit) && isExponent (cs.dropWhile Char.isDigit)
  | cs => whole ≠ [] && isExponent cs

/-- A plus sign with a decimal number behind it, or with the name of one that has no digits. -/
def isSignedNumber : List Char → Bool
  | '+' :: cs =>
    isDecimal cs || ["inf", "infinity", "nan"].contains (String.ofList (cs.map Char.toLower))
  | _ => false

end Text
end FloodMesh
