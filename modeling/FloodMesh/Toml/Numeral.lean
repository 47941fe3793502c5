import FloodMesh.Decimal.Binary64
import FloodMesh.Toml.Basic
import FloodMesh.Toml.Scanner

/-!
# FloodMesh.Toml.Numeral

Numbers, dates and times. Underscores may stand between two digits. An integer has to fit into 64
bits with a sign; a float may not exceed the range of binary64 upwards.
-/

namespace FloodMesh
namespace Toml

/-- The values of further digits, each with an underscore in front or without. -/
def moreDigits (radix : Nat) : Reader (List Nat)
  | '_' :: c :: cs =>
    match hexDigit? c with
    | none => none
    | some d =>
      if d < radix then (moreDigits radix cs).map fun (ds, rest) => (d :: ds, rest) else none
  | c :: cs =>
    match hexDigit? c with
    | none => if c = '_' then none else some ([], c :: cs)
    | some d =>
      if d < radix then (moreDigits radix cs).map fun (ds, rest) => (d :: ds, rest)
      else some ([], c :: cs)
  | [] => some ([], [])

/-- The values of one or more digits. -/
def readDigits (radix : Nat) : Reader (List Nat)
  | [] => none
  | c :: cs =>
    match hexDigit? c with
    | none => none
    | some d =>
      if d < radix then (moreDigits radix cs).map fun (ds, rest) => (d :: ds, rest) else none

/-- The number that digits write. -/
def digitsValue (radix : Nat) (ds : List Nat) : Nat := ds.foldl (fun n d => radix * n + d) 0

/-- A sign, and whether it is a minus. -/
def readSign : List Char → Bool × List Char
  | '+' :: cs => (false, cs)
  | '-' :: cs => (true, cs)
  | cs => (false, cs)

/-- An integer of 64 bits. -/
def integer? (n : Int) : Option Toml :=
  if Int64.minValue.toInt ≤ n ∧ n ≤ Int64.maxValue.toInt then some (integer n) else none

/-- An integer in another radix, after the prefix that names it. -/
def readRadix (radix : Nat) : Reader Toml := fun cs =>
  match readDigits radix cs with
  | none => none
  | some (ds, rest) => (integer? (digitsValue radix ds)).map fun v => (v, rest)

/-! ## Decimal numbers -/

/-- The digits before a point: a zero alone, or digits of which the first is not zero. -/
def readWhole : Reader (List Nat)
  | '0' :: cs => some ([0], cs)
  | cs => readDigits 10 cs

/-- The digits after a point, if there is one. -/
def readFraction : Reader (Option (List Nat))
  | '.' :: cs => (readDigits 10 cs).map fun (ds, rest) => (some ds, rest)
  | cs => some (none, cs)

/-- An exponent after its letter. -/
def readPower : Reader Int := fun cs =>
  let (negative, cs) := readSign cs
  (readDigits 10 cs).map fun (ds, rest) =>
    let n : Int := digitsValue 10 ds
    (if negative then -n else n, rest)

/-- The letter `e` and an exponent, if there is the letter. -/
def readExponent : Reader (Option Int)
  | 'e' :: cs => (readPower cs).map fun (e, rest) => (some e, rest)
  | 'E' :: cs => (readPower cs).map fun (e, rest) => (some e, rest)
  | cs => some (none, cs)

/-- Whether the number that digits and a power of ten write is in the range of binary64. Its first
digit that is not zero tells unless it stands close to the border. -/
def inRange (digits : List Nat) (power : Int) : Bool :=
  let digits := digits.dropWhile (· == 0)
  let magnitude : Int := digits.length + power
  if digits = [] ∨ magnitude < 300 then true
  else if 320 < magnitude then false
  else (Binary64.ofFraction? false (digitsValue 10 digits * Nat.pow 10 power.toNat)
    (Nat.pow 10 (-power).toNat)).isSome

/-- The number with given parts. -/
def number? (negative : Bool) (whole : List Nat) (fraction : Option (List Nat))
    (exponent : Option Int) : Option Toml :=
  match fraction, exponent with
  | none, none =>
    let n : Int := digitsValue 10 whole
    integer? (if negative then -n else n)
  | _, _ =>
    let digits := fraction.getD []
    if negative || inRange (whole ++ digits) (exponent.getD 0 - digits.length) then some float
    else none

/-- A decimal number, an infinity, or the mark of no number. -/
def readDecimal : Reader Toml := fun cs =>
  let (negative, cs) := readSign cs
  match cs with
  | 'i' :: 'n' :: 'f' :: rest => some (float, rest)
  | 'n' :: 'a' :: 'n' :: rest => some (float, rest)
  | _ =>
    match readWhole cs with
    | none => none
    | some (whole, cs) =>
      match readFraction cs with
      | none => none
      | some (fraction, cs) =>
        match readExponent cs with
        | none => none
        | some (exponent, rest) =>
          (number? negative whole fraction exponent).map fun v => (v, rest)

/-! ## Dates and times -/

/-- The value of a decimal digit. -/
def decimalDigit? (c : Char) : Option Nat :=
  if c.isDigit then some (c.toNat - '0'.toNat) else none

/-- A number of exactly so many decimal digits between two bounds. -/
def readFixed (width least greatest : Nat) : Reader Nat := fun cs =>
  match (cs.take width).mapM decimalDigit? with
  | none => none
  | some ds =>
    let n := digitsValue 10 ds
    if ds.length = width ∧ least ≤ n ∧ n ≤ greatest then some (n, cs.drop width) else none

/-- What follows a given character. -/
def skipChar (c : Char) : List Char → Option (List Char)
  | [] => none
  | d :: cs => if d = c then some cs else none

def isLeapYear (year : Nat) : Bool := year % 4 = 0 && (year % 100 ≠ 0 || year % 400 = 0)

def daysOfMonth (year month : Nat) : Nat :=
  if month = 2 then if isLeapYear year then 29 else 28
  else if month = 4 ∨ month = 6 ∨ month = 9 ∨ month = 11 then 30
  else 31

/-- What follows a date. -/
def skipDate (cs : List Char) : Option (List Char) := do
  let (year, cs) ← readFixed 4 0 9999 cs
  let cs ← skipChar '-' cs
  let (month, cs) ← readFixed 2 1 12 cs
  let cs ← skipChar '-' cs
  let (_, cs) ← readFixed 2 1 (daysOfMonth year month) cs
  some cs

/-- What follows a point and the digits of a fraction, if there are any. -/
def skipFraction : List Char → List Char
  | '.' :: c :: cs => if c.isDigit then cs.dropWhile Char.isDigit else '.' :: c :: cs
  | cs => cs

/-- What follows hours and minutes. -/
def skipMinutes (cs : List Char) : Option (List Char) := do
  let (_, cs) ← readFixed 2 0 23 cs
  let cs ← skipChar ':' cs
  let (_, cs) ← readFixed 2 0 59 cs
  some cs

/-- What follows a time of day, which may have a leap second. -/
def skipTime (cs : List Char) : Option (List Char) := do
  let cs ← skipMinutes cs
  let cs ← skipChar ':' cs
  let (_, cs) ← readFixed 2 0 60 cs
  some (skipFraction cs)

/-- What follows the offset of a zone, if there is one. -/
def skipOffset : List Char → List Char
  | 'Z' :: cs => cs
  | 'z' :: cs => cs
  | '+' :: cs => (skipMinutes cs).getD ('+' :: cs)
  | '-' :: cs => (skipMinutes cs).getD ('-' :: cs)
  | cs => cs

/-- What follows the time that may come after a date. -/
def skipDayTime : List Char → List Char
  | c :: cs =>
    if c = 'T' ∨ c = 't' ∨ c = ' ' then
      match skipTime cs with
      | some rest => skipOffset rest
      | none => c :: cs
    else c :: cs
  | [] => []

/-- A date, a time, or both. -/
def readMoment : Reader Toml := fun cs =>
  match skipDate cs with
  | some cs => some (moment, skipDayTime cs)
  | none => (skipTime cs).map fun rest => (moment, rest)

/-- A number, a date or a time. -/
def readNumeral : Reader Toml := fun cs =>
  match cs with
  | '0' :: 'x' :: rest => readRadix 16 rest
  | '0' :: 'o' :: rest => readRadix 8 rest
  | '0' :: 'b' :: rest => readRadix 2 rest
  | _ =>
    match readMoment cs with
    | some r => some r
    | none => readDecimal cs

end Toml
end FloodMesh
