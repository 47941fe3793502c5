import FloodMesh.Bytes
import FloodMesh.Json.Basic

/-!
# FloodMesh.Json.Scanner

The pieces of JSON text that both the parser and the skipper read: blanks, numbers, and the shape
of arrays and objects over a reader for what stands in them. A reader takes a value off the front
of the input and gives it with the rest, or refuses.
-/

namespace FloodMesh
namespace Json

/-- A reader of one piece of text. -/
abbrev Reader (α : Type) := Bytes → Option (α × Bytes)

/-- Space, tab, line feed and carriage return may stand between the pieces. -/
def isBlank (b : UInt8) : Bool := b == 0x20 || b == 0x09 || b == 0x0a || b == 0x0d

/-- The input from its first byte that is not blank. -/
def skipBlank (bytes : Bytes) : Bytes := bytes.dropWhile isBlank

/-- A decimal digit. -/
def isDigit (b : UInt8) : Bool := 0x30 ≤ b && b ≤ 0x39

/-- The digits at the front, as numbers below ten, and the rest. -/
def scanDigits (bytes : Bytes) : List Nat × Bytes :=
  let (digits, rest) := bytes.span isDigit
  (digits.map fun b => b.toNat - 0x30, rest)

/-- A number as it is written: its sign, the digits before and after the point, and the exponent
with its sign. -/
structure Numeral where
  negative : Bool
  whole : List Nat
  fraction : Option (List Nat)
  exponent : Option (Bool × List Nat)
  deriving DecidableEq, Repr

/-- The digits before the point: a zero alone, or digits of which the first is not zero. -/
def scanWhole (bytes : Bytes) : Option (List Nat × Bytes) :=
  match scanDigits bytes with
  | ([], _) => none
  | (d :: ds, rest) => if d = 0 ∧ ds ≠ [] then none else some (d :: ds, rest)

/-- A point and at least one digit, if there is a point. -/
def scanFraction : Bytes → Option (Option (List Nat) × Bytes)
  | 0x2e :: rest =>
    match scanDigits rest with
    | ([], _) => none
    | (ds, rest) => some (some ds, rest)
  | bytes => some (none, bytes)

/-- The exponent after its letter: an optional sign and at least one digit. -/
def scanPower (bytes : Bytes) : Option ((Bool × List Nat) × Bytes) :=
  let (negative, bytes) : Bool × Bytes :=
    match bytes with
    | 0x2b :: rest => (false, rest)
    | 0x2d :: rest => (true, rest)
    | _ => (false, bytes)
  match scanDigits bytes with
  | ([], _) => none
  | (ds, rest) => some ((negative, ds), rest)

/-- The letter `e` and an exponent, if there is the letter. -/
def scanExponent : Bytes → Option (Option (Bool × List Nat) × Bytes)
  | 0x65 :: rest => (scanPower rest).map fun (p, rest) => (some p, rest)
  | 0x45 :: rest => (scanPower rest).map fun (p, rest) => (some p, rest)
  | bytes => some (none, bytes)

/-- A number as it is written. -/
def scanNumeral : Reader Numeral := fun bytes =>
  let (negative, bytes) : Bool × Bytes :=
    match bytes with
    | 0x2d :: rest => (true, rest)
    | _ => (false, bytes)
  match scanWhole bytes with
  | none => none
  | some (whole, bytes) =>
    match scanFraction bytes with
    | none => none
    | some (fraction, bytes) =>
      match scanExponent bytes with
      | none => none
      | some (exponent, rest) => some (⟨negative, whole, fraction, exponent⟩, rest)

/-- The items of a list up to the byte that closes it, of which there is at least one, separated by
commas. At most `n` items are read. -/
def readItems {α : Type} (close : UInt8) (item : Reader α) : Nat → Reader (List α)
  | 0, _ => none
  | n + 1, bytes =>
    match item (skipBlank bytes) with
    | none => none
    | some (v, rest) =>
      match skipBlank rest with
      | [] => none
      | b :: rest =>
        if b = 0x2c then
          match readItems close item n rest with
          | none => none
          | some (vs, rest) => some (v :: vs, rest)
        else if b = close then some ([v], rest)
        else none

/-- The items of a list after the byte that opens it. Every item takes a byte at least, so the
length of the input bounds their number. -/
def readList {α : Type} (close : UInt8) (item : Reader α) : Reader (List α) := fun bytes =>
  match skipBlank bytes with
  | [] => none
  | b :: rest =>
    if b = close then some ([], rest) else readItems close item (bytes.length) (b :: rest)

/-- A member of an object: its name, a colon, and a value whose reader may depend on the name. -/
def readMember {κ α : Type} (name : Reader κ) (value : κ → Reader α) : Reader (κ × α) :=
  fun bytes =>
    match name bytes with
    | none => none
    | some (k, rest) =>
      match skipBlank rest with
      | 0x3a :: rest =>
        match value k (skipBlank rest) with
        | none => none
        | some (v, rest) => some ((k, v), rest)
      | _ => none

end Json
end FloodMesh
