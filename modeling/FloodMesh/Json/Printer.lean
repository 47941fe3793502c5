import FloodMesh.Bytes
import FloodMesh.Decimal.Shortest
import FloodMesh.Json.Basic

/-!
# FloodMesh.Json.Printer

The compact text of a JSON value: no white space, members in their order, escapes only where the
grammar asks for them.
-/

namespace FloodMesh

/-- Numbers from 0.00001 up to 10 ^ 16 are written with a point among the digits, others with an
exponent that always has its sign. -/
def Number.layout : Decimal.Layout := ⟨-5, 15⟩

/-- The text of a number. -/
def Number.format : Number → String
  | .integer n => if n < 0 then "-" ++ Nat.repr n.natAbs else Nat.repr n.natAbs
  | .real x => layout.format x

namespace Json

/-- A hexadecimal digit, in lower case. -/
def hexDigit (n : UInt8) : UInt8 := if n < 10 then 0x30 + n else 0x57 + n

/-- One byte inside a string: quote, backslash and the controls are escaped, the short way where
there is one. -/
def escapeByte (b : UInt8) : Bytes :=
  if b = 0x22 then [0x5c, 0x22]
  else if b = 0x5c then [0x5c, 0x5c]
  else if b = 0x08 then [0x5c, 0x62]
  else if b = 0x0c then [0x5c, 0x66]
  else if b = 0x0a then [0x5c, 0x6e]
  else if b = 0x0d then [0x5c, 0x72]
  else if b = 0x09 then [0x5c, 0x74]
  else if b < 0x20 then [0x5c, 0x75, 0x30, 0x30, hexDigit (b / 16), hexDigit (b % 16)]
  else [b]

/-- A string between quotes. -/
def printText (s : String) : Bytes := 0x22 :: (Bytes.ofString s).flatMap escapeByte ++ [0x22]

mutual

/-- The compact text of a value. -/
def print : Json → Bytes
  | .null => Bytes.ofString "null"
  | .bool true => Bytes.ofString "true"
  | .bool false => Bytes.ofString "false"
  | .number n => Bytes.ofString n.format
  | .text s => printText s
  | .array [] => [0x5b, 0x5d]
  | .array (v :: vs) => 0x5b :: print v ++ printItems vs ++ [0x5d]
  | .object [] => [0x7b, 0x7d]
  | .object (m :: ms) =>
    0x7b :: printText m.1 ++ 0x3a :: print m.2 ++ printMembers ms ++ [0x7d]

/-- Further items of an array, each after a comma. -/
def printItems : List Json → Bytes
  | [] => []
  | v :: vs => 0x2c :: print v ++ printItems vs

/-- Further members of an object, each after a comma. -/
def printMembers : List (String × Json) → Bytes
  | [] => []
  | m :: ms => 0x2c :: printText m.1 ++ 0x3a :: print m.2 ++ printMembers ms

end

end Json
end FloodMesh
