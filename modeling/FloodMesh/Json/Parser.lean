import FloodMesh.Json.Scanner

/-!
# FloodMesh.Json.Parser

JSON values from text. Objects keep the last of several members with one name. Arrays and objects
may stand in each other to a fixed depth. A string is any UTF-8 text without raw controls, and its
`\u` escapes name characters, those outside the basic plane by a pair of surrogates.
-/

namespace FloodMesh

/-- The coefficient that a scanner collects from the digits before the point, and how many of them
it had to leave out: from the first digit on that would carry it past 64 bits. -/
def Number.collectWhole (digits : List Nat) : Nat × Nat :=
  digits.foldl (fun (c, dropped) d =>
    if dropped = 0 ∧ 10 * c + d < UInt64.size then (10 * c + d, 0) else (c, dropped + 1)) (0, 0)

/-- The coefficient with the digits after the point, and how many of these it took in: all up to
the first that would carry it past 64 bits. -/
def Number.collectFraction (coefficient : Nat) : List Nat → Nat × Nat
  | [] => (coefficient, 0)
  | d :: ds =>
    if 10 * coefficient + d < UInt64.size then
      let (c, taken) := Number.collectFraction (10 * coefficient + d) ds
      (c, taken + 1)
    else (coefficient, 0)

/-- The value of an exponent as written. -/
def Number.exponentValue : Option (Bool × List Nat) → Int
  | none => 0
  | some (negative, digits) =>
    let n : Nat := digits.foldl (fun n d => 10 * n + d) 0
    if negative then -n else n

/-- The number that a numeral writes: an integer if it has neither point nor exponent and fits,
otherwise the binary64 number computed from its coefficient and its power of ten. Minus zero is
not an integer. -/
def Number.ofNumeral? (m : Json.Numeral) : Option Number :=
  let (whole, dropped) := Number.collectWhole m.whole
  if m.fraction = none ∧ m.exponent = none ∧ dropped = 0 ∧
      (m.negative = false ∨ (0 < whole ∧ whole ≤ UInt64.size / 2)) then
    some (.integer (if m.negative then -whole else whole))
  else
    let (coefficient, taken) := Number.collectFraction whole (m.fraction.getD [])
    let e : Int := dropped - taken + Number.exponentValue m.exponent
    (Binary64.ofDecimal? m.negative coefficient e).map .real

namespace Json

/-- The value of a hexadecimal digit. -/
def hexValue? (b : UInt8) : Option Nat :=
  if 0x30 ≤ b ∧ b ≤ 0x39 then some (b.toNat - 0x30)
  else if 0x41 ≤ b ∧ b ≤ 0x46 then some (b.toNat - 0x37)
  else if 0x61 ≤ b ∧ b ≤ 0x66 then some (b.toNat - 0x57)
  else none

/-- The value of four hexadecimal digits. -/
def hexUnit? (a b c d : UInt8) : Option Nat :=
  match hexValue? a, hexValue? b, hexValue? c, hexValue? d with
  | some a, some b, some c, some d => some (4096 * a + 256 * b + 16 * c + d)
  | _, _, _, _ => none

/-- The unit that a short escape stands for. -/
def shortEscape? (b : UInt8) : Option UInt8 :=
  if b = 0x22 then some 0x22
  else if b = 0x5c then some 0x5c
  else if b = 0x2f then some 0x2f
  else if b = 0x62 then some 0x08
  else if b = 0x66 then some 0x0c
  else if b = 0x6e then some 0x0a
  else if b = 0x72 then some 0x0d
  else if b = 0x74 then some 0x09
  else none

/-- The UTF-8 bytes of the character with a code point that is no surrogate. -/
def characterBytes (n : Nat) : Bytes := Bytes.ofString (Char.ofNat n).toString

def isHighSurrogate (n : Nat) : Bool := 0xd800 ≤ n && n ≤ 0xdbff

def isLowSurrogate (n : Nat) : Bool := 0xdc00 ≤ n && n ≤ 0xdfff

/-- Put bytes before what a reader of the rest of a string yields. -/
def before (bytes : Bytes) (r : Option (Bytes × Bytes)) : Option (Bytes × Bytes) :=
  r.map fun (content, rest) => (bytes ++ content, rest)

/-- The bytes that a string's text stands for, from after its opening quote to its closing one. -/
def readContent : Bytes → Option (Bytes × Bytes)
  | [] => none
  | 0x22 :: rest => some ([], rest)
  | 0x5c :: 0x75 :: a :: b :: c :: d :: rest =>
    match hexUnit? a b c d with
    | none => none
    | some n =>
      if isLowSurrogate n then none
      else if isHighSurrogate n then
        match rest with
        | 0x5c :: 0x75 :: a :: b :: c :: d :: rest =>
          match hexUnit? a b c d with
          | none => none
          | some m =>
            if isLowSurrogate m then
              before (characterBytes (0x10000 + 0x400 * (n - 0xd800) + (m - 0xdc00)))
                (readContent rest)
            else none
        | _ => none
      else before (characterBytes n) (readContent rest)
  | 0x5c :: e :: rest =>
    match shortEscape? e with
    | none => none
    | some b => before [b] (readContent rest)
  | b :: rest => if b < 0x20 then none else before [b] (readContent rest)

/-- A string. -/
def readText : Reader String
  | 0x22 :: rest =>
    match readContent rest with
    | none => none
    | some (content, rest) => (Bytes.toString? content).map fun s => (s, rest)
  | _ => none

/-- A number. -/
def readNumber : Reader Number := fun bytes =>
  match scanNumeral bytes with
  | none => none
  | some (m, rest) => (Number.ofNumeral? m).map fun n => (n, rest)

/-- A value in which arrays and objects stand in each other at most `depth` deep. -/
def readValue : Nat → Reader Json
  | depth, bytes =>
    match bytes with
    | 0x6e :: 0x75 :: 0x6c :: 0x6c :: rest => some (.null, rest)
    | 0x74 :: 0x72 :: 0x75 :: 0x65 :: rest => some (.bool true, rest)
    | 0x66 :: 0x61 :: 0x6c :: 0x73 :: 0x65 :: rest => some (.bool false, rest)
    | 0x22 :: _ => (readText bytes).map fun (s, rest) => (.text s, rest)
    | 0x5b :: rest =>
      match depth with
      | 0 => none
      | depth + 1 =>
        (readList 0x5d (readValue depth) rest).map fun (vs, rest) => (.array vs, rest)
    | 0x7b :: rest =>
      match depth with
      | 0 => none
      | depth + 1 =>
        (readList 0x7d (readMember readText fun _ => readValue depth) rest).map
          fun (ms, rest) => (ofMembers ms, rest)
    | _ => (readNumber bytes).map fun (n, rest) => (.number n, rest)

/-- How deep arrays and objects may stand in each other. -/
def depthLimit : Nat := 127

/-- What a reader makes of a whole text with blanks around. -/
def whole? {α : Type} (reader : Reader α) (bytes : Bytes) : Option α :=
  match reader (skipBlank bytes) with
  | none => none
  | some (v, rest) => if skipBlank rest = [] then some v else none

/-- The value of a whole text. -/
def parse? (bytes : Bytes) : Option Json := whole? (readValue depthLimit) bytes

end Json
end FloodMesh
