import FloodMesh.Address.Basic

/-!
# FloodMesh.Address.Parser

Addresses from text. An octet has at most three digits and no zero in front; a group has at most
four hexadecimal digits; two colons stand for one or more zero groups; the last two groups may be
written as an IPv4 address. Ports and zones may have any number of zeros in front.
-/

namespace FloodMesh
namespace Address

/-- A reader of a piece of an address: the value and the characters after it. -/
abbrev Reader (α : Type) := List Char → Option (α × List Char)

/-- The value of a hexadecimal digit in either case. -/
def hexDigit? (c : Char) : Option Nat :=
  if '0' ≤ c ∧ c ≤ '9' then some (c.toNat - '0'.toNat)
  else if 'a' ≤ c ∧ c ≤ 'f' then some (c.toNat - 'a'.toNat + 10)
  else if 'A' ≤ c ∧ c ≤ 'F' then some (c.toNat - 'A'.toNat + 10)
  else none

/-- The value of a digit in a radix up to sixteen. -/
def digit? (radix : Nat) (c : Char) : Option Nat :=
  (hexDigit? c).bind fun d => if d < radix then some d else none

/-- The digits at the front. -/
def digits (radix : Nat) : List Char → List Nat × List Char
  | [] => ([], [])
  | c :: cs =>
    match digit? radix c with
    | none => ([], c :: cs)
    | some d => let (ds, rest) := digits radix cs; (d :: ds, rest)

/-- The number that digits write in a radix. -/
def digitsValue (radix : Nat) (ds : List Nat) : Nat := ds.foldl (fun n d => radix * n + d) 0

/-- A decimal number below a bound, zeros in front allowed. -/
def number (bound : Nat) : Reader Nat := fun cs =>
  match digits 10 cs with
  | ([], _) => none
  | (ds, rest) => let n := digitsValue 10 ds; if n < bound then some (n, rest) else none

/-- An octet. -/
def octet : Reader UInt8 := fun cs =>
  match digits 10 cs with
  | ([], _) => none
  | (d :: ds, rest) =>
    if 2 < ds.length ∨ (d = 0 ∧ ds ≠ []) then none
    else
      let n := digitsValue 10 (d :: ds)
      if n < 256 then some (UInt8.ofNat n, rest) else none

/-- A group of sixteen bits. -/
def group : Reader UInt16 := fun cs =>
  match digits 16 cs with
  | ([], _) => none
  | (ds, rest) =>
    if 4 < ds.length then none else some (UInt16.ofNat (digitsValue 16 ds), rest)

/-- A character and then what a reader reads. -/
def after {α : Type} (c : Char) (reader : Reader α) : Reader α
  | [] => none
  | d :: cs => if d = c then reader cs else none

/-- Four octets between points. -/
def octets : Reader (Vector UInt8 4) := fun cs =>
  match octet cs with
  | none => none
  | some (a, cs) =>
    match after '.' octet cs with
    | none => none
    | some (b, cs) =>
      match after '.' octet cs with
      | none => none
      | some (c, cs) =>
        match after '.' octet cs with
        | none => none
        | some (d, cs) => some (#v[a, b, c, d], cs)

/-- The two groups that four octets make. -/
def octetPairs (v : Vector UInt8 4) : List UInt16 :=
  [v[0].toUInt16 <<< 8 ||| v[1].toUInt16, v[2].toUInt16 <<< 8 ||| v[3].toUInt16]

/-- Up to `room` groups between colons, and whether they end in an IPv4 address, for which there
have to be two places. -/
def groups : (room : Nat) → (first : Bool) → List Char → List UInt16 × Bool × List Char
  | 0, _, cs => ([], false, cs)
  | room + 1, first, cs =>
    let next {α : Type} (reader : Reader α) : Option (α × List Char) :=
      if first then reader cs else after ':' reader cs
    match (if room = 0 then none else next octets) with
    | some (v, rest) => (octetPairs v, true, rest)
    | none =>
      match next group with
      | none => ([], false, cs)
      | some (g, rest) =>
        let (gs, dotted, rest) := groups room false rest
        (g :: gs, dotted, rest)

/-- Eight groups as a vector; zeros fill what is missing at the end. -/
def eight (gs : List UInt16) : Vector UInt16 8 := Vector.ofFn fun i => gs.getD i 0

/-- An IPv6 address: eight groups, or fewer on the two sides of a double colon. -/
def ipv6 : Reader (Vector UInt16 8) := fun cs =>
  let (front, dotted, rest) := groups 8 true cs
  if front.length = 8 then some (eight front, rest)
  else if dotted then none
  else
    match rest with
    | ':' :: ':' :: rest =>
      let (back, _, rest) := groups (7 - front.length) true rest
      some (eight (front ++ List.replicate (8 - front.length - back.length) 0 ++ back), rest)
    | _ => none

/-- An address of either family. -/
def ip : Reader IpAddress := fun cs =>
  match octets cs with
  | some (v, rest) => some (.v4 v, rest)
  | none => (ipv6 cs).map fun (v, rest) => (.v6 v, rest)

/-- A colon and a port. -/
def port : Reader UInt16 := fun cs =>
  (after ':' (number UInt16.size) cs).map fun (n, rest) => (UInt16.ofNat n, rest)

/-- A percent sign and a zone, or nothing. -/
def zone (cs : List Char) : UInt32 × List Char :=
  match after '%' (number UInt32.size) cs with
  | some (n, rest) => (UInt32.ofNat n, rest)
  | none => (0, cs)

/-- An endpoint with an IPv4 address. -/
def endpoint4 : Reader Endpoint := fun cs =>
  match octets cs with
  | none => none
  | some (v, cs) => (port cs).map fun (p, rest) => (⟨.v4 v, p, 0⟩, rest)

/-- An endpoint with an IPv6 address in brackets. -/
def endpoint6 : Reader Endpoint := fun cs =>
  match after '[' ipv6 cs with
  | none => none
  | some (v, cs) =>
    match zone cs with
    | (z, ']' :: cs) => (port cs).map fun (p, rest) => (⟨.v6 v, p, z⟩, rest)
    | _ => none

/-- What a reader makes of a whole text. -/
def whole? {α : Type} (reader : Reader α) (text : String) : Option α :=
  match reader text.toList with
  | some (v, []) => some v
  | _ => none

end Address

/-- The address that a text spells. -/
def IpAddress.ofString? (text : String) : Option IpAddress := Address.whole? Address.ip text

/-- The endpoint that a text spells. -/
def Endpoint.ofString? (text : String) : Option Endpoint :=
  (Address.whole? Address.endpoint4 text).or (Address.whole? Address.endpoint6 text)

end FloodMesh
