import FloodMesh.Address.Basic
import FloodMesh.Text.Quoted

/-!
# FloodMesh.Address.Printer

Addresses as text. IPv6 addresses follow RFC 5952: lower-case hexadecimal groups, and the longest
run of two or more zero groups, the first of several, left out between two colons; addresses that
stand for an IPv4 address end in its dotted form.
-/

namespace FloodMesh

/-- Texts with a separator between them. -/
def joinWith (separator : String) : List String → String
  | [] => ""
  | t :: ts => ts.foldl (fun acc u => acc ++ separator ++ u) t

namespace IpAddress

/-- Four octets in dotted form. -/
def dotted (octets : List UInt8) : String := joinWith "." (octets.map fun o => Nat.repr o.toNat)

/-- Groups in hexadecimal between colons. -/
def colonGroups (groups : List UInt16) : String :=
  joinWith ":" (groups.map fun g => Text.hex g.toNat)

/-- Length of the run of zeros at the front. -/
def zeroRun (groups : List UInt16) : Nat := (groups.takeWhile (· == 0)).length

/-- Start and length of the longest run of zeros, the first of several. -/
def longestZeroRun (groups : List UInt16) : Nat × Nat :=
  (List.range groups.length).foldl
    (fun best i => let n := zeroRun (groups.drop i); if best.2 < n then (i, n) else best) (0, 0)

/-- The IPv4 address that an IPv6 address stands for. -/
def mapped? : List UInt16 → Option (List UInt8)
  | [0, 0, 0, 0, 0, 0xffff, g, h] =>
    some [(g >>> 8).toUInt8, g.toUInt8, (h >>> 8).toUInt8, h.toUInt8]
  | _ => none

/-- Eight groups as text. -/
def formatGroups (groups : List UInt16) : String :=
  match mapped? groups with
  | some octets => "::ffff:" ++ dotted octets
  | none =>
    let (start, length) := longestZeroRun groups
    if 1 < length then
      colonGroups (groups.take start) ++ "::" ++ colonGroups (groups.drop (start + length))
    else colonGroups groups

/-- An address as text. -/
def format : IpAddress → String
  | v4 octets => dotted octets.toList
  | v6 groups => formatGroups groups.toList

end IpAddress

/-- An endpoint as text; an IPv6 address stands in brackets. -/
def Endpoint.format (e : Endpoint) : String :=
  match e.ip with
  | .v4 _ => e.ip.format ++ ":" ++ Nat.repr e.port.toNat
  | .v6 _ =>
    "[" ++ e.ip.format ++ (if e.zone = 0 then "" else "%" ++ Nat.repr e.zone.toNat) ++ "]:" ++
      Nat.repr e.port.toNat

end FloodMesh
