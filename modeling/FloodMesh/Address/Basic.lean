/-!
# FloodMesh.Address.Basic

Where peers are: IPv4 and IPv6 addresses, and endpoints, which are an address with a port. An IPv6
endpoint of link-local scope carries the number of its zone; in all others the zone is zero.
-/

namespace FloodMesh

/-- An IP address: four octets, or eight groups of sixteen bits. -/
inductive IpAddress
  | v4 (octets : Vector UInt8 4)
  | v6 (groups : Vector UInt16 8)
  deriving DecidableEq, Repr

namespace IpAddress

/-- The number of the address family: 4 or 6. -/
def family : IpAddress → Nat
  | v4 _ => 4
  | v6 _ => 6

/-- The octets or groups as numbers, after the family. -/
def parts : IpAddress → List Nat
  | v4 octets => 4 :: octets.toList.map UInt8.toNat
  | v6 groups => 6 :: groups.toList.map UInt16.toNat

instance : Hashable IpAddress := ⟨fun ip => hash ip.parts⟩

/-- All interfaces of the machine. -/
def unspecified : IpAddress := .v4 #v[0, 0, 0, 0]

end IpAddress

/-- An address with a port. -/
structure Endpoint where
  ip : IpAddress
  port : UInt16
  zone : UInt32 := 0
  deriving DecidableEq, Repr, Hashable

end FloodMesh
