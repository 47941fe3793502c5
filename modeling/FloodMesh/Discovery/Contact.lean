import FloodMesh.Address.Parser
import FloodMesh.Datagram
import FloodMesh.Wire.Request

/-!
# FloodMesh.Discovery.Contact

A server that is contacted by host and port, as a configuration names it: usually the directory.
The host is looked up anew for every message; how is up to the machine.
-/

namespace FloodMesh

/-- How a machine looks up a host with its port: the endpoints that they stand for, the preferred
one first, if it knows any. -/
abbrev Lookup := String → Option (List Endpoint)

/-- A machine that knows no names: a host has to be an address. An IPv6 address may stand in
brackets or without them. -/
def Lookup.numeric : Lookup := fun text =>
  let (port, rest) := text.toList.reverse.span (· ≠ ':')
  let bracketed := '[' :: (rest.drop 1).reverse ++ ']' :: ':' :: port.reverse
  ((Endpoint.ofString? text).or (Endpoint.ofString? (String.ofList bracketed))).map ([·])

structure Contact where
  host : String
  port : UInt16
  deriving DecidableEq, Repr

namespace Contact

/-- Host and port as configured. -/
def text (c : Contact) : String := c.host ++ ":" ++ Nat.repr c.port.toNat

variable (c : Contact) (lookup : Lookup)

/-- The endpoint to contact, or the failure to find one. -/
def resolve : Except Failure Endpoint :=
  match lookup c.text with
  | some (e :: _) => .ok e
  | _ => .error (.network (.invalidAddress c.text))

/-- Send a request that gets no reply, as a datagram. -/
def signal (o : Outlet) (n : Network) (q : Request) : Except Failure Network :=
  match c.resolve lookup with
  | .error e => .error e
  | .ok e => (o.send n q.encode e).mapError .network

/-- Register at the contact, listening on a port. -/
def connect (o : Outlet) (n : Network) (port : UInt16) : Except Failure Network :=
  c.signal lookup o n (.connect (Nat.repr port.toNat))

/-- Take back the registration. -/
def disconnect (o : Outlet) (n : Network) (port : UInt16) : Except Failure Network :=
  c.signal lookup o n (.disconnect (Nat.repr port.toNat))

end Contact
end FloodMesh
