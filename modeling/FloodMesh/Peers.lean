import FloodMesh.Datagram
import FloodMesh.Lease.Table
import FloodMesh.Text.Numeral
import FloodMesh.Wire.Peer

/-!
# FloodMesh.Peers

Tables of live peers. A peer stays registered for a fixed number of ticks after it last signalled.
-/

namespace FloodMesh

/-- A registration. -/
structure Peer where
  ip : IpAddress
  port : UInt16
  deriving DecidableEq, Repr

namespace Peer

def ofEndpoint (e : Endpoint) : Peer := { ip := e.ip, port := e.port }

/-- Where the peer is reached. -/
def endpoint (p : Peer) : Endpoint := { ip := p.ip, port := p.port }

/-- The peer as replies list it. -/
def record (p : Peer) : PeerRecord := .ofEndpoint p.endpoint

end Peer

/-- Live peers by endpoint. -/
structure PeerTable where
  /-- What the table is called in logs. -/
  name : String
  leases : LeaseTable Endpoint Peer

namespace PeerTable

/-- A table whose registrations live `ttl` ticks. -/
def empty (name : String) (ttl buckets : Nat) : PeerTable :=
  { name, leases := .empty ttl buckets }

def size (t : PeerTable) : Nat := t.leases.size

def isEmpty (t : PeerTable) : Bool := t.leases.isEmpty

/-- Ticks that a registration lives. -/
def ttl (t : PeerTable) : Nat := t.leases.ttl

def contains (t : PeerTable) (e : Endpoint) : Bool := t.leases.contains e

/-- Register or refresh a peer. The answer says whether it was there. -/
def register (t : PeerTable) (e : Endpoint) : PeerTable × Bool :=
  let s := t.leases.insert e (.ofEndpoint e)
  ({ t with leases := s.table }, s.answer)

/-- Register or refresh a peer at the port that a text names. -/
def registerAt (t : PeerTable) (ip : IpAddress) (port : String) :
    Except RoutingError (PeerTable × Bool) :=
  match Text.port? port with
  | none => .error (.invalidPort port)
  | some p => .ok (t.register { ip, port := p })

/-- Remove a registration. -/
def unregister (t : PeerTable) (e : Endpoint) : Except RoutingError (PeerTable × Peer) :=
  let s := t.leases.remove e
  match s.answer with
  | none => .error (.peerNotFound e)
  | some p => .ok ({ t with leases := s.table }, p)

/-- Remove a registration at the port that a text names. -/
def unregisterAt (t : PeerTable) (ip : IpAddress) (port : String) :
    Except RoutingError (PeerTable × Peer) :=
  match Text.port? port with
  | none => .error (.invalidPort port)
  | some p => t.unregister { ip, port := p }

/-- Endpoints, oldest registration first. -/
def endpoints (t : PeerTable) : List Endpoint := t.leases.toList.map (·.1)

/-- Up to `limit` peers, oldest registration first, without one endpoint. -/
def list (t : PeerTable) (limit : Nat) (exclude : Option Endpoint) : List Peer :=
  ((t.leases.toList.filter fun m => some m.1 != exclude).map (·.2)).take limit

/-- Such a list as the body of a reply. -/
def listJson (t : PeerTable) (limit : Nat) (exclude : Option Endpoint) : Json :=
  .array ((t.list limit exclude).map fun p => p.record.toJson)

/-- Endpoints that are not on an address, oldest registration first. -/
def endpointsExcluding (t : PeerTable) (ip : Option IpAddress) : List Endpoint :=
  t.endpoints.filter fun e => some e.ip != ip

/-- Send a payload to every peer. The number says how many datagrams went out. A peer that cannot be
reached stays registered. -/
def fanOut (t : PeerTable) (o : Outlet) (n : Network) (payload : Bytes) : Network × Nat :=
  o.sendAll n payload (t.endpointsExcluding none)

/-- Swap the registrations for others, all with a full time to live. -/
def replace (t : PeerTable) (endpoints : List Endpoint) : PeerTable :=
  { t with leases := (t.leases.replace (endpoints.map fun e => (e, .ofEndpoint e))).table }

def clear (t : PeerTable) : PeerTable := { t with leases := t.leases.clear.table }

/-- Let one tick pass. The answer is the number of peers that ran out. -/
def tick (t : PeerTable) : PeerTable × Nat :=
  let s := t.leases.tick
  ({ t with leases := s.table }, s.answer)

/-- Let several ticks pass. -/
def ticks (t : PeerTable) (n : Nat) : PeerTable × List Nat :=
  let s := t.leases.ticks n
  ({ t with leases := s.table }, s.answer)

end PeerTable
end FloodMesh
