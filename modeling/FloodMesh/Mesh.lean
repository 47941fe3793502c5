import FloodMesh.Relay

/-!
# FloodMesh.Mesh

Relays on one network. Delivering a broadcast runs the relay at its target; where there is none, it
has arrived at a client. Any other datagram changes nothing.
-/

namespace FloodMesh

structure Mesh where
  relays : List Relay
  network : Network := {}

/-- What became of a delivered datagram. -/
inductive Delivery
  /-- A relay handled the envelope. -/
  | relayed (envelope : Envelope) (outcome : FloodOutcome)
  /-- The envelope has arrived at a client. -/
  | received (envelope : Envelope)
  /-- The datagram is another request. -/
  | ignored (request : Request)
  /-- The datagram is no request. -/
  | rejected (why : ProtocolError)
  deriving Repr

namespace Mesh

/-- The position of the relay at an endpoint. -/
def indexOf? (m : Mesh) (e : Endpoint) : Option Nat :=
  m.relays.findIdx? fun r => r.outlet.address == e

/-- Let a relay handle an envelope. -/
def handleAt (m : Mesh) (i : Nat) (e : Envelope) (source : Option IpAddress) :
    Mesh × Option FloodOutcome :=
  match m.relays[i]? with
  | none => (m, none)
  | some r =>
    let (r, network, outcome) := r.handle m.network e source
    ({ relays := m.relays.set i r, network }, some outcome)

/-- Deliver a datagram that has left the queue. -/
def deliver (m : Mesh) (d : Datagram) : Mesh × Delivery :=
  match Request.parse d.payload with
  | .error e => (m, .rejected e)
  | .ok (.broadcast e) =>
    match m.indexOf? d.target with
    | none => (m, .received e)
    | some i =>
      match m.handleAt i e (some d.source.ip) with
      | (m, some outcome) => (m, .relayed e outcome)
      | (m, none) => (m, .received e)
  | .ok r => (m, .ignored r)

/-- Deliver up to `n` datagrams, oldest first. -/
def run (m : Mesh) : Nat → Mesh × List (Datagram × Delivery)
  | 0 => (m, [])
  | n + 1 =>
    match m.network.pop? with
    | none => (m, [])
    | some (d, network) =>
      let (m, delivery) := { m with network }.deliver d
      let (m, rest) := m.run n
      (m, (d, delivery) :: rest)

/-- Change the relay at a position. -/
def adjust (m : Mesh) (i : Nat) (f : Relay → Relay) : Mesh :=
  { m with relays := m.relays.modify i f }

/-- Let two relays know each other. -/
def link (m : Mesh) (i j : Nat) : Mesh :=
  match m.relays[i]?, m.relays[j]? with
  | some a, some b =>
    (m.adjust i fun r => { r with routers := (r.routers.register b.outlet.address).1 }).adjust j
      fun r => { r with routers := (r.routers.register a.outlet.address).1 }
  | _, _ => m

end Mesh
end FloodMesh
