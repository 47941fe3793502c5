import FloodMesh.Relay
import FloodMesh.Service.Basic

/-!
# FloodMesh.Service.Router

Routers. Clients register with datagrams; broadcasts arrive over streams or as datagrams, and
neither way gets a reply.
-/

namespace FloodMesh

/-- The state of a router: its relay, and what it has sent. -/
structure Router where
  relay : Relay
  network : Network := {}

namespace Router

/-- The name that `info` reports. -/
def name : String := "floodnet router"

def info (r : Router) : Json :=
  .ofMembers [("name", .text name), ("clients", .ofNat r.relay.clients.size),
    ("cache-load", .ofNat r.relay.messages.size)]

/-- Flood an envelope that came from an address. -/
def flood (r : Router) (e : Envelope) (source : Option IpAddress) : Router × FloodOutcome :=
  let (relay, network, outcome) := r.relay.handle r.network e source
  ({ relay, network }, outcome)

/-- Answer a ping at a port of the sender's address. -/
def pong (r : Router) (peer : Endpoint) (port : UInt16) : Router :=
  match r.relay.outlet.send r.network Request.pong.encode { ip := peer.ip, port } with
  | .ok network => { r with network }
  | .error _ => r

/-- The reply to a request. -/
def answer (r : Router) (q : Request) (peer : Endpoint) : Router × Option Response :=
  match q with
  | .broadcast e => ((r.flood e (some peer.ip)).1, none)
  | .ip => (r, some (.ofJson (.ofMembers [("ip", .text peer.ip.format)])))
  | .info => (r, some (.ofJson r.info))
  | .ping _ => (r, some .okay)
  | .discover num _ =>
    if num = 0 then (r, some (.error .badNum))
    else (r, some (.ofJson (r.relay.routers.listJson num none)))
  | _ => (r, some (.error .badMethod))

/-- Change the table of clients. -/
def setClients (r : Router) (clients : PeerTable) : Router :=
  { r with relay := { r.relay with clients } }

/-- A datagram registers or removes a client, floods, asks for a pong, or does nothing. -/
def absorb (r : Router) (q : Request) (peer : Endpoint) : Router :=
  match q with
  | .connect port =>
    match r.relay.clients.registerAt peer.ip port with
    | .ok (clients, _) => r.setClients clients
    | .error _ => r
  | .disconnect port =>
    match r.relay.clients.unregisterAt peer.ip port with
    | .ok (clients, _) => r.setClients clients
    | .error _ => r
  | .broadcast e => (r.flood e (some peer.ip)).1
  | .ping (some port) => r.pong peer port
  | _ => r

/-- Routers as a kind of node. -/
def service : Service Router := { answer, absorb }

/-- Let one tick pass for one table. -/
def tick (r : Router) (table : Relay.Table) : Router :=
  { r with relay := (r.relay.ticks table 1).1 }

end Router
end FloodMesh
