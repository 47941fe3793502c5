import FloodMesh.Peers
import FloodMesh.Service.Basic

/-!
# FloodMesh.Service.Directory

The directory. Routers register with datagrams and learn about each other from lists over a stream.
-/

namespace FloodMesh

/-- The state of a directory: the routers registered with it. -/
structure Directory where
  peers : PeerTable

namespace Directory

/-- The name that `info` reports. -/
def name : String := "floodnet directory"

def info (d : Directory) : Json :=
  .ofMembers [("name", .text name), ("routers", .ofNat d.peers.size)]

/-- The reply to a request. -/
def answer (d : Directory) (r : Request) (peer : Endpoint) : Directory × Option Response :=
  match r with
  | .list num => (d, some (.ofJson (d.peers.listJson num none)))
  | .discover num (some port) =>
    (d, some (.ofJson (d.peers.listJson num (some { ip := peer.ip, port }))))
  | .discover _ none => (d, some (.error .noPort))
  | .info => (d, some (.ofJson d.info))
  | _ => (d, some (.error .badMethod))

/-- A datagram registers the sender, removes it, or does nothing. -/
def absorb (d : Directory) (r : Request) (peer : Endpoint) : Directory :=
  match r with
  | .connect port =>
    match d.peers.registerAt peer.ip port with
    | .ok (peers, _) => { peers }
    | .error _ => d
  | .disconnect port =>
    match d.peers.unregisterAt peer.ip port with
    | .ok (peers, _) => { peers }
    | .error _ => d
  | _ => d

/-- Directories as a kind of node. -/
def service : Service Directory := { answer, absorb }

/-- Let one tick pass. -/
def tick (d : Directory) : Directory := { peers := d.peers.tick.1 }

end Directory
end FloodMesh
