import FloodMesh.Config.Settings
import FloodMesh.Discovery.Keepalive
import FloodMesh.Discovery.Refresh
import FloodMesh.Service.Router

/-!
# FloodMesh.Node

A router's life: it is built from settings, runs once, and stops. While it runs it stays registered
at the directory, keeps its set of routers fresh, and floods what it is given. A message that would
not fit into a datagram is refused before anything happens.
-/

namespace FloodMesh

/-- A stage of a node's life. -/
inductive Stage
  | created
  | running
  | stopped
  deriving DecidableEq, Repr

/-- The stage as failures name it. -/
def Stage.text : Stage → String
  | created => "created"
  | running => "running"
  | stopped => "stopped"

structure Node where
  settings : RouterSettings
  router : Router
  stage : Stage := .created
  keepalive : Option Keepalive := none
  /-- When the set of routers is to be refreshed next, while the node runs. -/
  nextRefresh : Nat := 0

/-- What a node is built from. -/
structure NodePlan where
  settings : RouterSettings := {}
  /-- The address to listen on. -/
  listenIp : IpAddress := .unspecified

/-- An empty table of peers with given settings. -/
def PeerTable.ofSettings (name : String) (s : TableSettings) : PeerTable :=
  .empty name s.ttlTicks s.buckets

/-- An empty memory of messages with given settings. -/
def Sightings.ofSettings (s : TableSettings) : Sightings := .empty s.ttlTicks s.buckets

namespace NodePlan

/-- Where the node will listen. -/
def address (p : NodePlan) : Endpoint := { ip := p.listenIp, port := p.settings.listenPort }

/-- The relay of the node, with empty tables. -/
def relay (p : NodePlan) : Relay :=
  { listenPort := p.settings.listenPort, hopLimit := p.settings.hopLimit
    messages := .ofSettings p.settings.messages
    routers := .ofSettings "routers" p.settings.routers
    clients := .ofSettings "clients" p.settings.clients
    outlet := { address := p.address } }

/-- The node, if its settings are sound. -/
def build (p : NodePlan) : Except Failure Node :=
  match p.settings.validate with
  | .error e => .error (.config e)
  | .ok () => .ok { settings := p.settings, router := { relay := p.relay } }

end NodePlan

/-- What came of a message of one's own. -/
structure Receipt where
  id : String
  outcome : FloodOutcome
  deriving DecidableEq, Repr

namespace Node

/-- The directory to register at. -/
def directory (n : Node) : Contact :=
  { host := n.settings.directoryAddress, port := n.settings.directoryPort }

/-- How the set of routers is kept fresh. -/
def schedule (n : Node) : RefreshSchedule :=
  { outdegree := n.settings.outdegree, listenPort := n.settings.listenPort
    interval := 1000 * n.settings.refreshSecs, retryInterval := 1000 * n.settings.retrySecs }

/-- The failure of an operation that this stage does not allow. -/
def refused (n : Node) (operation : String) : Failure := .invalidState operation n.stage.text

/-- Where the node listens, if it does. -/
def address? (n : Node) : Option Endpoint :=
  if n.stage = .running then some n.router.relay.outlet.address else none

/-- Change the set of known routers. -/
def setRouters (n : Node) (routers : PeerTable) : Node :=
  { n with router := { n.router with relay := { n.router.relay with routers } } }

/-- Refresh the set of known routers if it is time to, and wait from now on for the next time. -/
def refresh (n : Node) (lookup : Lookup) (dial : Dial) (now : Nat) : Node :=
  if n.stage = .running ∧ n.nextRefresh ≤ now then
    let (routers, outcome) := n.schedule.refresh n.directory lookup dial n.router.relay.routers
    { n.setRouters routers with nextRefresh := now + n.schedule.wait outcome }
  else n

/-- Start to listen where the machine has let the node, and register. The first refresh is due at
once. -/
def start (n : Node) (lookup : Lookup) (bound : Except NetworkError Endpoint) (now : Nat) :
    Except Failure Node :=
  if n.stage ≠ .created then .error (n.refused "start")
  else
    match bound with
    | .error e => .error (.network e)
    | .ok address =>
      let relay := { n.router.relay with outlet := { n.router.relay.outlet with address } }
      let (k, network) := Keepalive.start n.directory n.settings.listenPort now
        (1000 * n.settings.keepaliveSecs) lookup relay.outlet n.router.network
      .ok { n with
        router := { relay, network }, stage := .running, keepalive := some k, nextRefresh := now }

/-- Register once more if it is time to. -/
def advance (n : Node) (lookup : Lookup) (now : Nat) : Node :=
  match n.keepalive with
  | none => n
  | some k =>
    let (k, network) := k.advance lookup now n.router.relay.outlet n.router.network
    { n with router := { n.router with network }, keepalive := some k }

/-- Take the registration back and stop to listen. -/
def stop (n : Node) (lookup : Lookup) : Except Failure Node :=
  match n.stage, n.keepalive with
  | .running, some k =>
    let (_, network) := k.finish lookup n.router.relay.outlet n.router.network
    .ok { n with router := { n.router with network }, stage := .stopped, keepalive := none }
  | _, _ => .error (n.refused "stop")

/-- Flood a message of one's own, with an id made of its content and the time. -/
def flood (n : Node) (nanoseconds : Nat) (payload : Fields) : Node × Except Failure Receipt :=
  if n.stage ≠ .running then (n, .error (n.refused "broadcast"))
  else
    let e := Envelope.originate nanoseconds payload
    let size := e.encode.length
    if maxMessageSize < size then (n, .error (.protocol (.messageTooLarge size maxMessageSize)))
    else
      let (router, outcome) := n.router.flood e none
      ({ n with router }, .ok { id := e.id, outcome })

/-- Flood a message of one's own. A node that refuses it is not handed back. -/
def broadcast (n : Node) (nanoseconds : Nat) (payload : Fields) :
    Except Failure (Node × Receipt) :=
  let (n, answer) := n.flood nanoseconds payload
  answer.map fun receipt => (n, receipt)

end Node
end FloodMesh
