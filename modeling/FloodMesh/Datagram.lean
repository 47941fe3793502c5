import FloodMesh.Bytes
import FloodMesh.Failure

/-!
# FloodMesh.Datagram

Datagrams in flight. A network is the queue of those sent and not yet delivered, oldest first; an
outlet is an endpoint that sends into it. A datagram to a blocked target fails and is not queued.
-/

namespace FloodMesh

structure Datagram where
  source : Endpoint
  target : Endpoint
  payload : Bytes
  deriving DecidableEq, Repr

/-- Datagrams in flight, oldest first. -/
structure Network where
  queue : List Datagram := []
  deriving DecidableEq, Repr

namespace Network

/-- The oldest datagram, and the network without it. -/
def pop? (n : Network) : Option (Datagram × Network) :=
  match n.queue with
  | [] => none
  | d :: rest => some (d, ⟨rest⟩)

def push (n : Network) (d : Datagram) : Network := ⟨n.queue ++ [d]⟩

/-- Number of datagrams in flight. -/
def pending (n : Network) : Nat := n.queue.length

/-- Take out everything that a source has sent, as targets and payloads. -/
def takeFrom (n : Network) (source : Endpoint) : Network × List (Endpoint × Bytes) :=
  let (mine, others) := n.queue.partition fun d => d.source == source
  (⟨others⟩, mine.map fun d => (d.target, d.payload))

end Network

/-- An endpoint that sends datagrams. -/
structure Outlet where
  address : Endpoint
  /-- Targets that cannot be reached. -/
  blocked : List Endpoint := []
  deriving DecidableEq, Repr

namespace Outlet

/-- Let every later datagram to a target fail. -/
def block (o : Outlet) (target : Endpoint) : Outlet := { o with blocked := target :: o.blocked }

/-- Send one datagram. -/
def send (o : Outlet) (n : Network) (payload : Bytes) (target : Endpoint) :
    Except NetworkError Network :=
  if o.blocked.contains target then .error (.sendFailed target "unreachable")
  else .ok (n.push { source := o.address, target, payload })

/-- Send one datagram to each target. Failures are passed over; the number says how many
succeeded. -/
def sendAll (o : Outlet) (n : Network) (payload : Bytes) : List Endpoint → Network × Nat
  | [] => (n, 0)
  | target :: targets =>
    match o.send n payload target with
    | .error _ => o.sendAll n payload targets
    | .ok n =>
      let (n, delivered) := o.sendAll n payload targets
      (n, delivered + 1)

end Outlet
end FloodMesh
