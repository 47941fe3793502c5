import FloodMesh.Discovery.Exchange
import FloodMesh.Peers

/-!
# FloodMesh.Discovery.Refresh

Keeping the set of known routers fresh. Every refresh asks the directory for routers and swaps the
set for the answer; when that fails, the set stays as it is.
-/

namespace FloodMesh

/-- What a router asks for, and how often. -/
structure RefreshSchedule where
  /-- How many routers to ask for. -/
  outdegree : Nat
  /-- The port that one listens on oneself, to be left out of the answer. -/
  listenPort : UInt16
  /-- Milliseconds to wait after a refresh. -/
  interval : Nat
  /-- Milliseconds to wait after one that failed. -/
  retryInterval : Nat
  deriving DecidableEq, Repr

namespace RefreshSchedule

/-- One refresh. The number says how many routers the directory named. -/
def refresh (s : RefreshSchedule) (directory : Contact) (lookup : Lookup) (dial : Dial)
    (routers : PeerTable) : PeerTable × Except Failure Nat :=
  match directory.discover lookup dial s.outdegree s.listenPort with
  | .error e => (routers, .error e)
  | .ok found => (routers.replace found, .ok found.length)

/-- How long to wait for the next refresh. -/
def wait (s : RefreshSchedule) : Except Failure Nat → Nat
  | .ok _ => s.interval
  | .error _ => s.retryInterval

end RefreshSchedule
end FloodMesh
