import FloodMesh.Failure
import FloodMesh.Text.Blank

/-!
# FloodMesh.Config.Settings

The settings of directories and routers. Every setting has a default. Settings that no node could
run with are found before anything is started; of several, the first in the order below is
reported.
-/

namespace FloodMesh

/-- Size and timing of a table of leases. -/
structure TableSettings where
  /-- Ticks that an entry lives. -/
  ttlTicks : Nat := 10
  /-- Seconds between ticks. -/
  resolutionSecs : Nat := 1
  /-- Number of hash buckets. -/
  buckets : Nat := 64
  deriving DecidableEq, Repr

structure DirectorySettings where
  /-- Zero lets the machine pick a free port. -/
  listenPort : UInt16 := 6666
  /-- How many connections and datagrams are handled at the same time. -/
  maxWorkers : Nat := 1000
  /-- Registered routers. -/
  peers : TableSettings := {}
  deriving DecidableEq, Repr

structure RouterSettings where
  listenPort : UInt16 := 5555
  /-- How many connections and datagrams are handled at the same time. -/
  maxWorkers : Nat := 1000
  /-- Host name or address of the directory. -/
  directoryAddress : String := "127.0.0.1"
  directoryPort : UInt16 := 6666
  /-- Envelopes with this many hops go no further. -/
  hopLimit : Nat := 4
  /-- How many routers to ask the directory for. -/
  outdegree : Nat := 32
  /-- Seconds between registrations at the directory. -/
  keepaliveSecs : Nat := 9
  /-- Seconds between refreshes of the set of routers. -/
  refreshSecs : Nat := 30
  /-- Seconds to wait after a failed refresh. -/
  retrySecs : Nat := 30
  /-- Local clients. -/
  clients : TableSettings := {}
  /-- Ids of messages seen lately. -/
  messages : TableSettings := {}
  /-- Routers known from the directory. -/
  routers : TableSettings := { ttlTicks := 90 }
  deriving DecidableEq, Repr

/-- The most hops that the single digit of an envelope can express. -/
def maxHopLimit : Nat := 9

/-- Refuse a setting unless a condition holds. -/
def demand (holds : Bool) (field reason : String) : Except ConfigError Unit :=
  if holds then .ok () else .error (.invalidValue field reason)

/-- Refuse zero. -/
def demandPositive (value : Nat) (field : String) : Except ConfigError Unit :=
  demand (0 < value) field "must be positive"

namespace TableSettings

/-- The greatest number of seconds that a duration has. -/
def maxSecs : Nat := UInt64.size - 1

/-- Seconds that an entry lives. -/
def lifetimeSecs (s : TableSettings) : Nat := min (s.resolutionSecs * s.ttlTicks) maxSecs

/-- Check the settings of the table with a given name. -/
def validate (s : TableSettings) (table : String) : Except ConfigError Unit := do
  demandPositive s.ttlTicks (table ++ ".ttl_ticks")
  demandPositive s.resolutionSecs (table ++ ".resolution_secs")
  demandPositive s.buckets (table ++ ".buckets")

end TableSettings

def DirectorySettings.validate (s : DirectorySettings) : Except ConfigError Unit := do
  demandPositive s.maxWorkers "max_workers"
  s.peers.validate "peers"

/-- Check the settings. Other nodes have to reach a router, so it cannot listen on a port that the
machine picks. -/
def RouterSettings.validate (s : RouterSettings) : Except ConfigError Unit := do
  demand (s.listenPort ≠ 0) "listen_port" "must be a fixed port"
  demand (!Text.allBlank s.directoryAddress) "directory_address" "must not be empty"
  demandPositive s.directoryPort.toNat "directory_port"
  demand (1 ≤ s.hopLimit && s.hopLimit ≤ maxHopLimit) "hop_limit"
    ("must be between 1 and " ++ Nat.repr maxHopLimit)
  demandPositive s.maxWorkers "max_workers"
  demandPositive s.outdegree "outdegree"
  demandPositive s.keepaliveSecs "keepalive_interval_secs"
  demandPositive s.refreshSecs "router_refresh_interval_secs"
  demandPositive s.retrySecs "directory_retry_interval_secs"
  s.clients.validate "clients"
  s.messages.validate "messages"
  s.routers.validate "routers"

end FloodMesh
