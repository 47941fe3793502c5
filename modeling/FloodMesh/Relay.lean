import FloodMesh.Peers
import FloodMesh.Sightings
import FloodMesh.Wire.Request

/-!
# FloodMesh.Relay

Flooding at one router. An envelope goes on to every known router, except those on the address it
came from, and to every local client. Two things stop a flood: the hops, of which there is a limit,
and the memory of ids, by which a router passes each message on once.
-/

namespace FloodMesh

/-- What became of an envelope. -/
inductive FloodOutcome
  /-- It had as many hops as the limit allows. -/
  | hopLimitReached
  /-- Its id was remembered. -/
  | duplicate
  /-- With one hop more, it would not fit into a datagram. -/
  | tooLarge (size : Nat)
  /-- It went on to so many routers and clients. -/
  | forwarded (routers clients : Nat)
  deriving DecidableEq, Repr

/-- A router's part in flooding. -/
structure Relay where
  /-- Written into the envelopes that go on. -/
  listenPort : UInt16
  /-- Envelopes with this many hops go no further. -/
  hopLimit : Nat
  messages : Sightings
  /-- Routers known from the directory. -/
  routers : PeerTable
  /-- Local clients. -/
  clients : PeerTable
  outlet : Outlet

namespace Relay

/-- Whether an envelope goes on, and what it is then. Its id is remembered. -/
def screen (r : Relay) (e : Envelope) : Relay × Except FloodOutcome Envelope :=
  if r.hopLimit ≤ e.hops then (r, .error .hopLimitReached)
  else
    let (messages, seen) := r.messages.see e.id
    let r := { r with messages }
    if seen then (r, .error .duplicate)
    else (r, .ok { e with hops := e.hops + 1, hopPort := r.listenPort })

/-- Take an envelope through: `source` is the address it came from, `none` for one's own. -/
def handle (r : Relay) (n : Network) (e : Envelope) (source : Option IpAddress) :
    Relay × Network × FloodOutcome :=
  match r.screen e with
  | (r, .error outcome) => (r, n, outcome)
  | (r, .ok e) =>
    let payload := e.encode
    if maxMessageSize < payload.length then (r, n, .tooLarge payload.length)
    else
      let (n, routers) := r.outlet.sendAll n payload (r.routers.endpointsExcluding source)
      let (n, clients) := r.outlet.sendAll n payload (r.clients.endpointsExcluding none)
      (r, n, .forwarded routers clients)

/-- Which of a relay's tables. -/
inductive Table
  | routers
  | clients
  | messages
  deriving DecidableEq, Repr

/-- Let ticks pass for one table. The answers are the numbers of entries that ran out. -/
def ticks (r : Relay) (table : Table) (n : Nat) : Relay × List Nat :=
  match table with
  | .routers => let (t, a) := r.routers.ticks n; ({ r with routers := t }, a)
  | .clients => let (t, a) := r.clients.ticks n; ({ r with clients := t }, a)
  | .messages => let (t, a) := r.messages.ticks n; ({ r with messages := t }, a)

end Relay
end FloodMesh
