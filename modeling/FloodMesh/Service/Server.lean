import FloodMesh.Stream.Session
import FloodMesh.SystemFault

/-!
# FloodMesh.Service.Server

A service that listens for connections and datagrams at one port. Everything that is being handled
has a worker, and there are only so many: a connection that finds none is closed without a reply,
and a datagram is dropped.
-/

namespace FloodMesh

/-- Listen for connections and datagrams at one port, which may be taken for either. -/
def Endpoint.listen (e : Endpoint) (streams datagrams : Option SystemFault) :
    Except NetworkError Endpoint :=
  match streams.or datagrams with
  | some fault => .error (.bindFailed e.format fault.reason)
  | none => .ok e

structure Server (σ : Type) where
  service : Service σ
  state : σ
  /-- How many connections and datagrams are handled at the same time; at least one is. -/
  maxWorkers : Nat
  /-- Connections that stay open and keep their workers. -/
  idle : Nat := 0
  listening : Bool := true

namespace Server

variable {σ : Type} (s : Server σ)

/-- Whether a worker is free. -/
def hasRoom : Bool := s.idle < max 1 s.maxWorkers

/-- Serve a connection to its end. The answer is what was written to it; `none` if nobody
listens. -/
def accept (c : Connection) : Server σ × Option Bytes :=
  if !s.listening then (s, none)
  else if !s.hasRoom then (s, some [])
  else
    let (state, c) := Session.serve s.service s.state c
    ({ s with state }, some c.sink.accepted)

/-- What a caller gets who reaches the machine over a route, which may be at fault. -/
def reach (route : Option SystemFault) (c : Connection) : Server σ × Option Bytes :=
  match route with
  | some _ => (s, none)
  | none => s.accept c

/-- Serve a connection that then stays open without a word. -/
def hold (c : Connection) : Server σ × Option Bytes :=
  let (t, written) := s.accept c
  (if s.listening && s.hasRoom then { t with idle := t.idle + 1 } else t, written)

/-- Let go of a connection that stays open. -/
def release : Server σ := { s with idle := s.idle - 1 }

/-- Take in a datagram. -/
def receive (bytes : Bytes) (peer : Endpoint) : Server σ :=
  if s.listening && s.hasRoom then
    match s.service.absorbMessage s.state bytes peer with
    | .ok state => { s with state }
    | .error _ => s
  else s

/-- Listen no more. -/
def shutdown : Server σ := { s with listening := false }

end Server
end FloodMesh
