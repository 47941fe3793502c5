import FloodMesh.Discovery.Contact
import FloodMesh.Stream.Connection
import FloodMesh.Wire.Peer
import FloodMesh.Wire.Response

/-!
# FloodMesh.Discovery.Exchange

Requests to a server and its replies. Each request has a connection of its own: the request goes
out, and the header of the reply says whether a body follows and how long it is.
-/

namespace FloodMesh

/-- How an endpoint is reached: over a connection, or not at all, for a reason. -/
abbrev Dial := Endpoint → Except String Connection

namespace Contact

/-- The reply's body after its header. -/
def receiveBody (c : Connection) : ResponseHeader → Connection × Except Failure (Option Bytes)
  | .error code reason => (c, .error (.network (.remoteError code reason)))
  | .okay none => (c.close, .ok none)
  | .okay (some size) =>
    match c.readExact size with
    | (c, .error e) => (c, .error (.network e))
    | (c, .ok body) => (c.close, .ok (some body))

/-- Send a request over a connection and receive the reply, with its body if there is one. -/
def exchange (c : Connection) (q : Request) : Connection × Except Failure (Option Bytes) :=
  match c.send q.encode with
  | (c, .error e) => (c, .error (.network e))
  | (c, .ok ()) =>
    match c.readMessage with
    | (c, .error e) => (c, .error (.network e))
    | (c, .ok none) => (c, .error (.network .connectionReset))
    | (c, .ok (some header)) =>
      match ResponseHeader.parse header with
      | .error e => (c, .error (.protocol e))
      | .ok header => receiveBody c header

variable (c : Contact) (lookup : Lookup) (dial : Dial)

/-- Send one request and receive the body of its reply, if there is one. -/
def request (q : Request) : Except Failure (Option Bytes) := do
  let e ← c.resolve lookup
  match dial e with
  | .error reason => .error (.network (.connectionFailed e.format reason))
  | .ok connection => (exchange connection q).2

/-- The peers in the reply to a request. A reply without a body has none. -/
def requestPeers (q : Request) : Except Failure (List Endpoint) := do
  match ← c.request lookup dial q with
  | none => .ok []
  | some body => (PeerRecord.parseList (trimBody body)).mapError .protocol

/-- Up to `num` registered peers. -/
def list (num : Nat) : Except Failure (List Endpoint) := c.requestPeers lookup dial (.list num)

/-- Up to `num` peers other than the one that asks and listens on a port. -/
def discover (num : Nat) (port : UInt16) : Except Failure (List Endpoint) :=
  c.requestPeers lookup dial (.discover num (some port))

/-- The value in the reply to a request. -/
def requestJson (q : Request) : Except Failure Json := do
  let body ← c.request lookup dial q
  (parseBody (body.getD [])).mapError .protocol

/-- What the server says about itself. -/
def info : Except Failure Json := c.requestJson lookup dial .info

/-- The address that the server sees requests come from. -/
def ip : Except Failure String := do
  match (← c.requestJson lookup dial .ip).member? "ip" with
  | some (.text ip) => .ok ip
  | _ => .error (.network (.receiveFailed "reply has no 'ip' field"))

/-- Whether the server replies. -/
def ping : Except Failure Unit := do
  let _ ← c.request lookup dial (.ping none)

end Contact
end FloodMesh
