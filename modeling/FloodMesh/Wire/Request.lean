import FloodMesh.Wire.Envelope

/-!
# FloodMesh.Wire.Request

Requests to directories and routers. The method selects which arguments a message has to have.
-/

namespace FloodMesh

inductive Request
  /-- Up to `num` registered peers. -/
  | list (num : Nat)
  /-- Up to `num` peers without the caller, who listens on `port`. -/
  | discover (num : Nat) (port : Option UInt16)
  /-- Name and load of the service. -/
  | info
  /-- The caller's address as the service sees it. -/
  | ip
  /-- Is anyone there? In a datagram, `port` says where to send the answer. -/
  | ping (port : Option UInt16)
  /-- Answer to a ping in a datagram. -/
  | pong
  /-- Register the caller at a port, which is a text until a table of peers reads it. -/
  | connect (port : String)
  /-- Remove the caller's registration at a port. -/
  | disconnect (port : String)
  /-- A flooded message. -/
  | broadcast (envelope : Envelope)
  deriving BEq, Repr

namespace Request

def method : Request → String
  | list _ => "list"
  | discover _ _ => "discover"
  | info => "info"
  | ip => "ip"
  | ping _ => "ping"
  | pong => "pong"
  | connect _ => "connect"
  | disconnect _ => "disconnect"
  | broadcast _ => "broadcast"

/-- The request with a given method whose arguments are a message's fields. -/
def ofMethod (name : String) (m : Message) : Except ProtocolError Request :=
  if name = "list" then (m.count "num").map list
  else if name = "discover" then
    match m.count "num" with
    | .error e => .error e
    | .ok num => (m.port "port").map (discover num)
  else if name = "info" then .ok info
  else if name = "ip" then .ok ip
  else if name = "ping" then (m.port "port").map ping
  else if name = "pong" then .ok pong
  else if name = "connect" then (m.require "port").map connect
  else if name = "disconnect" then (m.require "port").map disconnect
  else if name = "broadcast" then (Envelope.ofMessage m).map broadcast
  else .error (.unknownMethod name)

/-- The request that a message makes. -/
def ofMessage (m : Message) : Except ProtocolError Request :=
  match m.method with
  | .error e => .error e
  | .ok name => ofMethod name m

/-- Read a request. -/
def parse (bytes : Bytes) : Except ProtocolError Request :=
  match Message.parse bytes with
  | .error e => .error e
  | .ok m => ofMessage m

/-- The port of a registration on the wire: a number if the text names one. -/
def portValue (text : String) : Json :=
  match Text.port? text with
  | some p => .ofNat p.toNat
  | none => .text text

/-- The arguments of a request that is no broadcast. -/
def arguments : Request → List (String × Json)
  | list num => [("num", .ofNat num)]
  | discover num port =>
    ("num", .ofNat num) :: port.toList.map fun p => ("port", .ofNat p.toNat)
  | ping port => port.toList.map fun p => ("port", .ofNat p.toNat)
  | connect port | disconnect port => [("port", portValue port)]
  | _ => []

/-- The request as a message with its delimiter. -/
def encode : Request → Bytes
  | broadcast envelope => envelope.encode
  | r =>
    (Json.ofMembers (("method", .text r.method) :: r.arguments)).print ++ delimiter

end Request
end FloodMesh
