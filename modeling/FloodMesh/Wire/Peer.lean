import FloodMesh.Address.Parser
import FloodMesh.Address.Printer
import FloodMesh.Json.Printer
import FloodMesh.Json.Record
import FloodMesh.Wire.Error

/-!
# FloodMesh.Wire.Peer

A peer as the bodies of list and discover replies have it: the text of its address, its port and
the number of the address family.
-/

namespace FloodMesh

structure PeerRecord where
  ip : String
  port : UInt16
  family : Nat
  deriving DecidableEq, Repr

namespace PeerRecord

/-- The record of an endpoint. -/
def ofEndpoint (e : Endpoint) : PeerRecord :=
  { ip := e.ip.format, port := e.port, family := e.ip.family }

/-- The endpoint of a record, whose address has to be of the family it states. -/
def endpoint (r : PeerRecord) : Except ProtocolError Endpoint :=
  match IpAddress.ofString? r.ip with
  | none => .error (.invalidField "ip" (.notAddress r.ip))
  | some ip =>
    if ip.family = r.family then .ok { ip, port := r.port }
    else .error (.invalidField "ipv" (.wrongFamily r.ip ip.family r.family))

/-- The record as a value; its members stay in this order. -/
def toJson (r : PeerRecord) : Json :=
  .object [("ip", .text r.ip), ("port", .ofNat r.port.toNat), ("ipv", .ofNat r.family)]

/-- The members of a record. -/
def schema : Json.Schema :=
  [("ip", .text false), ("port", .integer false 0 65535), ("ipv", .integer false 0 255)]

/-- A record from its members' values. -/
def ofData? : List Json.Datum → Option PeerRecord
  | [.text ip, .integer port, .integer family] =>
    some { ip, port := UInt16.ofNat port.toNat, family := family.toNat }
  | _ => none

/-- A record as it stands in a list. -/
def read : Json.Reader PeerRecord := fun bytes =>
  match schema.read bytes with
  | none => none
  | some (data, rest) => (ofData? data).map fun r => (r, rest)

/-- The records of a list. -/
def readAll : Json.Reader (List PeerRecord)
  | 0x5b :: rest => Json.readList 0x5d read rest
  | _ => none

/-- The endpoints of records, unless one of them is faulty. -/
def endpoints : List PeerRecord → Except ProtocolError (List Endpoint)
  | [] => .ok []
  | r :: rs =>
    match r.endpoint with
    | .error e => .error e
    | .ok e => (endpoints rs).map (e :: ·)

/-- The endpoints in the body of a reply. -/
def parseList (body : Bytes) : Except ProtocolError (List Endpoint) :=
  match Json.whole? readAll body with
  | none => .error (.malformed .notJson)
  | some records => endpoints records

end PeerRecord
end FloodMesh
