import FloodMesh.Wire.Digest
import FloodMesh.Wire.Message

/-!
# FloodMesh.Wire.Envelope

A broadcast on its way: how many routers it has passed, the listen port of the last one, an id by
which copies are recognised, and the fields of the application. On the wire the port is padded to a
fixed width and the hops are one digit, so a router that changes both keeps the length.
-/

namespace FloodMesh

structure Envelope where
  /-- Routers passed. -/
  hops : Nat
  /-- Listen port of the router passed last; zero before the first. -/
  hopPort : UInt16
  id : String
  /-- Fields of the application. -/
  payload : Fields
  deriving BEq, Repr

namespace Envelope

/-- Names of the fields that are the envelope's own. -/
def ownFields : List String := ["method", "hops", "hop-port", "id"]

/-- Width of the port on the wire. -/
def hopPortWidth : Nat := 5

/-- An envelope that has not passed a router. -/
def fresh (id : String) (payload : Fields) : Envelope := { hops := 0, hopPort := 0, id, payload }

/-- An envelope that has not passed a router, with an id of its own. -/
def originate (nanoseconds : Nat) (payload : Fields) : Envelope :=
  fresh (Digest.messageId (Json.object payload).print nanoseconds) payload

/-- The hops that one digit gives. -/
def parseHops (text : String) : Except ProtocolError Nat :=
  match text.toList with
  | [c] => if c.isDigit then .ok (c.toNat - '0'.toNat)
           else .error (.invalidField "hops" (.notDigit text))
  | _ => .error (.invalidField "hops" (.notDigit text))

/-- The envelope in a message, whatever its method. -/
def ofMessage (m : Message) : Except ProtocolError Envelope :=
  match m.require "hops" with
  | .error e => .error e
  | .ok text =>
    match parseHops text with
    | .error e => .error e
    | .ok hops =>
      match m.require "id" with
      | .error e => .error e
      | .ok id =>
        if id = "" then .error (.invalidField "id" .emptyId)
        else
          match m.require "hop-port" with
          | .error e => .error e
          | .ok text =>
            match Message.portOf "hop-port" text with
            | .error e => .error e
            | .ok hopPort => .ok { hops, hopPort, id, payload := m.fields.without ownFields }

/-- The port on the wire, with spaces in front up to the fixed width. -/
def hopPortField (e : Envelope) : String :=
  let digits := (Nat.repr e.hopPort.toNat).toList
  String.ofList (List.replicate (hopPortWidth - digits.length) ' ' ++ digits)

/-- The fields of the message. A field of the application replaces one of the envelope's own. -/
def fields (e : Envelope) : Fields :=
  Fields.ofList ([("method", .text "broadcast"), ("hops", .ofNat e.hops),
    ("hop-port", .text e.hopPortField), ("id", .text e.id)] ++ e.payload)

/-- The envelope as a message with its delimiter. -/
def encode (e : Envelope) : Bytes := (Json.object e.fields).print ++ delimiter

end Envelope
end FloodMesh
