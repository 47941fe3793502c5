import FloodMesh.Json.Parser
import FloodMesh.Json.Printer
import FloodMesh.Text.Numeral
import FloodMesh.Wire.Error

/-!
# FloodMesh.Wire.Message

A message before its method is looked at: the fields of a JSON object. An argument may arrive as a
number or as a string; either way it is its text that counts.
-/

namespace FloodMesh

/-- Ends every message and every reply body on a stream. -/
def delimiter : Bytes := [0x0d, 0x0a, 0x0d, 0x0a]

/-- The most bytes that a message may have, its delimiter included. -/
def maxMessageSize : Nat := 512

/-- The fields of a message. -/
structure Message where
  fields : Fields
  deriving BEq, Repr

namespace Message

/-- Read a message. White space such as the delimiter may follow. -/
def parse (bytes : Bytes) : Except ProtocolError Message :=
  if maxMessageSize < bytes.length then
    .error (.messageTooLarge bytes.length maxMessageSize)
  else
    match Json.parse? bytes with
    | none => .error (.malformed .notJson)
    | some (.object fields) => .ok ⟨fields⟩
    | some v => .error (.malformed (.notObject v.kind))

/-- The name of the method. -/
def method (m : Message) : Except ProtocolError String :=
  match m.fields.get? "method" with
  | some (.text name) => .ok name
  | _ => .error .missingMethod

/-- The text of a field, if it is there. -/
def scalar (m : Message) (field : String) : Except ProtocolError (Option String) :=
  match m.fields.get? field with
  | none => .ok none
  | some (.text s) => .ok (some s)
  | some (.number n) => .ok (some n.format)
  | some v => .error (.invalidField field (.notScalar v.kind))

/-- The text of a field that has to be there. -/
def require (m : Message) (field : String) : Except ProtocolError String :=
  match m.scalar field with
  | .error e => .error e
  | .ok none => .error (.missingField field)
  | .ok (some text) => .ok text

/-- A count that has to be there. -/
def count (m : Message) (field : String) : Except ProtocolError Nat :=
  match m.require field with
  | .error e => .error e
  | .ok text =>
    match Text.count? text with
    | some n => .ok n
    | none => .error (.invalidField field (.notCount text))

/-- The port that a field's text names. -/
def portOf (field text : String) : Except ProtocolError UInt16 :=
  match Text.port? text with
  | some p => .ok p
  | none => .error (.invalidField field (.notPort text))

/-- A port, if the field is there. -/
def port (m : Message) (field : String) : Except ProtocolError (Option UInt16) :=
  match m.scalar field with
  | .error e => .error e
  | .ok none => .ok none
  | .ok (some text) => (portOf field text).map some

end Message
end FloodMesh
